import AgUi.Apply.Reducer
import AgUi.Middleware.RunNext
import AgUi.Verify.JoinedRuns

namespace AgUi
namespace Middleware

open Library Protocol Chunks Apply Verify

/-!
# Runs a middleware watches and repeats

`runNextWithState` hands on every event of the agent behind the middleware
together with the messages and the state a private reducer has come to.  Two
middlewares answer tool calls from what they read there and run the agent
again, so that their consumer sees one run.

What such a middleware does is written down as a list of actions.  The
world it meets is a parameter: what each run of the agent emits, what the
agent holds when a run starts, how each tool call turns out.
-/

/-! ## Events with state -/

/-- The part of a `RunAgentInput` that is looked at or replaced. -/
structure RunInput where
  runId : String
  messages : List Message := []
  state : Option Json := none

structure EventWithState where
  event : Event
  messages : List Message
  state : Json

/-- What a mutation reports replaces what was current. -/
def EventWithState.update (current : List Message × Json) (mutation : AgentStateMutation) : List Message × Json :=
  (mutation.messages.getD current.1, mutation.state.getD current.2)

/-- Each event with what is current once the reducer has applied it. -/
def withState (applyPatch : ApplyPatch) : ApplyState -> List Message × Json -> List Event -> List EventWithState
  | _, _, [] => []
  | reducer, current, event :: rest =>
    let effect := reduce applyPatch reducer event
    let current := effect.2.foldl EventWithState.update current
    { event := event, messages := current.1, state := current.2 } :: withState applyPatch effect.1 current rest

/-- The reducer starts from the messages the agent holds, not from those of
the input.  An absent state counts as the empty object. -/
def runNextWithState (applyPatch : ApplyPatch) (suppressed : Bool) (input : RunInput) (agentMessages : List Message)
    (events : List Event) : List EventWithState × Except ChunkError TransformState :=
  let expanded := runNext suppressed events
  (withState applyPatch { messages := agentMessages, state := input.state.getD .null }
    (input.messages, input.state.getD (.object [])) expanded.1, expanded.2)

theorem withState_events (applyPatch : ApplyPatch) (reducer : ApplyState) (current : List Message × Json)
    (events : List Event) : (withState applyPatch reducer current events).map EventWithState.event = events := by
  induction events generalizing reducer current with
  | nil => rfl
  | cons event rest ih => exact congrArg (event :: ·) (ih _ _)

theorem runNextWithState_events (applyPatch : ApplyPatch) (suppressed : Bool) (input : RunInput)
    (agentMessages : List Message) (events : List Event) :
    (runNextWithState applyPatch suppressed input agentMessages events).1.map EventWithState.event =
      (runNext suppressed events).1 :=
  withState_events _ _ _ _

/-! ## Open tool calls -/

/-- The tool calls of assistant messages to which no tool message answers. -/
def unansweredToolCalls (messages : List Message) : List ToolCall :=
  let allToolCalls := messages.flatMap fun message => if message.role = .assistant then message.calls else []
  let resolvedIds := messages.filterMap fun message => if message.role = .tool then message.toolCallId else none
  allToolCalls.filter fun call => !resolvedIds.contains call.id

/-! ## Actions -/

inductive StreamError where
  | chunk (error : ChunkError)
  | continuationLimit

/-- What a middleware does while its consumer listens. -/
inductive Action where
  /-- It runs the agent behind it. -/
  | starts (input : RunInput)
  /-- It hands on an event of that run. -/
  | forwards (event : Event)
  /-- It looks for tool calls of its own among the messages of a finished run. -/
  | finds (messages : List Message) (calls : List ToolCall)
  /-- A tool call it executes comes out as `content`. -/
  | executes (call : ToolCall) (content : String)
  | answers (event : ToolCallResultEvent)
  | shows (event : ActivitySnapshotEvent)
  | completes
  | fails (error : StreamError)

namespace Action

def emitted : Action -> Option Event
  | forwards event => some event
  | answers event => some (.toolCallResult event)
  | shows event => some (.activitySnapshot event)
  | _ => none

def isStart : Action -> Bool
  | starts _ => true
  | _ => false

def isFailure : Action -> Bool
  | fails _ => true
  | _ => false

def isSearch : Action -> Bool
  | finds _ _ => true
  | _ => false

/-- What is made of a tool call, and nothing of the run around it. -/
def isResult : Action -> Bool
  | answers _ => true
  | shows _ => true
  | _ => false

/-- The call an execution was of and what came out. -/
def outcome : Action -> Option (String × Content)
  | executes call content => some (call.id, .text content)
  | _ => none

/-- The call an answer is to and what it says. -/
def answer : Action -> Option (String × Content)
  | answers event => some (event.toolCallId, event.content)
  | _ => none

end Action

/-- What the consumer sees. -/
def output (actions : List Action) : List Event :=
  actions.filterMap Action.emitted

/-- The runs of the agent behind the middleware. -/
def runs (actions : List Action) : Nat :=
  actions.countP Action.isStart

theorem output_append (first second : List Action) : output (first ++ second) = output first ++ output second :=
  List.filterMap_append

theorem runs_append (first second : List Action) : runs (first ++ second) = runs first + runs second :=
  List.countP_append

theorem runs_starts (input : RunInput) (actions : List Action) : runs (.starts input :: actions) = runs actions + 1 :=
  List.countP_cons_of_pos rfl

theorem output_starts (input : RunInput) (actions : List Action) :
    output (.starts input :: actions) = output actions :=
  List.filterMap_cons_none rfl

theorem output_forwards (events : List Event) : output (events.map .forwards) = events := by
  rw [output, List.filterMap_map]
  exact List.filterMap_some

theorem runs_forwards (events : List Event) : runs (events.map .forwards) = 0 := by
  rw [runs, List.countP_map]
  exact List.countP_eq_zero.mpr fun _ _ impossible => Bool.false_ne_true impossible

theorem outcomes_forwards (events : List Event) : (events.map Action.forwards).filterMap Action.outcome = [] := by
  rw [List.filterMap_map]
  exact List.filterMap_eq_nil_iff.mpr fun _ _ => rfl

theorem answers_forwards (events : List Event) : (events.map Action.forwards).filterMap Action.answer = [] := by
  rw [List.filterMap_map]
  exact List.filterMap_eq_nil_iff.mpr fun _ _ => rfl

/-! ## The world around a middleware -/

/-- What is not decided by the middleware that calls tools. -/
structure World where
  /-- What each run of the agent emits. -/
  downstream : Nat -> List Event
  /-- What the agent holds by the time the middleware starts a run. -/
  nextMessages : Nat -> List Message
  /-- The random ids drawn after each run. -/
  randomUUID : Nat -> Nat -> String

variable (suppressed : Bool) (world : World)

/-- What the middleware sees of a run. -/
def World.events (round : Nat) : List Event :=
  (runNext suppressed (world.downstream round)).1

/-- The run ends in an error. -/
def Errs (round : Nat) : Prop :=
  ∃ event ∈ world.events suppressed round, event.type = .runError

/-- Every run of the agent is complete, valid and in chunks that expand. -/
structure WholeRuns : Prop where
  expands : ∀ round, ∃ final, (runNext suppressed (world.downstream round)).2 = .ok final
  complete : ∀ round, CompleteRun (world.events suppressed round)

/-- No run names an id that an earlier one names or carries. -/
def ApartRuns : Prop :=
  ∀ earlier later, earlier < later ->
    ∀ event ∈ world.events suppressed earlier, ∀ other ∈ world.events suppressed later,
      ∀ key ∈ named other, key ∉ known event

end Middleware
end AgUi
