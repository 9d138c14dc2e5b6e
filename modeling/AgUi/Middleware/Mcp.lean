import AgUi.Middleware.RunNextWithState

namespace AgUi
namespace Middleware
namespace Mcp

open Library Protocol Chunks Apply Verify

/-!
# The MCP middleware

`MCPMiddleware` offers the tools of MCP servers to the agent, executes the
calls the agent makes of them, and runs the agent again with the results,
until nothing is left to execute.  Its consumer is shown one run: the first
`RUN_STARTED`, what happens inside every run, and the last `RUN_FINISHED`.

Connecting to the servers, listing their tools and cancellation are left out:
`toolMap` says which tool names are the middleware's own, and the world says
what an execution returns, errors included.
-/

def defaultMaxIterations : Nat := 32

/-- The cap on tool rounds; `none` is a cap that is absent or not finite. -/
def maxIterations (requested : Option Rat) : Nat :=
  match requested with
  | none => defaultMaxIterations
  | some requested => (max 1 requested.floor).toNat

def getOpenToolCalls (messages : List Message) : List ToolCall :=
  unansweredToolCalls messages

structure McpWorld extends World where
  /-- What the execution of a call comes out as, by round and position. -/
  executeToolCall : Nat -> Nat -> ToolCall -> String

/-! ## One run of the agent -/

/-- The variables of `runOnce`, and what it has handed on. -/
structure RunProgress where
  latestMessages : List Message
  errored : Bool := false
  bufferedRunFinished : Option RunFinishedEvent := none
  forwarded : List Event := []

def RunProgress.forward (progress : RunProgress) (event : Event) : RunProgress :=
  { progress with forwarded := progress.forwarded ++ [event] }

/-- Every `RUN_FINISHED` is held back, and the start of a continuation hidden. -/
def RunProgress.next (isContinuation : Bool) (progress : RunProgress) (observed : EventWithState) : RunProgress :=
  let progress := { progress with latestMessages := observed.messages }
  match observed.event with
  | .runError event => { progress with errored := true }.forward (.runError event)
  | .runFinished event => { progress with bufferedRunFinished := some event }
  | .runStarted event => if isContinuation then progress else progress.forward (.runStarted event)
  | event => progress.forward event

def toolResult (messageId : String) (call : ToolCall) (content : String) : ToolCallResultEvent :=
  { messageId := messageId, toolCallId := call.id, content := .text content }

def resultMessage (event : ToolCallResultEvent) : Message :=
  { id := event.messageId, role := .tool, content := some event.content, toolCallId := some event.toolCallId }

variable (applyPatch : ApplyPatch) (suppressed : Bool) (toolMap : String -> Bool) (world : McpWorld)

/-- How to run the agent again: with which input, and with what added to the
messages it holds.  There is no such way once the tool rounds are used up. -/
abbrev Loop := Option (RunInput -> List Message -> List Action)

def flush (bufferedRunFinished : Option RunFinishedEvent) : List Action :=
  (bufferedRunFinished.toList.map fun event => Action.forwards (.runFinished event)) ++ [Action.completes]

/-- The open tool calls the middleware can execute. -/
def ourCalls (messages : List Message) : List ToolCall :=
  (getOpenToolCalls messages).filter fun call => toolMap call.function.name

def execute (round : Nat) (calls : List ToolCall) : List (ToolCall × String) :=
  calls.mapIdx fun position call => (call, world.executeToolCall round position call)

def resultEvents (round : Nat) (executed : List (ToolCall × String)) : List ToolCallResultEvent :=
  executed.mapIdx fun position done => toolResult (world.randomUUID round position) done.1 done.2

/-- One round: all calls are executed, then the results are handed on in order. -/
def settle (executed : List (ToolCall × String)) (results : List ToolCallResultEvent) : List Action :=
  (executed.map fun done => .executes done.1 done.2) ++ results.map .answers

def onRunComplete (loop : Loop) (round : Nat) (runInput : RunInput) (progress : RunProgress) : List Action :=
  if progress.errored then [.completes]
  else if (ourCalls toolMap progress.latestMessages).isEmpty then flush progress.bufferedRunFinished
  else
    match loop with
    | none => flush progress.bufferedRunFinished
    | some runAgain =>
      let executed := execute world round (ourCalls toolMap progress.latestMessages)
      let results := resultEvents world round executed
      let resultMessages := results.map resultMessage
      let updatedMessages := progress.latestMessages ++ resultMessages
      settle executed results ++
        if (getOpenToolCalls updatedMessages).isEmpty then
          runAgain
            { runInput with runId := world.randomUUID round results.length, messages := updatedMessages }
            resultMessages
        else flush progress.bufferedRunFinished

/-- The body of `runOnce`, with the way to call it again. -/
def runWith (loop : Loop) (round : Nat) (runInput : RunInput) (pushed : List Message) (isContinuation : Bool) :
    List Action :=
  let observed := runNextWithState applyPatch suppressed runInput (world.nextMessages round ++ pushed)
    (world.downstream round)
  let progress := observed.1.foldl (RunProgress.next isContinuation) { latestMessages := runInput.messages }
  .starts runInput :: (progress.forwarded.map .forwards ++
    match observed.2 with
    | .error error => [.fails (.chunk error)]
    | .ok _ => onRunComplete toolMap world loop round runInput progress)

/-- `remaining` counts the tool rounds that are left. -/
def runOnce : Nat -> Nat -> RunInput -> List Message -> Bool -> List Action
  | 0, round => runWith applyPatch suppressed toolMap world none round
  | remaining + 1, round =>
    runWith applyPatch suppressed toolMap world
      (some fun input pushed => runOnce remaining (round + 1) input pushed true) round

/-- `MCPMiddleware.run`; without servers the agent's run is passed on. -/
def run (mcpServers : List String) (requested : Option Rat) (input : RunInput) : List Action :=
  if mcpServers.isEmpty then
    let expanded := runNext suppressed (world.downstream 0)
    .starts input :: (expanded.1.map .forwards ++
      match expanded.2 with
      | .error error => [.fails (.chunk error)]
      | .ok _ => [.completes])
  else runOnce applyPatch suppressed toolMap world (maxIterations requested) 0 input [] false

/-! ## How often the agent runs, and what is answered -/

/-- Every execution is answered, in order, with what it came out as. -/
def Answered (actions : List Action) : Prop :=
  actions.filterMap Action.answer = actions.filterMap Action.outcome

theorem Answered.append {first second : List Action} (one : Answered first) (other : Answered second) :
    Answered (first ++ second) := by
  unfold Answered at one other ⊢
  rw [List.filterMap_append, List.filterMap_append, one, other]

theorem answered_forwards (events : List Event) : Answered (events.map .forwards) :=
  (answers_forwards events).trans (outcomes_forwards events).symm

theorem answered_flush (bufferedRunFinished : Option RunFinishedEvent) : Answered (flush bufferedRunFinished) := by
  cases bufferedRunFinished <;> rfl

theorem runs_flush (bufferedRunFinished : Option RunFinishedEvent) : runs (flush bufferedRunFinished) = 0 := by
  cases bufferedRunFinished <;> rfl

/-- The answers carry what the executions came out as. -/
theorem answered_settle (round : Nat) (executed : List (ToolCall × String)) :
    Answered (settle executed (resultEvents world round executed)) := by
  have said : (resultEvents world round executed).map (fun event => (event.toolCallId, event.content)) =
      executed.map fun done => (done.1.id, .text done.2) := by
    refine List.ext_getElem? fun position => ?_
    rw [resultEvents, List.getElem?_map, List.getElem?_mapIdx, List.getElem?_map, Option.map_map]
    rfl
  have answers : (settle executed (resultEvents world round executed)).filterMap Action.answer =
      (resultEvents world round executed).map fun event => (event.toolCallId, event.content) := by
    rw [settle, List.filterMap_append, List.filterMap_map, List.filterMap_map, ← List.filterMap_eq_map]
    exact congrArg (· ++ _) (List.filterMap_eq_nil_iff.mpr fun _ _ => rfl)
  have outcomes : (settle executed (resultEvents world round executed)).filterMap Action.outcome =
      executed.map fun done => (done.1.id, .text done.2) := by
    rw [settle, List.filterMap_append, List.filterMap_map, List.filterMap_map, ← List.filterMap_eq_map]
    have silent : (resultEvents world round executed).filterMap (Action.outcome ∘ Action.answers) = [] :=
      List.filterMap_eq_nil_iff.mpr fun _ _ => rfl
    rw [silent, List.append_nil]
    rfl
  rw [Answered, answers, outcomes, said]

theorem runs_settle (executed : List (ToolCall × String)) (results : List ToolCallResultEvent) :
    runs (settle executed results) = 0 := by
  refine List.countP_eq_zero.mpr fun action member => ?_
  rcases List.mem_append.mp member with member | member <;> rcases List.mem_map.mp member with ⟨_, _, rfl⟩ <;>
    exact Bool.false_ne_true

theorem onRunComplete_errored (loop : Loop) (round : Nat) (runInput : RunInput) {progress : RunProgress}
    (errored : progress.errored = true) :
    onRunComplete toolMap world loop round runInput progress = [.completes] := by
  unfold onRunComplete
  exact if_pos errored

/-- What `onRunComplete` can do: stop at once, or settle a round and then stop
or run the agent again. -/
theorem onRunComplete_cases (loop : Loop) (round : Nat) (runInput : RunInput) (progress : RunProgress) :
    (progress.errored = true ∧ onRunComplete toolMap world loop round runInput progress = [.completes]) ∨
      (progress.errored = false ∧
        (onRunComplete toolMap world loop round runInput progress = flush progress.bufferedRunFinished ∨
          ∃ runAgain executed, loop = some runAgain ∧
            (onRunComplete toolMap world loop round runInput progress =
                settle executed (resultEvents world round executed) ++ flush progress.bufferedRunFinished ∨
              ∃ input pushed,
                onRunComplete toolMap world loop round runInput progress =
                  settle executed (resultEvents world round executed) ++ runAgain input pushed))) := by
  unfold onRunComplete
  cases progress.errored with
  | true => exact .inl ⟨rfl, rfl⟩
  | false =>
    refine .inr ⟨rfl, ?_⟩
    rw [if_neg Bool.false_ne_true]
    split
    · exact .inl rfl
    · cases loop with
      | none => exact .inl rfl
      | some runAgain =>
        refine .inr ⟨runAgain, execute world round (ourCalls toolMap progress.latestMessages), rfl, ?_⟩
        dsimp only
        split
        · exact .inr ⟨_, _, rfl⟩
        · exact .inl rfl

section Loops

variable {toolMap world} {loop : Loop} {round : Nat} {runInput : RunInput} {progress : RunProgress}

theorem answered_onRunComplete
    (again : ∀ runAgain, loop = some runAgain -> ∀ input pushed, Answered (runAgain input pushed)) :
    Answered (onRunComplete toolMap world loop round runInput progress) := by
  rcases onRunComplete_cases toolMap world loop round runInput progress with
    ⟨_, same⟩ | ⟨_, same | ⟨runAgain, executed, given, same | ⟨input, pushed, same⟩⟩⟩ <;> rw [same]
  · rfl
  · exact answered_flush _
  · exact (answered_settle world round executed).append (answered_flush _)
  · exact (answered_settle world round executed).append (again runAgain given input pushed)

theorem runs_onRunComplete {budget : Nat}
    (again : ∀ runAgain, loop = some runAgain -> ∀ input pushed, runs (runAgain input pushed) ≤ budget) :
    runs (onRunComplete toolMap world loop round runInput progress) ≤ budget := by
  rcases onRunComplete_cases toolMap world loop round runInput progress with
    ⟨_, same⟩ | ⟨_, same | ⟨runAgain, executed, given, same | ⟨input, pushed, same⟩⟩⟩ <;> rw [same]
  · exact Nat.zero_le _
  · rw [runs_flush]
    exact Nat.zero_le _
  · rw [runs_append, runs_settle, runs_flush]
    exact Nat.zero_le _
  · rw [runs_append, runs_settle, Nat.zero_add]
    exact again runAgain given input pushed

variable {applyPatch suppressed} {pushed : List Message} {isContinuation : Bool}

theorem answered_runWith
    (again : ∀ runAgain, loop = some runAgain -> ∀ input pushed, Answered (runAgain input pushed)) :
    Answered (runWith applyPatch suppressed toolMap world loop round runInput pushed isContinuation) := by
  have begun : Answered [.starts runInput] := rfl
  refine begun.append ((answered_forwards _).append ?_)
  split
  · rfl
  · exact answered_onRunComplete again

theorem runs_runWith {budget : Nat}
    (again : ∀ runAgain, loop = some runAgain -> ∀ input pushed, runs (runAgain input pushed) ≤ budget) :
    runs (runWith applyPatch suppressed toolMap world loop round runInput pushed isContinuation) ≤ budget + 1 := by
  unfold runWith
  rw [runs_starts]
  refine Nat.succ_le_succ ?_
  rw [runs_append, runs_forwards, Nat.zero_add]
  split
  · exact Nat.zero_le _
  · exact runs_onRunComplete again

end Loops

theorem answered_runOnce (remaining round : Nat) (runInput : RunInput) (pushed : List Message)
    (isContinuation : Bool) :
    Answered (runOnce applyPatch suppressed toolMap world remaining round runInput pushed isContinuation) := by
  induction remaining generalizing round runInput pushed isContinuation with
  | zero =>
    refine answered_runWith fun runAgain impossible => ?_
    cases impossible
  | succ remaining ih =>
    refine answered_runWith fun runAgain given input pushed => ?_
    cases given
    exact ih _ _ _ _

/-- With `remaining` tool rounds left the agent runs at most once more often. -/
theorem runs_runOnce (remaining round : Nat) (runInput : RunInput) (pushed : List Message)
    (isContinuation : Bool) :
    runs (runOnce applyPatch suppressed toolMap world remaining round runInput pushed isContinuation) ≤
      remaining + 1 := by
  induction remaining generalizing round runInput pushed isContinuation with
  | zero =>
    refine runs_runWith fun runAgain impossible => ?_
    cases impossible
  | succ remaining ih =>
    refine runs_runWith fun runAgain given input pushed => ?_
    cases given
    exact ih _ _ _ _

/-! ## What is heard of a run -/

def isError (event : Event) : Bool :=
  event.type = .runError

theorem hear_inside (isContinuation : Bool) {observed : List EventWithState}
    (inside : ∀ one ∈ observed, isInside one.event = true) (progress : RunProgress) :
    ∃ latest, observed.foldl (RunProgress.next isContinuation) progress =
      { progress with
        latestMessages := latest
        forwarded := progress.forwarded ++ observed.map EventWithState.event } := by
  induction observed generalizing progress with
  | nil => exact ⟨progress.latestMessages, by rw [List.map_nil, List.append_nil]; rfl⟩
  | cons one rest ih =>
    have first := (isInside_iff one.event).mp (inside one List.mem_cons_self)
    have heard : progress.next isContinuation one =
        { progress with
          latestMessages := one.messages
          forwarded := progress.forwarded ++ [one.event] } := by
      unfold RunProgress.next
      cases event : one.event with
      | runStarted e =>
        rw [event] at first
        exact absurd rfl first.2
      | runFinished e | runError e =>
        rw [event] at first
        cases first.1
      | _ => rfl
    rcases ih (List.forall_mem_cons.mp inside).2
      (progress.next isContinuation one) with ⟨latest, later⟩
    refine ⟨latest, ?_⟩
    rw [List.foldl_cons, later, heard, List.map_cons, List.append_assoc]
    rfl

/-- Of a whole run everything is handed on but its boundaries: always its
`RUN_FINISHED`, which is held back, and its start if it is a continuation. -/
theorem hear_whole (isContinuation : Bool) {observed : List EventWithState} {start : RunStartedEvent}
    {inside ending : List Event} (insides : ∀ event ∈ inside, isInside event = true)
    (shape : Ending ending)
    (events : observed.map EventWithState.event = .runStarted start :: (inside ++ ending)) (messages : List Message) :
    let heard := observed.foldl (RunProgress.next isContinuation) { latestMessages := messages }
    heard.forwarded =
        (if isContinuation then [] else [.runStarted start]) ++ inside ++ ending.filter isError ∧
      ((heard.errored = true ∧ ∃ error, ending.filter isError = [.runError error]) ∨
        heard.errored = false ∧ ∃ finish,
          ending = [.runFinished finish] ∧ heard.bufferedRunFinished = some finish) := by
  rcases List.map_eq_cons_iff.mp events with ⟨first, others, rfl, started, rest⟩
  rcases List.map_eq_append_iff.mp rest with ⟨middle, last, rfl, within, ends⟩
  have middleInside : ∀ one ∈ middle, isInside one.event = true := by
    intro one member
    exact insides _ (within ▸ List.mem_map_of_mem member)
  have begun : RunProgress.next isContinuation { latestMessages := messages } first =
      { latestMessages := first.messages
        forwarded := if isContinuation then [] else [.runStarted start] } := by
    unfold RunProgress.next
    rw [started]
    cases isContinuation <;> rfl
  rcases hear_inside isContinuation middleInside
    { latestMessages := first.messages
      forwarded := if isContinuation then [] else [.runStarted start] } with ⟨latest, heard⟩
  rw [within] at heard
  simp only [List.foldl_cons, List.foldl_append, begun, heard]
  cases shape with
  | finished finish =>
    rcases List.map_eq_singleton_iff.mp ends with ⟨one, rfl, event⟩
    simp [RunProgress.next, event, isError, Event.type]
  | failed error =>
    rcases List.map_eq_singleton_iff.mp ends with ⟨one, rfl, event⟩
    simp [RunProgress.next, RunProgress.forward, event, isError, Event.type]
  | finishedThenFailed finish error =>
    rcases List.map_eq_cons_iff.mp ends with ⟨one, others, rfl, event, rest⟩
    rcases List.map_eq_singleton_iff.mp rest with ⟨two, rfl, second⟩
    simp [RunProgress.next, RunProgress.forward, event, second, isError, Event.type]

/-! ## One run, as the consumer sees it -/

/-- What later runs name is unseen so far. -/
def Ahead (round : Nat) (record : Record) : Prop :=
  ∀ later, round ≤ later -> ∀ event ∈ world.events suppressed later,
    ∀ key ∈ named event, Unseen record key

/-- What follows in a run that goes on: it is valid, does not start another
run, and ends in its only `RUN_FINISHED` unless some run of the agent errs. -/
structure Closes (round : Nat) (record : Record) (actions : List Action) : Prop where
  admitted : Admits record (output actions)
  noStart : ∀ event ∈ output actions, event.type ≠ .runStarted
  finishes : (∀ later, round ≤ later -> later < round + runs actions -> ¬ Errs suppressed world.toWorld later) ->
    ∃ before finish, output actions = before ++ [Event.runFinished finish] ∧
      ∀ event ∈ before, event.type ≠ .runFinished

/-- What the runs of the agent and the random ids have to do with each other. -/
structure Surroundings : Prop extends WholeRuns suppressed world.toWorld where
  apart : ApartRuns suppressed world.toWorld
  /-- No run names the id of a result the middleware made. -/
  fresh : ∀ round position later, ∀ event ∈ world.events suppressed later,
    Key.owner .message (world.randomUUID round position) ∉ named event
  /-- No continuation names an id of a tagged message that it echoes. -/
  echo : ∀ later, 0 < later -> ∀ start, Event.runStarted start ∈ world.events suppressed later ->
    ∀ message ∈ echoed start, message.subagentRunId.toOption ≠ none ->
      ∀ key ∈ idsOf message, ∀ event ∈ world.events suppressed later, key ∉ named event

/-- How a run of the agent is told apart from what is heard of it. -/
structure Heard (isContinuation : Bool) (round : Nat) (start : RunStartedEvent) (inside ending : List Event)
    (progress : RunProgress) : Prop where
  events : world.events suppressed round = .runStarted start :: (inside ++ ending)
  insides : ∀ event ∈ inside, isInside event = true
  forwarded : progress.forwarded =
    (if isContinuation then [] else [.runStarted start]) ++ inside ++ ending.filter isError
  verdict : (progress.errored = true ∧ ∃ error, ending.filter isError = [.runError error]) ∨
    progress.errored = false ∧ ∃ finish,
      ending = [.runFinished finish] ∧ progress.bufferedRunFinished = some finish

variable {suppressed world}

theorem closes_flush {record : Record} (quiet : Quiet record) (round : Nat) {finish : RunFinishedEvent}
    (fields : fieldError (.runFinished finish) = none) :
    Closes suppressed world round record (flush (some finish)) where
  admitted := ⟨⟨quiet.active, fields, quiet.closed⟩, trivial⟩
  noStart := by
    intro event member
    rw [List.mem_singleton.mp (show event ∈ [Event.runFinished finish] from member)]
    exact EventType.noConfusion
  finishes := fun _ => ⟨[], finish, rfl, fun _ impossible => absurd impossible List.not_mem_nil⟩

/-- Events inside a run may precede what closes it. -/
theorem Closes.prepend {round : Nat} {record : Record} {before after : List Action}
    (inside : ∀ event ∈ output before, isInside event = true) (still : runs before = 0)
    (admitted : Admits record (output before))
    (closes : Closes suppressed world round (advance record (output before)) after) :
    Closes suppressed world round record (before ++ after) where
  admitted := by
    rw [output_append, admits_append]
    exact ⟨admitted, closes.admitted⟩
  noStart := by
    intro event member
    rw [output_append] at member
    rcases List.mem_append.mp member with member | member
    · exact ((isInside_iff event).mp (inside event member)).2
    · exact closes.noStart event member
  finishes := by
    intro fine
    rw [runs_append, still, Nat.zero_add] at fine
    rcases closes.finishes fine with ⟨earlier, finish, same, others⟩
    refine ⟨output before ++ earlier, finish, ?_, ?_⟩
    · rw [output_append, same, List.append_assoc]
    · intro event member
      rcases List.mem_append.mp member with member | member
      · have within := ((isInside_iff event).mp (inside event member)).1
        intro finished
        cases event with
        | runFinished e => cases within
        | _ => cases finished
      · exact others event member

theorem output_settle (executed : List (ToolCall × String)) (results : List ToolCallResultEvent) :
    output (settle executed results) = results.map .toolCallResult := by
  rw [output, settle, List.filterMap_append, List.filterMap_map, List.filterMap_map, ← List.filterMap_eq_map]
  exact congrArg (· ++ _) (List.filterMap_eq_nil_iff.mpr fun _ _ => rfl)

/-- Results keep a run quiet, and only their own ids become seen. -/
theorem quiet_results {record : Record} (quiet : Quiet record) {round : Nat}
    (ahead : Ahead suppressed world round record)
    {results : List ToolCallResultEvent}
    (fresh : ∀ result ∈ results, ∀ later, ∀ event ∈ world.events suppressed later,
      Key.owner .message result.messageId ∉ named event) :
    Admits record (results.map .toolCallResult) ∧ Quiet (advance record (results.map .toolCallResult)) ∧
      Ahead suppressed world round (advance record (results.map .toolCallResult)) := by
  induction results generalizing record with
  | nil => exact ⟨trivial, quiet, ahead⟩
  | cons result rest ih =>
    have step := quiet.toolCallResult result
    have unseen : Ahead suppressed world round (next record (.toolCallResult result)) := by
      intro later follows event member key names
      refine (next_of_unknown record (isId_of_named names) EventType.noConfusion ?_).trans
        (ahead later follows event member key names)
      intro own
      rw [List.mem_singleton.mp (show key ∈ [Key.owner .message result.messageId] from own)] at names
      exact fresh result List.mem_cons_self later event member names
    have later := ih step.2 unseen (List.forall_mem_cons.mp fresh).2
    exact ⟨⟨step.1, later.1⟩, later.2⟩

/-- After a run that finished, the consumer sees that run closed. -/
theorem closes_onRunComplete {toolMap : String -> Bool} (around : Surroundings suppressed world) {loop : Loop}
    {round : Nat} {runInput : RunInput} {progress : RunProgress} {record : Record} {finish : RunFinishedEvent}
    (quiet : Quiet record) (ahead : Ahead suppressed world (round + 1) record) (fine : progress.errored = false)
    (held : progress.bufferedRunFinished = some finish) (fields : fieldError (.runFinished finish) = none)
    (again : ∀ runAgain, loop = some runAgain -> ∀ input pushed (after : Record), Quiet after ->
      Ahead suppressed world (round + 1) after -> Closes suppressed world (round + 1) after (runAgain input pushed)) :
    Closes suppressed world (round + 1) record (onRunComplete toolMap world loop round runInput progress) := by
  have settles : ∀ (executed : List (ToolCall × String)) {after : List Action},
      (∀ later : Record, Quiet later -> Ahead suppressed world (round + 1) later ->
        Closes suppressed world (round + 1) later after) ->
      Closes suppressed world (round + 1) record
        (settle executed (resultEvents world round executed) ++ after) := by
    intro executed after closes
    have fresh : ∀ result ∈ resultEvents world round executed, ∀ later, ∀ event,
        event ∈ world.events suppressed later -> Key.owner .message result.messageId ∉ named event := by
      intro result member
      rcases List.mem_mapIdx.mp member with ⟨position, _, rfl⟩
      exact around.fresh round position
    have results := quiet_results quiet ahead fresh
    rw [← output_settle executed] at results
    refine .prepend ?_ (runs_settle _ _) results.1 (closes _ results.2.1 results.2.2)
    intro event member
    rw [output_settle] at member
    rcases List.mem_map.mp member with ⟨result, _, rfl⟩
    rfl
  rcases onRunComplete_cases toolMap world loop round runInput progress with
    ⟨errored, _⟩ | ⟨_, same | ⟨runAgain, executed, given, same | ⟨input, pushed, same⟩⟩⟩
  · rw [errored] at fine
    cases fine
  · rw [same, held]
    exact closes_flush quiet _ fields
  · rw [same, held]
    exact settles executed fun later quiet _ => closes_flush quiet _ fields
  · rw [same]
    exact settles executed fun later quiet ahead => again runAgain given input pushed later quiet ahead

/-- Every run of the agent is heard whole. -/
theorem runWith_heard (around : Surroundings suppressed world) (applyPatch : ApplyPatch) (toolMap : String -> Bool)
    (loop : Loop) (round : Nat) (runInput : RunInput) (pushed : List Message) (isContinuation : Bool) :
    ∃ start inside ending progress,
      Heard suppressed world isContinuation round start inside ending progress ∧
      runWith applyPatch suppressed toolMap world loop round runInput pushed isContinuation =
        .starts runInput :: (progress.forwarded.map .forwards ++
          onRunComplete toolMap world loop round runInput progress) := by
  rcases (around.complete round).parts with ⟨start, inside, ending, events, insides, shape⟩
  have watched := runNextWithState_events applyPatch suppressed runInput (world.nextMessages round ++ pushed)
    (world.downstream round)
  have heard := hear_whole isContinuation insides shape (watched.trans events) runInput.messages
  rcases around.expands round with ⟨final, expands⟩
  refine ⟨start, inside, ending, _, ⟨events, insides, heard.1, heard.2⟩, ?_⟩
  have done : (runNextWithState applyPatch suppressed runInput (world.nextMessages round ++ pushed)
      (world.downstream round)).2 = .ok final := expands
  simp only [runWith, done]

section Continuation

variable {applyPatch : ApplyPatch} {toolMap : String -> Bool} (around : Surroundings suppressed world)
  {loop : Loop} {round : Nat} {runInput : RunInput} {pushed : List Message} {isContinuation : Bool}
include around

/-- Once a run of the agent is over, nothing later runs name has been seen. -/
theorem ahead_advance {record : Record} {events : List Event}
    (within : ∀ event ∈ events, event ∈ world.events suppressed round ∧ event.type ≠ .runStarted)
    (ahead : Ahead suppressed world (round + 1) record) :
    Ahead suppressed world (round + 1) (advance record events) := by
  intro later follows event member key names
  refine unseen_advance (isId_of_named names) (ahead later follows event member key names) ?_
  intro past earlier
  exact ⟨(within past earlier).2, around.apart round later follows past (within past earlier).1 event member key names⟩

/-- What the consumer sees of a run from its start on. -/
theorem Heard.closes (toolMap : String -> Bool) (runInput : RunInput) {start : RunStartedEvent}
    {inside ending : List Event} {progress : RunProgress}
    (heard : Heard suppressed world isContinuation round start inside ending progress)
    {record : Record} (admitted : Admits record inside) (active : advance record inside .phase = .active)
    (quiet : ∀ finish rest, ending = .runFinished finish :: rest -> Quiet (advance record inside))
    (ahead : Ahead suppressed world (round + 1) record)
    (again : ∀ runAgain, loop = some runAgain -> ∀ input pushed (after : Record), Quiet after ->
      Ahead suppressed world (round + 1) after -> Closes suppressed world (round + 1) after (runAgain input pushed)) :
    Closes suppressed world round record
      (.starts runInput :: ((inside ++ ending.filter isError).map .forwards ++
        onRunComplete toolMap world loop round runInput progress)) := by
  rcases heard.verdict with ⟨errored, error, errors⟩ | ⟨fine, finish, rfl, held⟩
  · have stops := onRunComplete_errored toolMap world loop round runInput errored
    have shown : output (.starts runInput :: ((inside ++ ending.filter isError).map .forwards ++
        onRunComplete toolMap world loop round runInput progress)) = inside ++ [Event.runError error] := by
      rw [stops, errors, output_starts, output_append, output_forwards]
      exact List.append_nil _
    have errs : Errs suppressed world.toWorld round := by
      refine ⟨.runError error, ?_, rfl⟩
      have member : Event.runError error ∈ ending.filter isError := by
        rw [errors]
        exact List.mem_singleton.mpr rfl
      rw [heard.events]
      exact List.mem_cons_of_mem _ (List.mem_append_right _ (List.mem_of_mem_filter member))
    refine ⟨?_, ?_, fun none => absurd errs (none round (Nat.le_refl _) ?_)⟩
    · rw [shown, admits_append]
      refine ⟨admitted, ⟨?_, rfl, trivial⟩, trivial⟩
      rw [active]
      exact Phase.noConfusion
    · intro event member
      rw [shown] at member
      rcases List.mem_append.mp member with member | member
      · exact ((isInside_iff event).mp (heard.insides event member)).2
      · rw [List.mem_singleton.mp member]
        exact EventType.noConfusion
    · rw [runs_starts]
      omega
  · have finished := (around.complete round).valid
    rw [heard.events, ← List.cons_append] at finished
    have fields := (allows_of_accepted finished).fields
    have errors : [Event.runFinished finish].filter isError = [] := rfl
    rw [errors, List.append_nil]
    have member : ∀ event ∈ inside,
        event ∈ world.events suppressed round ∧ event.type ≠ .runStarted := by
      intro event member
      rw [heard.events]
      exact ⟨List.mem_cons_of_mem _ (List.mem_append_left _ member),
        ((isInside_iff event).mp (heard.insides event member)).2⟩
    have rest : Closes suppressed world (round + 1) (advance record inside)
        (onRunComplete toolMap world loop round runInput progress) :=
      closes_onRunComplete around (quiet finish [] rfl) (ahead_advance around member ahead) fine held fields again
    rw [← output_forwards inside] at rest admitted
    have whole := rest.prepend
      (fun event member => heard.insides event (by rwa [output_forwards] at member)) (runs_forwards inside) admitted
    refine ⟨whole.admitted, whole.noStart, fun none => whole.finishes fun later follows before => ?_⟩
    refine none later (Nat.le_of_succ_le follows) ?_
    rw [runs_starts]
    omega

/-- A continuation goes on where the run before it stopped. -/
theorem closes_runWith {record : Record} (positive : 0 < round)
    (quiet : Quiet record) (ahead : Ahead suppressed world round record)
    (again : ∀ runAgain, loop = some runAgain -> ∀ input pushed (after : Record), Quiet after ->
      Ahead suppressed world (round + 1) after -> Closes suppressed world (round + 1) after (runAgain input pushed)) :
    Closes suppressed world round record
      (runWith applyPatch suppressed toolMap world loop round runInput pushed true) := by
  rcases runWith_heard around applyPatch toolMap loop round runInput pushed true with
    ⟨start, inside, ending, progress, heard, same⟩
  have admitted := (accepted_iff_admits _).mp (around.complete round).valid
  rw [heard.events] at admitted
  have member : ∀ event ∈ inside, event ∈ world.events suppressed round := by
    intro event member
    rw [heard.events]
    exact List.mem_cons_of_mem _ (List.mem_append_left _ member)
  have begins : Event.runStarted start ∈ world.events suppressed round := by
    rw [heard.events]
    exact List.mem_cons_self
  have along := quiet.continued heard.insides admitted
    (fun event inside => ahead round (Nat.le_refl _) event (member event inside))
    (fun message echoes tagged key ids event inside =>
      around.echo round positive start begins message echoes tagged key ids event (member event inside))
  rw [same, heard.forwarded]
  exact heard.closes around toolMap runInput along.1 along.2.1 along.2.2
    (fun later follows => ahead later (Nat.le_of_succ_le follows)) again

end Continuation

/-- So does every later continuation, while tool rounds are left. -/
theorem closes_runOnce (applyPatch : ApplyPatch) (toolMap : String -> Bool) (around : Surroundings suppressed world)
    (remaining round : Nat) (runInput : RunInput) (pushed : List Message) {record : Record} (positive : 0 < round)
    (quiet : Quiet record) (ahead : Ahead suppressed world round record) :
    Closes suppressed world round record
      (runOnce applyPatch suppressed toolMap world remaining round runInput pushed true) := by
  induction remaining generalizing round runInput pushed record with
  | zero =>
    refine closes_runWith around positive quiet ahead fun runAgain impossible => ?_
    cases impossible
  | succ remaining ih =>
    refine closes_runWith around positive quiet ahead fun runAgain given input pushed after quiet ahead => ?_
    cases given
    exact ih _ _ _ (Nat.succ_pos round) quiet ahead

/-! ## The one run the consumer is shown -/

/-- A valid stream with one `RUN_STARTED`, whose last event is its only
`RUN_FINISHED` unless a run of the agent erred. -/
structure PresentsOneRun (suppressed : Bool) (world : World) (actions : List Action) : Prop where
  valid : accepted (output actions) = true
  oneStart : (output actions).countP (fun event => event.type = .runStarted) = 1
  oneFinish : (∀ round, round < runs actions -> ¬ Errs suppressed world round) ->
    ∃ before finish, output actions = before ++ [Event.runFinished finish] ∧
      ∀ event ∈ before, event.type ≠ .runFinished

/-- A start in front of what closes the run makes the run whole. -/
theorem presents_of_closes {start : RunStartedEvent} {actions rest : List Action}
    (shown : output actions = .runStarted start :: output rest) (same : runs actions = runs rest)
    (starts : Allows Record.blank (.runStarted start))
    (closes : Closes suppressed world 0 (next Record.blank (.runStarted start)) rest) :
    PresentsOneRun suppressed world.toWorld actions where
  valid := by
    rw [shown, accepted_iff_admits]
    exact ⟨starts, closes.admitted⟩
  oneStart := by
    rw [shown, List.countP_cons_of_pos (by simp [Event.type])]
    have none_later : (output rest).countP (fun event => event.type = .runStarted) = 0 :=
      List.countP_eq_zero.mpr fun event member => by simpa using closes.noStart event member
    rw [none_later]
  oneFinish := by
    intro fine
    rw [same] at fine
    rcases closes.finishes (fun later _ before => fine later (by omega)) with ⟨before, finish, last, others⟩
    refine ⟨.runStarted start :: before, finish, by rw [shown, last]; rfl, ?_⟩
    intro event member
    rcases List.mem_cons.mp member with rfl | member
    · exact EventType.noConfusion
    · exact others event member

section Whole

variable {applyPatch : ApplyPatch} {toolMap : String -> Bool} (around : Surroundings suppressed world)
include around

theorem presents_runWith {loop : Loop} {runInput : RunInput}
    (again : ∀ runAgain, loop = some runAgain -> ∀ input pushed (after : Record), Quiet after ->
      Ahead suppressed world 1 after -> Closes suppressed world 1 after (runAgain input pushed)) :
    PresentsOneRun suppressed world.toWorld
      (runWith applyPatch suppressed toolMap world loop 0 runInput [] false) := by
  rcases runWith_heard around applyPatch toolMap loop 0 runInput [] false with
    ⟨start, inside, ending, progress, heard, same⟩
  have admitted := (accepted_iff_admits _).mp (around.complete 0).valid
  rw [heard.events] at admitted
  have parts := (admits_append _ _ _).mp admitted.2
  have active : advance (next Record.blank (.runStarted start)) inside .phase = .active := by
    rw [phase_advance_inside heard.insides, phase_next]
  have quiet : ∀ finish rest, ending = .runFinished finish :: rest ->
      Quiet (advance (next Record.blank (.runStarted start)) inside) := by
    rintro finish rest rfl
    exact ⟨active, parts.2.1.case⟩
  have ahead : Ahead suppressed world 1 (next Record.blank (.runStarted start)) := by
    intro later follows event member key names
    refine unseen_runStarted (isId_of_named names) ?_ _
    refine around.apart 0 later follows (.runStarted start) ?_ event member key names
    rw [heard.events]
    exact List.mem_cons_self
  have closes := heard.closes around toolMap runInput parts.1 active quiet ahead again
  rw [same]
  refine presents_of_closes ?_ ?_ admitted.1 closes
  · rw [heard.forwarded, output_starts, output_starts, output_append, output_append, output_forwards, output_forwards]
    rfl
  · rw [runs_starts, runs_starts, runs_append, runs_append, runs_forwards, runs_forwards]

/-- Without servers the agent's own run is shown. -/
theorem presents_passedOn {input : RunInput} :
    PresentsOneRun suppressed world.toWorld
      (.starts input :: ((world.events suppressed 0).map Action.forwards ++ [Action.completes])) := by
  have shown : output (.starts input :: ((world.events suppressed 0).map Action.forwards ++ [Action.completes])) =
      world.events suppressed 0 := by
    rw [output_starts, output_append, output_forwards]
    exact List.append_nil _
  rcases (around.complete 0).parts with ⟨start, inside, ending, events, insides, shape⟩
  refine ⟨?_, ?_, fun fine => ?_⟩
  · rw [shown]
    exact (around.complete 0).valid
  · rcases (around.complete 0).started with ⟨first, rest, same, noStart⟩
    rw [shown, same, List.countP_cons_of_pos (by simp [Event.type])]
    have none_later : rest.countP (fun event => event.type = .runStarted) = 0 :=
      List.countP_eq_zero.mpr fun event member => by simpa using noStart event member
    rw [none_later]
  · rw [shown]
    have errs : ∀ error, Event.runError error ∉ ending := by
      intro error member
      refine fine 0 ?_ ⟨.runError error, ?_, rfl⟩
      · rw [runs_starts]
        exact Nat.succ_pos _
      · rw [events]
        exact List.mem_cons_of_mem _ (List.mem_append_right _ member)
    cases shape with
    | finished finish =>
      refine ⟨.runStarted start :: inside, finish, events, ?_⟩
      intro event member
      rcases List.mem_cons.mp member with rfl | member
      · exact EventType.noConfusion
      · have within := ((isInside_iff event).mp (insides event member)).1
        intro finished
        cases event with
        | runFinished e => cases within
        | _ => cases finished
    | failed error => exact absurd List.mem_cons_self (errs error)
    | finishedThenFailed finish error => exact absurd (List.mem_cons_of_mem _ List.mem_cons_self) (errs error)

/-- Whatever the agent runs and the tools return, the consumer sees one valid
run, in which every executed call is answered, and the agent runs at most
once more often than there are tool rounds. -/
theorem mcp_correct (applyPatch : ApplyPatch) (toolMap : String -> Bool) (mcpServers : List String)
    (requested : Option Rat) (input : RunInput) :
    let actions := run applyPatch suppressed toolMap world mcpServers requested input
    PresentsOneRun suppressed world.toWorld actions ∧ Answered actions ∧
      runs actions ≤ maxIterations requested + 1 := by
  rcases around.expands 0 with ⟨final, expands⟩
  unfold run
  dsimp only
  split
  · rw [expands]
    refine ⟨presents_passedOn around, ?_, ?_⟩
    · have begun : Answered [.starts input] := rfl
      have ended : Answered [.completes] := rfl
      exact begun.append ((answered_forwards _).append ended)
    · rw [runs_starts, runs_append, runs_forwards]
      exact Nat.le_add_left _ _
  · refine ⟨?_, answered_runOnce _ _ _ _ _ _ _ _ _, runs_runOnce _ _ _ _ _ _ _ _ _⟩
    cases maxIterations requested with
    | zero =>
      refine presents_runWith around fun runAgain impossible => ?_
      cases impossible
    | succ remaining =>
      refine presents_runWith around fun runAgain given input pushed after quiet ahead => ?_
      cases given
      exact closes_runOnce applyPatch toolMap around remaining 1 input pushed Nat.one_pos quiet ahead

end Whole

/-! ## An agent that calls one tool -/

def callRun : List Event :=
  [.runStarted { threadId := "t", runId := "r" },
   .toolCallStart { toolCallId := "c", toolCallName := "mcp__server0__add" },
   .toolCallEnd { toolCallId := "c" },
   .runFinished { threadId := "t", runId := "r" }]

/-- A run that echoes `echo` and speaks for the subagent `s`, in a message
opened under `tag`. -/
def speakRun (echo : List Message) (tag : Tag) : List Event :=
  [.runStarted { threadId := "t", runId := "q", input := some { messages := echo } },
   .textMessageStart { messageId := "m", subagentRunId := tag },
   .textMessageContent { messageId := "m", delta := "42", subagentRunId := .value "s" },
   .textMessageEnd { messageId := "m" },
   .runFinished { threadId := "t", runId := "q" }]

def emptyRun : List Event :=
  [.runStarted { threadId := "t", runId := "q" }, .runFinished { threadId := "t", runId := "q" }]

/-- The agent calls a tool in its first run and says in its second what came
out of it. -/
def callThenSpeak (echo : List Message) (tag : Tag) : McpWorld where
  downstream
    | 0 => callRun
    | 1 => speakRun echo tag
    | _ => emptyRun
  nextMessages _ := []
  randomUUID _ _ := "uuid"
  executeToolCall _ _ _ := "42"

/-- Both runs, with one server that has one tool. -/
def answerOnce (echo : List Message) (tag : Tag) : List Action :=
  run (fun _ _ => none) false (fun name => name == "mcp__server0__add") (callThenSpeak echo tag) ["server0"] none
    { runId := "r" }

/-- A message of the subagent `s` in the history. -/
def taggedEcho : List Message :=
  [{ id := "m", role := .assistant, subagentRunId := .value "s" }]

theorem complete_callRun : CompleteRun callRun :=
  ⟨by decide, ⟨_, _, rfl, by decide⟩, ⟨_, rfl, rfl⟩⟩

theorem complete_emptyRun : CompleteRun emptyRun :=
  ⟨by decide, ⟨_, _, rfl, by decide⟩, ⟨_, rfl, rfl⟩⟩

theorem wholeRuns_callThenSpeak {echo : List Message} {tag : Tag} (second : CompleteRun (speakRun echo tag)) :
    WholeRuns false (callThenSpeak echo tag).toWorld where
  expands
    | 0 => ⟨{}, rfl⟩
    | 1 => ⟨{}, rfl⟩
    | _ + 2 => ⟨{}, rfl⟩
  complete
    | 0 => complete_callRun
    | 1 => second
    | _ + 2 => complete_emptyRun

theorem named_emptyRun : ∀ event ∈ emptyRun, named event = [] := by
  decide

theorem apartRuns_callThenSpeak (echo : List Message) (tag : Tag) :
    ApartRuns false (callThenSpeak echo tag).toWorld := by
  intro earlier later before event member other also key names
  match later, earlier, before with
  | 1, 0, _ =>
    have own : key = .owner .message "m" := by
      have shown : other ∈ speakRun echo tag := also
      simp only [speakRun, List.mem_cons, List.not_mem_nil, or_false] at shown
      rcases shown with rfl | rfl | rfl | rfl | rfl <;> first | exact List.mem_singleton.mp names | cases names
    have apart : ∀ event ∈ callRun, Key.owner .message "m" ∉ known event := by decide
    exact own ▸ apart event member
  | 1, _ + 1, before => omega
  | later + 2, _, _ =>
    rw [named_emptyRun other also] at names
    cases names

/-- The first run calls a tool, and the second says what came out. -/
theorem mcp_correct_answerOnce :
    PresentsOneRun false (callThenSpeak [] (.value "s")).toWorld (answerOnce [] (.value "s")) ∧
      Answered (answerOnce [] (.value "s")) ∧ runs (answerOnce [] (.value "s")) ≤ 33 := by
  refine mcp_correct ⟨?_, apartRuns_callThenSpeak _ _, ?_, ?_⟩ _ _ _ _ _
  · exact wholeRuns_callThenSpeak ⟨by decide, ⟨_, _, rfl, by decide⟩, ⟨_, rfl, rfl⟩⟩
  · intro round position later event member
    match later with
    | 0 => exact (by decide : ∀ event ∈ callRun, Key.owner .message "uuid" ∉ named event) event member
    | 1 =>
      exact (by decide : ∀ event ∈ speakRun [] (.value "s"), Key.owner .message "uuid" ∉ named event)
        event member
    | _ + 2 =>
      rw [named_emptyRun event member]
      exact List.not_mem_nil
  · intro later positive start begins message echoes
    match later with
    | 1 =>
      have plain : ∀ event ∈ speakRun [] (.value "s"), carried event = [] := by
        intro event member
        simp only [speakRun, List.mem_cons, List.not_mem_nil, or_false] at member
        rcases member with rfl | rfl | rfl | rfl | rfl <;> rfl
      rw [show echoed start = [] from plain _ begins] at echoes
      cases echoes
    | _ + 2 =>
      have plain : ∀ event ∈ emptyRun, carried event = [] := by
        intro event member
        simp only [emptyRun, List.mem_cons, List.not_mem_nil, or_false] at member
        rcases member with rfl | rfl <;> rfl
      rw [show echoed start = [] from plain _ begins] at echoes
      cases echoes

/-- The second run is valid because its start, which the consumer does not
see, echoes the message it opens as the subagent's. -/
theorem mcp_refused :
    WholeRuns false (callThenSpeak taggedEcho .absent).toWorld ∧
      ApartRuns false (callThenSpeak taggedEcho .absent).toWorld ∧
      accepted (output (answerOnce taggedEcho .absent)) = false :=
  ⟨wholeRuns_callThenSpeak ⟨by decide, ⟨_, _, rfl, by decide⟩, ⟨_, rfl, rfl⟩⟩, apartRuns_callThenSpeak _ _, by decide⟩

end Mcp
end Middleware
end AgUi
