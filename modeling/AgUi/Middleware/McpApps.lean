import AgUi.Middleware.RunNextWithState

namespace AgUi
namespace Middleware
namespace McpApps

open Library Protocol Chunks Apply Verify

/-!
# The MCP apps middleware

`MCPAppsMiddleware.processStream` holds a `RUN_FINISHED` back until another
event follows it or the stream ends.  At the end it executes the pending calls
of MCP tools.  A tool with a UI resource is shown as an activity; a call of a
supporting tool, which has none, makes it run the agent again on the resolved
history.  The continuation is processed by `processStream` itself, and what it
emits is handed on without its `RUN_STARTED` and with the run id of the run it
continues.

Connecting to the servers, listing their tools, cancellation and requests
proxied from a UI are left out.
-/

/-- What is known of an MCP tool offered to the agent. -/
structure MCPToolInfo where
  resourceUri : Option String := none
  serverHash : String
  serverId : Option String := none

def findPendingToolCalls (messages : List Message) : List ToolCall :=
  unansweredToolCalls messages

def mcpAppsActivityType : String := "mcp-apps"

/-- The number of continuations a run may have. -/
def continuationLimit : Nat := 10

structure AppsWorld extends World where
  /-- `JSON.parse` of the arguments of a call, or why it throws. -/
  parseArguments : String -> Except String Json
  /-- What a tool returns, by round and position, or why the call fails. -/
  executeToolCall : Nat -> Nat -> String -> Json -> Except String Json
  /-- `JSON.stringify`, with `none` for `undefined`. -/
  stringify : Option Json -> String

variable (applyPatch : ApplyPatch) (suppressed : Bool) (toolsMap : String -> Option MCPToolInfo) (world : AppsWorld)

/-! ## Executing a call -/

def textPart (part : Json) : Option String :=
  match part.member? "type" with
  | some (.string "text") => (part.member? "text").bind Json.asString?
  | _ => none

def extractTextContent (mcpResult : Json) : String :=
  match mcpResult.member? "structuredContent" with
  | some structuredContent =>
    world.stringify (some (.object
      (((mcpResult.member? "content").toList.map (Prod.mk "content")) ++ [("structuredContent", structuredContent)])))
  | none =>
    match mcpResult.member? "content" with
    | some (.array parts) =>
      let textContent := "\n".intercalate (parts.filterMap textPart)
      if textContent = "" then world.stringify (some (.array parts)) else textContent
    | content => world.stringify content

/-- The snapshot from which the frontend renders the result. -/
def activityEvent (messageId : String) (info : MCPToolInfo) (resourceUri : String) (args mcpResult : Json) :
    ActivitySnapshotEvent :=
  { messageId := messageId
    activityType := mcpAppsActivityType
    content := .object
      ([("result", mcpResult), ("resourceUri", .string resourceUri), ("serverHash", .string info.serverHash)] ++
        (info.serverId.toList.map fun serverId => ("serverId", .string serverId)) ++ [("toolInput", args)])
    replace := some true }

def resultEvent (messageId : String) (call : ToolCall) (content : String) : ToolCallResultEvent :=
  { messageId := messageId, toolCallId := call.id, content := .text content }

def resultMessage (event : ToolCallResultEvent) : Message :=
  { id := event.messageId, role := .tool, content := some event.content, toolCallId := some event.toolCallId }

/-- The parsed arguments and the result, or the error that was thrown. -/
def callTool (round position : Nat) (call : ToolCall) : Except String (Json × Json) := do
  let args <- world.parseArguments (if call.function.arguments = "" then "\x7b\x7d" else call.function.arguments)
  let mcpResult <- world.executeToolCall round position call.function.name args
  return (args, mcpResult)

/-- What becomes of one pending call: its result, an error included. -/
def answerCall (round position : Nat) (call : ToolCall) : ToolCallResultEvent :=
  let messageId := world.randomUUID round (2 * position)
  match callTool world round position call with
  | .ok (_, mcpResult) => resultEvent messageId call (extractTextContent world mcpResult)
  | .error error => resultEvent messageId call (world.stringify (some (.object [("error", .string error)])))

/-- The snapshot of a call that succeeded, if its tool has a UI. -/
def showCall (round position : Nat) (call : ToolCall) : Option ActivitySnapshotEvent :=
  match callTool world round position call, toolsMap call.function.name with
  | .ok (args, mcpResult), some info =>
    info.resourceUri.map fun resourceUri =>
      activityEvent (world.randomUUID round (2 * position + 1)) info resourceUri args mcpResult
  | _, _ => none

def settleCall (round position : Nat) (call : ToolCall) : List Action :=
  .answers (answerCall world round position call) ::
    (showCall toolsMap world round position call).toList.map .shows

/-! ## Processing a stream -/

/-- The variables of `processStream`, and what it has handed on. -/
structure StreamState where
  heldRunFinished : Option EventWithState := none
  errored : Bool := false
  emitted : List Event := []

def StreamState.next (state : StreamState) (observed : EventWithState) : StreamState :=
  let errored := state.errored || observed.event.type = .runError
  let flushed := state.emitted ++ state.heldRunFinished.toList.map EventWithState.event
  match observed.event with
  | .runFinished _ => { heldRunFinished := some observed, errored := errored, emitted := flushed }
  | event => { heldRunFinished := none, errored := errored, emitted := flushed ++ [event] }

/-- `outcome && outcome.type !== "success"`. -/
def outcomeStops (event : Event) : Bool :=
  match event with
  | .runFinished finish =>
    match finish.outcome with
    | none => false
    | some (.success _) => false
    | some _ => true
  | _ => false

/-- How to run the agent again, from the messages it then holds. -/
abbrev Continuation := Option (RunInput -> List Action)

/-- What of a continuation is handed on by the run it continues. -/
def presentEvent (runId : String) : Event -> Option Event
  | .runStarted _ => none
  | .runFinished event => some (.runFinished { event with runId := runId })
  | event => some event

def present (runId : String) : Action -> Option Action
  | .forwards event => (presentEvent runId event).map .forwards
  | action => some action

def isSupporting (call : ToolCall) : Bool :=
  ((toolsMap call.function.name).bind MCPToolInfo.resourceUri).isNone

def pendingMCPToolCalls (messages : List Message) : List ToolCall :=
  (findPendingToolCalls messages).filter fun call => (toolsMap call.function.name).isSome

def flush (held : EventWithState) : List Action :=
  [.forwards held.event, .completes]

/-- What follows once the calls found are executed. -/
def afterResults (continuation : Continuation) (round : Nat) (input : RunInput) (held : EventWithState)
    (calls : List ToolCall) : List Action :=
  let resultMessages := calls.mapIdx fun position call => resultMessage (answerCall world round position call)
  let messages := held.messages ++ resultMessages
  match continuation with
  | none => flush held
  | some runAgain =>
    if calls.any (isSupporting toolsMap) && (findPendingToolCalls messages).isEmpty then
      (runAgain
        { runId := world.randomUUID round (2 * calls.length), messages := messages,
          state := some held.state }).filterMap
          (present input.runId)
    else flush held

/-- The handler of the end of a stream that ended in `held`. -/
def onHeld (continuation : Continuation) (round : Nat) (input : RunInput) (errored : Bool) (held : EventWithState) :
    List Action :=
  if errored || outcomeStops held.event then flush held
  else
    let calls := pendingMCPToolCalls toolsMap held.messages
    .finds held.messages calls ::
      if continuation.isNone && !calls.isEmpty then [.fails .continuationLimit]
      else
        (calls.mapIdx (settleCall toolsMap world round)).flatten ++
          afterResults toolsMap world continuation round input held calls

/-- The body of `processStream`.  The reducer of a continuation is seeded with
the messages of its input, which the agent was made to hold. -/
def processWith (continuation : Continuation) (round : Nat) (input : RunInput) (agentMessages : List Message) :
    List Action :=
  let observed := runNextWithState applyPatch suppressed input agentMessages (world.downstream round)
  let state := observed.1.foldl StreamState.next {}
  .starts input :: (state.emitted.map .forwards ++
    match observed.2, state.heldRunFinished with
    | .error error, held => held.toList.map (fun held => Action.forwards held.event) ++ [Action.fails (.chunk error)]
    | .ok _, none => [.completes]
    | .ok _, some held => onHeld toolsMap world continuation round input state.errored held)

/-- `remaining` counts the continuations that are left.  Without servers there
is no continuation, but then no call is ever found either. -/
def processStream : Nat -> Nat -> RunInput -> List Message -> List Action
  | 0, round => processWith applyPatch suppressed toolsMap world none round
  | remaining + 1, round =>
    processWith applyPatch suppressed toolsMap world
      (some fun input => processStream remaining (round + 1) input input.messages) round

/-- `MCPAppsMiddleware.run`, for an input that carries no proxied request. -/
def run (input : RunInput) : List Action :=
  processStream applyPatch suppressed toolsMap world continuationLimit 0 input (world.nextMessages 0)

/-! ## What a continuation presents -/

theorem emitted_present (runId : String) (action : Action) :
    (present runId action).bind Action.emitted = action.emitted.bind (presentEvent runId) := by
  cases action with
  | forwards event => cases shown : presentEvent runId event <;> simp [present, Action.emitted, shown]
  | _ => rfl

theorem output_present (runId : String) (actions : List Action) :
    output (actions.filterMap (present runId)) = (output actions).filterMap (presentEvent runId) := by
  rw [output, output, List.filterMap_filterMap, List.filterMap_filterMap]
  exact List.filterMap_congr fun action _ => emitted_present runId action

/-- What is not an event of a run is presented as it is. -/
theorem countP_present {counts : Action -> Bool} (notForwarded : ∀ event, counts (.forwards event) = false)
    (runId : String) (actions : List Action) :
    (actions.filterMap (present runId)).countP counts = actions.countP counts := by
  induction actions with
  | nil => rfl
  | cons action rest ih =>
    have same : ([action].filterMap (present runId)).countP counts = [action].countP counts := by
      cases action with
      | forwards event =>
        rw [List.countP_cons_of_neg (by rw [notForwarded]; exact Bool.false_ne_true)]
        cases shown : presentEvent runId event with
        | none => simp [present, shown]
        | some event => simp [present, shown, notForwarded]
      | _ => rfl
    rw [← List.singleton_append, List.filterMap_append, List.countP_append, List.countP_append, same,
      ih]

theorem type_presentEvent {runId : String} {event shown : Event} (presents : presentEvent runId event = some shown) :
    shown.type = event.type ∧ event.type ≠ .runStarted := by
  cases event with
  | runStarted e => cases presents
  | _ =>
    cases presents
    exact ⟨rfl, EventType.noConfusion⟩

theorem noStart_present (runId : String) (events : List Event) :
    (events.filterMap (presentEvent runId)).countP (fun event => event.type = .runStarted) = 0 := by
  refine List.countP_eq_zero.mpr fun shown member => ?_
  rcases List.mem_filterMap.mp member with ⟨event, _, presents⟩
  have same := type_presentEvent presents
  simp [same.1, same.2]

/-! ## What is heard of a run -/

theorem hear_inside {observed : List EventWithState}
    (inside : ∀ one ∈ observed, isInside one.event = true) (state : StreamState)
    (idle : state.heldRunFinished = none) :
    observed.foldl StreamState.next state =
      { state with emitted := state.emitted ++ observed.map EventWithState.event } := by
  induction observed generalizing state with
  | nil => rw [List.map_nil, List.append_nil, List.foldl_nil]
  | cons one rest ih =>
    have first := (isInside_iff one.event).mp (inside one List.mem_cons_self)
    have heard : state.next one = { state with emitted := state.emitted ++ [one.event] } := by
      unfold StreamState.next
      rw [idle]
      cases event : one.event with
      | runStarted e =>
        rw [event] at first
        exact absurd rfl first.2
      | runFinished e | runError e =>
        rw [event] at first
        cases first.1
      | _ => simp [Event.type]
    have later := ih (List.forall_mem_cons.mp inside).2
      (state.next one) (by rw [heard]; exact idle)
    rw [List.foldl_cons, later, heard, List.map_cons, List.append_assoc]
    rfl

/-- Of a whole run everything is handed on at once but a `RUN_FINISHED` at its end. -/
theorem hear_whole {observed : List EventWithState} {start : RunStartedEvent} {inside ending : List Event}
    (insides : ∀ event ∈ inside, isInside event = true) (shape : Ending ending)
    (events : observed.map EventWithState.event = .runStarted start :: (inside ++ ending)) :
    (∃ held finish, ending = [.runFinished finish] ∧ held.event = .runFinished finish ∧
      observed.getLast? = some held ∧ observed.foldl StreamState.next {} =
        { heldRunFinished := some held, errored := false, emitted := .runStarted start :: inside }) ∨
    (∃ error, Event.runError error ∈ ending ∧
      observed.foldl StreamState.next {} =
        { heldRunFinished := none, errored := true, emitted := .runStarted start :: (inside ++ ending) }) := by
  rcases List.map_eq_cons_iff.mp events with ⟨first, others, rfl, started, rest⟩
  rcases List.map_eq_append_iff.mp rest with ⟨middle, last, rfl, within, ends⟩
  have middleInside : ∀ one ∈ middle, isInside one.event = true := by
    intro one member
    exact insides _ (within ▸ List.mem_map_of_mem member)
  have begun : StreamState.next {} first = { emitted := [.runStarted start] } := by
    unfold StreamState.next
    rw [started]
    simp [Event.type]
  have heard := hear_inside middleInside { emitted := [.runStarted start] } rfl
  rw [within] at heard
  simp only [List.foldl_cons, List.foldl_append, begun, heard]
  cases shape with
  | finished finish =>
    rcases List.map_eq_singleton_iff.mp ends with ⟨one, rfl, event⟩
    refine .inl ⟨one, finish, rfl, event, by rw [← List.cons_append, List.getLast?_concat], ?_⟩
    simp [StreamState.next, event, Event.type]
  | failed error =>
    rcases List.map_eq_singleton_iff.mp ends with ⟨one, rfl, event⟩
    refine .inr ⟨error, List.mem_singleton.mpr rfl, ?_⟩
    simp [StreamState.next, event, Event.type]
  | finishedThenFailed finish error =>
    rcases List.map_eq_cons_iff.mp ends with ⟨one, others, rfl, event, rest⟩
    rcases List.map_eq_singleton_iff.mp rest with ⟨two, rfl, second⟩
    refine .inr ⟨error, List.mem_cons_of_mem _ (List.mem_singleton.mpr rfl), ?_⟩
    simp [StreamState.next, event, second, Event.type]

variable {suppressed toolsMap world}

/-- Of a run of the agent, either it finished and is looked at, or it erred. -/
theorem processWith_cases (around : WholeRuns suppressed world.toWorld) (continuation : Continuation) (round : Nat)
    (input : RunInput) (agentMessages : List Message) :
    ∃ start inside, (∀ event ∈ inside, isInside event = true) ∧
      ((∃ held finish, held.event = .runFinished finish ∧
          (runNextWithState applyPatch suppressed input agentMessages (world.downstream round)).1.getLast? =
            some held ∧
          world.events suppressed round = .runStarted start :: (inside ++ [Event.runFinished finish]) ∧
          processWith applyPatch suppressed toolsMap world continuation round input agentMessages =
            .starts input :: ((Event.runStarted start :: inside).map .forwards ++
              onHeld toolsMap world continuation round input false held)) ∨
        (Errs suppressed world.toWorld round ∧
          processWith applyPatch suppressed toolsMap world continuation round input agentMessages =
            .starts input :: ((world.events suppressed round).map Action.forwards ++ [Action.completes]))) := by
  rcases (around.complete round).parts with ⟨start, inside, ending, events, insides, shape⟩
  have watched := runNextWithState_events applyPatch suppressed input agentMessages (world.downstream round)
  rcases around.expands round with ⟨final, expands⟩
  have done : (runNextWithState applyPatch suppressed input agentMessages (world.downstream round)).2 = .ok final :=
    expands
  refine ⟨start, inside, insides, ?_⟩
  rcases hear_whole insides shape (watched.trans events) with
    ⟨held, finish, rfl, event, last, heard⟩ | ⟨error, member, heard⟩
  · refine .inl ⟨held, finish, event, last, events, ?_⟩
    simp only [processWith, done, heard]
  · refine .inr ⟨⟨.runError error, ?_, rfl⟩, ?_⟩
    · rw [events]
      exact List.mem_cons_of_mem _ (List.mem_append_right _ member)
    · simp only [processWith, done, heard, events]

/-! ## What follows the calls that were found -/

/-- Results of all calls found, one each and in order, and then the held
`RUN_FINISHED` or another run of the agent that has the results in its input.
Only when no continuation is left does nothing follow but the error. -/
def Settles (calls : List ToolCall) (after : List Action) : Prop :=
  after = [.fails .continuationLimit] ∨
  ∃ results rest, after = results ++ rest ∧
    (∀ action ∈ results, action.isResult = true) ∧
    (results.filterMap Action.answer).map Prod.fst = calls.map ToolCall.id ∧
    ((∃ finish, rest = [.forwards (.runFinished finish), .completes]) ∨
      ∃ next more, rest = .starts next :: more ∧
        ∀ event, .answers event ∈ results -> resultMessage event ∈ next.messages)

theorem present_result (runId : String) {results : List Action}
    (isResult : ∀ action ∈ results, action.isResult = true) :
    results.filterMap (present runId) = results := by
  have same : ∀ action ∈ results, present runId action = some action := by
    intro action member
    have result := isResult action member
    cases action with
    | answers event | shows event => rfl
    | _ => cases result
  rw [List.filterMap_congr same, List.filterMap_some]

theorem settles_present {calls : List ToolCall} {after : List Action} (settles : Settles calls after)
    (runId : String) : Settles calls (after.filterMap (present runId)) := by
  rcases settles with rfl | ⟨results, rest, rfl, isResult, ids, follows⟩
  · exact .inl rfl
  · refine .inr ⟨results, rest.filterMap (present runId), ?_, isResult, ids, ?_⟩
    · rw [List.filterMap_append, present_result runId isResult]
    · rcases follows with ⟨finish, rfl⟩ | ⟨next, more, rfl, inHistory⟩
      · exact .inl ⟨{ finish with runId := runId }, rfl⟩
      · exact .inr ⟨next, more.filterMap (present runId), rfl, inHistory⟩

variable (toolsMap world)

/-- The results of the calls found at the end of a run. -/
def resultsOf (round : Nat) (calls : List ToolCall) : List Action :=
  (calls.mapIdx (settleCall toolsMap world round)).flatten

theorem isResult_resultsOf (round : Nat) (calls : List ToolCall) {action : Action}
    (member : action ∈ resultsOf toolsMap world round calls) : action.isResult = true := by
  rcases List.mem_flatten.mp member with ⟨settled, among, member⟩
  rcases List.mem_mapIdx.mp among with ⟨position, _, rfl⟩
  rcases List.mem_cons.mp member with rfl | member
  · rfl
  · rcases List.mem_map.mp member with ⟨_, _, rfl⟩
    rfl

theorem answer_answerCall (round position : Nat) (call : ToolCall) :
    (answerCall world round position call).toolCallId = call.id := by
  unfold answerCall
  dsimp only
  split <;> rfl

theorem answers_settleCall (round position : Nat) (call : ToolCall) :
    ((settleCall toolsMap world round position call).filterMap Action.answer).map Prod.fst = [call.id] := by
  have silent :
      ((showCall toolsMap world round position call).toList.map Action.shows).filterMap Action.answer = [] := by
    rw [List.filterMap_map]
    exact List.filterMap_eq_nil_iff.mpr fun _ _ => rfl
  have said : Action.answer (.answers (answerCall world round position call)) =
      some (call.id, (answerCall world round position call).content) := by
    rw [Action.answer, answer_answerCall]
  rw [settleCall, List.filterMap_cons_some said, silent, List.map_singleton]

/-- Every call found is answered once, in order. -/
theorem answers_resultsOf (round : Nat) (calls : List ToolCall) :
    ((resultsOf toolsMap world round calls).filterMap Action.answer).map Prod.fst = calls.map ToolCall.id := by
  have general : ∀ (calls : List ToolCall) (settle : Nat -> ToolCall -> List Action),
      (∀ position call, ((settle position call).filterMap Action.answer).map Prod.fst = [call.id]) ->
      ((calls.mapIdx settle).flatten.filterMap Action.answer).map Prod.fst = calls.map ToolCall.id := by
    intro calls
    induction calls with
    | nil => exact fun _ _ => rfl
    | cons call rest ih =>
      intro settle once
      rw [List.mapIdx_cons, List.flatten_cons, List.filterMap_append, List.map_append, once,
        ih (fun position => settle (position + 1)) fun position => once (position + 1)]
      rfl
  exact general calls _ fun position call => answers_settleCall toolsMap world round position call

/-- The results are in the history that a continuation starts from. -/
theorem inHistory_resultsOf {round : Nat} {calls : List ToolCall} {event : ToolCallResultEvent}
    (member : .answers event ∈ resultsOf toolsMap world round calls) :
    resultMessage event ∈ calls.mapIdx fun position call => resultMessage (answerCall world round position call) := by
  rcases List.mem_flatten.mp member with ⟨settled, among, member⟩
  rcases List.mem_mapIdx.mp among with ⟨position, bound, rfl⟩
  rcases List.mem_cons.mp member with same | member
  · cases same
    exact List.mem_mapIdx.mpr ⟨position, bound, rfl⟩
  · rcases List.mem_map.mp member with ⟨_, _, impossible⟩
    cases impossible

/-- What is done at the end of a run that finished: nothing, or the calls
found are settled, after which the run may be continued. -/
theorem onHeld_cases (continuation : Continuation) (round : Nat) (input : RunInput) {held : EventWithState}
    {finish : RunFinishedEvent} (event : held.event = .runFinished finish) :
    (outcomeStops (.runFinished finish) = true ∧
      onHeld toolsMap world continuation round input false held = [.forwards (.runFinished finish), .completes]) ∨
    (outcomeStops (.runFinished finish) = false ∧ ∃ calls after,
      onHeld toolsMap world continuation round input false held = .finds held.messages calls :: after ∧
      calls = pendingMCPToolCalls toolsMap held.messages ∧
      ((continuation = none ∧ after = [.fails .continuationLimit]) ∨
        ∃ results, (∀ action ∈ results, action.isResult = true) ∧
          (results.filterMap Action.answer).map Prod.fst = calls.map ToolCall.id ∧
          (after = results ++ [Action.forwards (.runFinished finish), Action.completes] ∨
            ∃ runAgain next, continuation = some runAgain ∧
              after = results ++ (runAgain next).filterMap (present input.runId) ∧
              ∀ event, .answers event ∈ results -> resultMessage event ∈ next.messages))) := by
  unfold onHeld
  rw [event, Bool.false_or]
  cases stops : outcomeStops (.runFinished finish) with
  | true => exact .inl ⟨rfl, by rw [if_pos rfl, flush, event]⟩
  | false =>
    refine .inr ⟨rfl, _, _, if_neg Bool.false_ne_true, rfl, ?_⟩
    split
    · rename_i limited
      rw [Bool.and_eq_true, Option.isNone_iff_eq_none] at limited
      exact .inl ⟨limited.1, rfl⟩
    · refine .inr ⟨resultsOf toolsMap world round _, fun action => isResult_resultsOf toolsMap world round _,
        answers_resultsOf toolsMap world round _, ?_⟩
      unfold afterResults
      cases continuation with
      | none => exact .inl (by rw [flush, event]; rfl)
      | some runAgain =>
        dsimp only
        split
        · refine .inr ⟨runAgain, _, rfl, rfl, fun answer member => ?_⟩
          exact List.mem_append_right _ (inHistory_resultsOf toolsMap world member)
        · exact .inl (by rw [flush, event]; rfl)

/-! ## The one run that is presented -/

/-- The run ends in neither an error, an interrupt nor a cancellation. -/
def Succeeds (suppressed : Bool) (world : World) (round : Nat) : Prop :=
  ∀ event ∈ world.events suppressed round, event.type ≠ .runError ∧ outcomeStops event = false

/-- Wherever calls are looked for, those found are settled. -/
def AllSettled (actions : List Action) : Prop :=
  ∀ messages calls after, (Action.finds messages calls :: after).IsSuffix actions ->
    calls = pendingMCPToolCalls toolsMap messages ∧ Settles calls after

/-- The searches before the first run, and each run with the searches after it. -/
def lookups : List Action -> List Action × List (RunInput × List Action)
  | [] => ([], [])
  | .starts input :: rest => ([], (input, (lookups rest).1) :: (lookups rest).2)
  | .finds messages calls :: rest => (.finds messages calls :: (lookups rest).1, (lookups rest).2)
  | _ :: rest => lookups rest

theorem lookups_append {before : List Action} (after : List Action)
    (apart : ∀ action ∈ before, action.isStart = false ∧ action.isSearch = false) :
    lookups (before ++ after) = lookups after := by
  induction before with
  | nil => rfl
  | cons action rest ih =>
    have later := ih (List.forall_mem_cons.mp apart).2
    have first := apart action List.mem_cons_self
    cases action with
    | starts input => cases first.1
    | finds messages calls => cases first.2
    | _ => exact later

theorem lookups_forwards (events : List Event) (after : List Action) :
    lookups (events.map .forwards ++ after) = lookups after := by
  refine lookups_append after fun action member => ?_
  rcases List.mem_map.mp member with ⟨event, _, rfl⟩
  exact ⟨rfl, rfl⟩

theorem lookups_present (runId : String) (actions : List Action) :
    lookups (actions.filterMap (present runId)) = lookups actions := by
  induction actions with
  | nil => rfl
  | cons action rest ih =>
    cases action with
    | forwards event =>
      cases shown : presentEvent runId event with
      | none =>
        rw [List.filterMap_cons_none (by simp [present, shown])]
        exact ih
      | some other =>
        rw [List.filterMap_cons_some (by simp only [present, shown]; rfl)]
        exact ih
    | starts input =>
      change ([], (input, (lookups (rest.filterMap (present runId))).1) ::
        (lookups (rest.filterMap (present runId))).2) = _
      rw [ih]
      rfl
    | finds messages calls =>
      change (.finds messages calls :: (lookups (rest.filterMap (present runId))).1,
        (lookups (rest.filterMap (present runId))).2) = _
      rw [ih]
      rfl
    | _ => exact ih

variable (suppressed)

/-- After a run that succeeds the calls of MCP tools are looked for that are
pending in what the reducer has come to; after another run nothing is. -/
structure Looks (round : Nat) (input : RunInput) (agentMessages : List Message) (searches : List Action) : Prop where
  whenever : Succeeds suppressed world.toWorld round -> ∃ held,
    (runNextWithState applyPatch suppressed input agentMessages (world.downstream round)).1.getLast? = some held ∧
    searches = [.finds held.messages (pendingMCPToolCalls toolsMap held.messages)]
  only : ¬ Succeeds suppressed world.toWorld round -> searches = []

/-- What is presented of the run numbered `round` and the continuations after
it, of which there may be `budget`. -/
structure Processed (budget round : Nat) (input : RunInput) (agentMessages : List Message) (actions : List Action) :
    Prop where
  begins : ∃ rest, actions = .starts input :: rest
  oneStart : (output actions).countP (fun event => event.type = .runStarted) = 1
  bounded : runs actions ≤ budget + 1
  finishes : actions.countP Action.isFailure = 0 ->
    (∀ later, round ≤ later -> later < round + runs actions -> ¬ Errs suppressed world.toWorld later) ->
    ∃ before finish, output actions = before ++ [Event.runFinished finish] ∧
      (∀ event ∈ before, event.type ≠ .runFinished) ∧
      (1 < runs actions -> finish.runId = input.runId) ∧
      (runs actions = 1 -> .runFinished finish ∈ world.events suppressed round)
  settled : AllSettled toolsMap actions
  looks : ∀ index next searches, (lookups actions).2[index]? = some (next, searches) ->
    Looks applyPatch suppressed toolsMap world (round + index) next (if index = 0 then agentMessages else next.messages)
      searches
  limited : actions.countP Action.isFailure ≠ 0 -> runs actions = budget + 1

/-- The same of what follows the events inside the run, which itself ended in `finish`. -/
structure Concluded (budget round : Nat) (input : RunInput) (held : EventWithState) (finish : RunFinishedEvent)
    (tail : List Action) : Prop where
  noStart : (output tail).countP (fun event => event.type = .runStarted) = 0
  bounded : runs tail ≤ budget
  finishes : tail.countP Action.isFailure = 0 ->
    (∀ later, round < later -> later ≤ round + runs tail -> ¬ Errs suppressed world.toWorld later) ->
    ∃ before last, output tail = before ++ [Event.runFinished last] ∧
      (∀ event ∈ before, event.type ≠ .runFinished) ∧
      (0 < runs tail -> last.runId = input.runId) ∧ (runs tail = 0 -> last = finish)
  settled : AllSettled toolsMap tail
  own : (lookups tail).1 = if outcomeStops (.runFinished finish) then []
    else [.finds held.messages (pendingMCPToolCalls toolsMap held.messages)]
  looks : ∀ index next searches, (lookups tail).2[index]? = some (next, searches) ->
    Looks applyPatch suppressed toolsMap world (round + 1 + index) next next.messages searches
  limited : tail.countP Action.isFailure ≠ 0 -> runs tail = budget

section Lists

variable {actions before after : List Action} {messages : List Message} {calls : List ToolCall}

theorem allSettled_of_noSearch (none_found : ∀ action ∈ actions, action.isSearch = false) :
    AllSettled toolsMap actions := by
  intro messages calls after suffix
  have found := none_found _ (suffix.subset List.mem_cons_self)
  cases found

theorem allSettled_append (none_found : ∀ action ∈ before, action.isSearch = false)
    (settled : AllSettled toolsMap after) : AllSettled toolsMap (before ++ after) := by
  induction before with
  | nil => exact settled
  | cons action rest ih =>
    intro messages calls later suffix
    rcases List.suffix_cons_iff.mp suffix with same | inner
    · have found := none_found action List.mem_cons_self
      cases same
      cases found
    · exact ih (List.forall_mem_cons.mp none_found).2
        messages calls later inner

theorem allSettled_finds (found : calls = pendingMCPToolCalls toolsMap messages) (settles : Settles calls after)
    (settled : AllSettled toolsMap after) : AllSettled toolsMap (.finds messages calls :: after) := by
  intro others wanted later suffix
  rcases List.suffix_cons_iff.mp suffix with same | inner
  · cases same
    exact ⟨found, settles⟩
  · exact settled others wanted later inner

/-- What is found in a presented continuation was found in the continuation. -/
theorem exists_suffix_of_present {runId : String}
    (suffix : (Action.finds messages calls :: after).IsSuffix (actions.filterMap (present runId))) :
    ∃ later, (Action.finds messages calls :: later).IsSuffix actions ∧
      after = later.filterMap (present runId) := by
  induction actions with
  | nil =>
    have member := suffix.subset List.mem_cons_self
    cases member
  | cons action rest ih =>
    have further : (Action.finds messages calls :: after).IsSuffix (rest.filterMap (present runId)) ->
        ∃ later, (Action.finds messages calls :: later).IsSuffix (action :: rest) ∧
          after = later.filterMap (present runId) := by
      intro inner
      rcases ih inner with ⟨later, within, same⟩
      exact ⟨later, within.trans (List.suffix_cons action rest), same⟩
    cases shown : present runId action with
    | none =>
      rw [List.filterMap_cons_none shown] at suffix
      exact further suffix
    | some presented =>
      rw [List.filterMap_cons_some shown] at suffix
      rcases List.suffix_cons_iff.mp suffix with same | inner
      · cases same
        cases action with
        | finds others wanted =>
          cases shown
          exact ⟨rest, List.suffix_refl _, rfl⟩
        | forwards event => cases known : presentEvent runId event <;> simp [present, known] at shown
        | _ => cases shown
      · exact further inner

theorem allSettled_present (settled : AllSettled toolsMap actions) (runId : String) :
    AllSettled toolsMap (actions.filterMap (present runId)) := by
  intro messages calls after suffix
  rcases exists_suffix_of_present suffix with ⟨later, within, rfl⟩
  have known := settled messages calls later within
  exact ⟨known.1, settles_present known.2 runId⟩

end Lists

section Tails

variable {applyPatch suppressed toolsMap world} {budget round : Nat} {input : RunInput} {finish : RunFinishedEvent}
  {held : EventWithState} {calls : List ToolCall} {results : List Action}

theorem countP_results (isResult : ∀ action ∈ results, action.isResult = true)
    {counts : Action -> Bool} (apart : ∀ action, action.isResult = true -> counts action = false) :
    results.countP counts = 0 := by
  refine List.countP_eq_zero.mpr fun action member counted => ?_
  rw [apart action (isResult action member)] at counted
  cases counted

theorem not_start_of_result {action : Action} (isResult : action.isResult = true) : action.isStart = false := by
  cases action with
  | answers event | shows event => rfl
  | _ => cases isResult

theorem not_failure_of_result {action : Action} (isResult : action.isResult = true) : action.isFailure = false := by
  cases action with
  | answers event | shows event => rfl
  | _ => cases isResult

theorem not_search_of_result {action : Action} (isResult : action.isResult = true) : action.isSearch = false := by
  cases action with
  | answers event | shows event => rfl
  | _ => cases isResult

theorem type_of_result (isResult : ∀ action ∈ results, action.isResult = true) {event : Event}
    (member : event ∈ output results) : event.type ≠ .runStarted ∧ event.type ≠ .runFinished := by
  rcases List.mem_filterMap.mp member with ⟨action, among, emitted⟩
  have result := isResult action among
  cases action with
  | answers answer | shows shown =>
    cases emitted
    exact ⟨EventType.noConfusion, EventType.noConfusion⟩
  | _ => cases result

/-- A run that was interrupted or cancelled is left as it is. -/
theorem concluded_stopped (stops : outcomeStops (.runFinished finish) = true) :
    Concluded applyPatch suppressed toolsMap world budget round input held finish
      [.forwards (.runFinished finish), .completes] where
  noStart := rfl
  bounded := Nat.zero_le _
  finishes := fun _ _ => ⟨[], finish, rfl, fun _ impossible => absurd impossible List.not_mem_nil,
    fun impossible => absurd impossible (Nat.lt_irrefl 0), fun _ => rfl⟩
  settled := allSettled_of_noSearch toolsMap (by simp [Action.isSearch])
  own := by
    rw [stops]
    rfl
  looks := fun _ _ _ none => nomatch none
  limited := fun impossible => absurd rfl impossible

/-- Calls are found and no continuation is left. -/
theorem concluded_limited (succeeds : outcomeStops (.runFinished finish) = false)
    (found : calls = pendingMCPToolCalls toolsMap held.messages) :
    Concluded applyPatch suppressed toolsMap world 0 round input held finish
      (.finds held.messages calls :: [.fails .continuationLimit]) where
  noStart := rfl
  bounded := Nat.le_refl 0
  finishes := by
    intro impossible
    cases impossible
  settled := allSettled_finds toolsMap found (.inl rfl)
    (allSettled_of_noSearch toolsMap (by simp [Action.isSearch]))
  own := by
    rw [succeeds, found]
    rfl
  looks := fun _ _ _ none => nomatch none
  limited := fun _ => rfl

theorem output_found {messages : List Message} (after : List Action) :
    output (.finds messages calls :: (results ++ after)) = output results ++ output after := by
  rw [output, List.filterMap_cons_none rfl, ← output, output_append]

section Results

variable (isResult : ∀ action ∈ results, action.isResult = true)
  (ids : (results.filterMap Action.answer).map Prod.fst = calls.map ToolCall.id)
  (found : calls = pendingMCPToolCalls toolsMap held.messages) (succeeds : outcomeStops (.runFinished finish) = false)
include isResult

theorem countP_found {counts : Action -> Bool} (apart : ∀ action, action.isResult = true -> counts action = false)
    (after : List Action) : (results ++ after).countP counts = after.countP counts := by
  rw [List.countP_append, countP_results isResult apart, Nat.zero_add]

theorem runs_found {messages : List Message} (after : List Action) :
    runs (.finds messages calls :: (results ++ after)) = runs after := by
  rw [runs, List.countP_cons_of_neg Bool.false_ne_true, countP_found isResult fun _ => not_start_of_result]
  rfl

theorem noStart_results : (output results).countP (fun event => event.type = .runStarted) = 0 :=
  List.countP_eq_zero.mpr fun event member => by simpa using (type_of_result isResult member).1

theorem lookups_found (after : List Action) : lookups (.finds held.messages calls :: (results ++ after)) =
    (.finds held.messages calls :: (lookups after).1, (lookups after).2) := by
  rw [lookups, lookups_append after fun action member =>
    ⟨not_start_of_result (isResult action member), not_search_of_result (isResult action member)⟩]

include ids found succeeds

/-- The calls found are settled and the run ends as the agent ended it. -/
theorem concluded_flushed :
    Concluded applyPatch suppressed toolsMap world budget round input held finish
      (.finds held.messages calls :: (results ++ [Action.forwards (.runFinished finish), Action.completes])) where
  noStart := by
    rw [output_found, List.countP_append, noStart_results isResult]
    rfl
  bounded := by
    rw [runs_found isResult]
    exact Nat.zero_le _
  finishes := by
    intro _ _
    refine ⟨output results, finish, by rw [output_found]; rfl, fun event member =>
      (type_of_result isResult member).2, ?_, fun _ => rfl⟩
    rw [runs_found isResult]
    exact fun impossible => absurd impossible (Nat.lt_irrefl 0)
  settled := by
    refine allSettled_finds toolsMap found (.inr ⟨results, _, rfl, isResult, ids, .inl ⟨finish, rfl⟩⟩) ?_
    refine allSettled_append toolsMap (fun action member => not_search_of_result (isResult action member)) ?_
    exact allSettled_of_noSearch toolsMap (by simp [Action.isSearch])
  own := by
    rw [lookups_found isResult, succeeds, found]
    rfl
  looks := by
    rw [lookups_found isResult]
    exact fun _ _ _ none => nomatch none
  limited := by
    rw [List.countP_cons_of_neg Bool.false_ne_true, countP_found isResult fun _ => not_failure_of_result]
    exact fun impossible => absurd rfl impossible

/-- The calls found are settled and the run is continued by another. -/
theorem concluded_continued {left : Nat} {next : RunInput} {inner : List Action}
    (inHistory : ∀ event, .answers event ∈ results -> resultMessage event ∈ next.messages)
    (processed : Processed applyPatch suppressed toolsMap world left (round + 1) next next.messages inner) :
    Concluded applyPatch suppressed toolsMap world (left + 1) round input held finish
      (.finds held.messages calls :: (results ++ inner.filterMap (present input.runId))) := by
  have ran : runs (.finds held.messages calls :: (results ++ inner.filterMap (present input.runId))) = runs inner := by
    rw [runs_found isResult, runs, countP_present fun _ => rfl]
    rfl
  have failed : (Action.finds held.messages calls :: (results ++ inner.filterMap (present input.runId))).countP
      Action.isFailure = inner.countP Action.isFailure := by
    rw [List.countP_cons_of_neg Bool.false_ne_true, countP_found isResult fun _ => not_failure_of_result,
      countP_present fun _ => rfl]
  have begun : 0 < runs inner := by
    rcases processed.begins with ⟨rest, rfl⟩
    rw [runs_starts]
    exact Nat.succ_pos _
  refine ⟨?_, ?_, ?_, ?_, ?_, ?_, ?_⟩
  · rw [output_found, List.countP_append, noStart_results isResult, output_present, noStart_present]
  · rw [ran]
    exact processed.bounded
  · rw [failed, ran]
    intro fine none_errs
    rcases processed.finishes fine (fun later after before => none_errs later after (by omega)) with
      ⟨before, last, shown, others, _, _⟩
    refine ⟨output results ++ before.filterMap (presentEvent input.runId), { last with runId := input.runId }, ?_, ?_,
      fun _ => rfl, fun none => absurd none (Nat.ne_of_gt begun)⟩
    · rw [output_found, output_present, shown, List.filterMap_append, List.append_assoc]
      rfl
    · intro event member
      rcases List.mem_append.mp member with member | member
      · exact (type_of_result isResult member).2
      · rcases List.mem_filterMap.mp member with ⟨original, among, presents⟩
        rw [(type_presentEvent presents).1]
        exact others original among
  · refine allSettled_finds toolsMap found ?_ ?_
    · rcases processed.begins with ⟨rest, rfl⟩
      exact .inr ⟨results, _, rfl, isResult, ids, .inr ⟨next, rest.filterMap (present input.runId), rfl, inHistory⟩⟩
    · exact allSettled_append toolsMap (fun action member => not_search_of_result (isResult action member))
        (allSettled_present toolsMap processed.settled input.runId)
  · rcases processed.begins with ⟨rest, rfl⟩
    rw [lookups_found isResult, lookups_present, succeeds, found]
    rfl
  · rw [lookups_found isResult, lookups_present]
    intro index other searches listed
    have looks := processed.looks index other searches listed
    rcases processed.begins with ⟨rest, rfl⟩
    cases index with
    | zero =>
      cases listed
      exact looks
    | succ index => exact looks
  · rw [failed, ran]
    exact processed.limited

end Results

end Tails

section Steps

variable {suppressed toolsMap world} {budget round : Nat} {input : RunInput} {start : RunStartedEvent}
  {inside : List Event}

theorem output_run (events : List Event) (tail : List Action) :
    output (.starts input :: (events.map .forwards ++ tail)) = events ++ output tail := by
  rw [output_starts, output_append, output_forwards]

theorem runs_run (events : List Event) (tail : List Action) :
    runs (.starts input :: (events.map .forwards ++ tail)) = runs tail + 1 := by
  rw [runs_starts, runs_append, runs_forwards, Nat.zero_add]

theorem countP_run {counts : Action -> Bool} (notStart : counts (.starts input) = false)
    (notForwarded : ∀ event, counts (.forwards event) = false) (events : List Event) (tail : List Action) :
    (Action.starts input :: (events.map .forwards ++ tail)).countP counts = tail.countP counts := by
  rw [List.countP_cons_of_neg (by rw [notStart]; exact Bool.false_ne_true), List.countP_append, List.countP_map]
  have none_counted : events.countP (counts ∘ .forwards) = 0 :=
    List.countP_eq_zero.mpr fun event _ => by simp [notForwarded]
  rw [none_counted, Nat.zero_add]

theorem allSettled_run (events : List Event) {tail : List Action} (settled : AllSettled toolsMap tail) :
    AllSettled toolsMap (.starts input :: (events.map .forwards ++ tail)) := by
  rw [← List.singleton_append, ← List.append_assoc]
  refine allSettled_append toolsMap (fun action member => ?_) settled
  rcases List.mem_append.mp member with member | member
  · rw [List.mem_singleton.mp member]
    rfl
  · rcases List.mem_map.mp member with ⟨_, _, rfl⟩
    rfl

theorem oneStart_cons {rest : List Event}
    (noStart : rest.countP (fun event => event.type = .runStarted) = 0) :
    (Event.runStarted start :: rest).countP (fun event => event.type = .runStarted) = 1 := by
  rw [List.countP_cons_of_pos (by simp [Event.type]), noStart]

theorem noStart_inside (insides : ∀ event ∈ inside, isInside event = true) :
    inside.countP (fun event => event.type = .runStarted) = 0 :=
  List.countP_eq_zero.mpr fun event member => by simpa using ((isInside_iff event).mp (insides event member)).2

/-- A run succeeds by the outcome it finishes with. -/
theorem succeeds_iff {finish : RunFinishedEvent} (insides : ∀ event ∈ inside, isInside event = true)
    (events : world.events suppressed round = .runStarted start :: (inside ++ [Event.runFinished finish])) :
    Succeeds suppressed world.toWorld round ↔ outcomeStops (.runFinished finish) = false := by
  unfold Succeeds
  rw [events, List.forall_mem_cons, List.forall_mem_append, List.forall_mem_singleton]
  have within : ∀ event ∈ inside, event.type ≠ .runError ∧ outcomeStops event = false := by
    intro event member
    have inner := ((isInside_iff event).mp (insides event member)).1
    cases event with
    | runFinished e | runError e => cases inner
    | _ => exact ⟨EventType.noConfusion, rfl⟩
  exact ⟨fun all => all.2.2.2, fun going =>
    ⟨⟨EventType.noConfusion, rfl⟩, within, EventType.noConfusion, going⟩⟩

/-- A run of the agent that finished, and what was concluded from it. -/
theorem processed_of_concluded {agentMessages : List Message} {held : EventWithState} {finish : RunFinishedEvent}
    {tail : List Action}
    (insides : ∀ event ∈ inside, isInside event = true)
    (events : world.events suppressed round = .runStarted start :: (inside ++ [Event.runFinished finish]))
    (last : (runNextWithState applyPatch suppressed input agentMessages (world.downstream round)).1.getLast? =
      some held)
    (concluded : Concluded applyPatch suppressed toolsMap world budget round input held finish tail) :
    Processed applyPatch suppressed toolsMap world budget round input agentMessages
      (.starts input :: ((Event.runStarted start :: inside).map .forwards ++ tail)) where
  begins := ⟨_, rfl⟩
  oneStart := by
    rw [output_run, List.cons_append]
    refine oneStart_cons ?_
    rw [List.countP_append, noStart_inside insides, concluded.noStart]
  bounded := by
    rw [runs_run]
    exact Nat.succ_le_succ concluded.bounded
  finishes := by
    rw [countP_run rfl fun _ => rfl, runs_run, output_run]
    intro fine none_errs
    rcases concluded.finishes fine fun later after before => none_errs later (by omega) (by omega) with
      ⟨before, last, shown, others, continued, alone⟩
    refine ⟨.runStarted start :: inside ++ before, last, by rw [shown, List.append_assoc], ?_,
      fun more => continued (by omega), fun one => ?_⟩
    · intro event member
      rcases List.mem_append.mp member with member | member
      · rcases List.mem_cons.mp member with rfl | member
        · exact EventType.noConfusion
        · have within := ((isInside_iff event).mp (insides event member)).1
          intro finished
          cases event with
          | runFinished e => cases within
          | _ => cases finished
      · exact others event member
    · rw [events, alone (by omega)]
      exact List.mem_cons_of_mem _ (List.mem_append_right _ (List.mem_singleton.mpr rfl))
  settled := allSettled_run _ concluded.settled
  looks := by
    rw [lookups, lookups_forwards]
    intro index next searches listed
    cases index with
    | zero =>
      cases listed
      rw [concluded.own]
      constructor
      · intro succeeds
        rw [(succeeds_iff insides events).mp succeeds]
        exact ⟨held, last, rfl⟩
      · intro fails
        rw [if_pos (Decidable.of_not_not fun going => fails ((succeeds_iff insides events).mpr
          (Bool.eq_false_iff.mpr going)))]
    | succ index =>
      rw [if_neg (Nat.succ_ne_zero index), Nat.add_comm index, ← Nat.add_assoc]
      exact concluded.looks index next searches listed
  limited := by
    rw [countP_run rfl fun _ => rfl, runs_run]
    exact fun failed => congrArg (· + 1) (concluded.limited failed)

/-- A run of the agent that erred is handed on as it is. -/
theorem processed_errored {agentMessages : List Message} (errs : Errs suppressed world.toWorld round)
    (whole : CompleteRun (world.events suppressed round)) :
    Processed applyPatch suppressed toolsMap world budget round input agentMessages
      (.starts input :: ((world.events suppressed round).map Action.forwards ++ [Action.completes])) where
  begins := ⟨_, rfl⟩
  oneStart := by
    rcases whole.started with ⟨start, rest, events, noStart⟩
    rw [output_run, events, List.cons_append]
    refine oneStart_cons (List.countP_eq_zero.mpr fun event member => ?_)
    have among : event ∈ rest := by simpa [output, Action.emitted] using member
    simpa using noStart event among
  bounded := by
    rw [runs_run]
    exact Nat.le_add_left _ _
  finishes := by
    rw [runs_run]
    exact fun _ none_errs => absurd errs (none_errs round (Nat.le_refl _) (by omega))
  settled := allSettled_run _ (allSettled_of_noSearch toolsMap (by simp [Action.isSearch]))
  looks := by
    rw [lookups, lookups_forwards]
    intro index next searches listed
    cases index with
    | zero =>
      cases listed
      rcases errs with ⟨event, member, error⟩
      exact ⟨fun succeeds => absurd error (succeeds event member).1, fun _ => rfl⟩
    | succ index => cases listed
  limited := by
    rw [countP_run rfl fun _ => rfl]
    exact fun impossible => absurd rfl impossible

variable (around : WholeRuns suppressed world.toWorld)
include around

/-- One run and, through it, the runs that continue it. -/
theorem processed_processWith {continuation : Continuation} (agentMessages : List Message)
    (spent : continuation = none -> budget = 0)
    (again : ∀ runAgain, continuation = some runAgain -> ∃ left, budget = left + 1 ∧
      ∀ next, Processed applyPatch suppressed toolsMap world left (round + 1) next next.messages (runAgain next)) :
    Processed applyPatch suppressed toolsMap world budget round input agentMessages
      (processWith applyPatch suppressed toolsMap world continuation round input agentMessages) := by
  rcases processWith_cases applyPatch around continuation round input agentMessages with
    ⟨start, inside, insides, ⟨held, finish, event, last, events, same⟩ | ⟨errs, same⟩⟩
  · rw [same]
    refine processed_of_concluded applyPatch insides events last ?_
    rcases onHeld_cases toolsMap world continuation round input event with
      ⟨stops, same⟩ | ⟨succeeds, calls, after, same, found, ⟨none_left, rfl⟩ | ⟨results, isResult, ids, settled⟩⟩
    · rw [same]
      exact concluded_stopped stops
    · rw [same, spent none_left]
      exact concluded_limited succeeds found
    · rw [same]
      rcases settled with rfl | ⟨runAgain, next, given, rfl, inHistory⟩
      · exact concluded_flushed isResult ids found succeeds
      · rcases again runAgain given with ⟨left, rfl, processed⟩
        exact concluded_continued isResult ids found succeeds inHistory (processed next)
  · rw [same]
    exact processed_errored applyPatch errs (around.complete round)

theorem processed_processStream (remaining : Nat) (agentMessages : List Message) :
    Processed applyPatch suppressed toolsMap world remaining round input agentMessages
      (processStream applyPatch suppressed toolsMap world remaining round input agentMessages) := by
  induction remaining generalizing round input agentMessages with
  | zero =>
    refine processed_processWith applyPatch around agentMessages (fun _ => rfl) fun runAgain impossible => ?_
    cases impossible
  | succ remaining ih =>
    refine processed_processWith applyPatch around agentMessages (fun impossible => ?_) fun runAgain given => ?_
    · cases impossible
    · cases given
      exact ⟨remaining, rfl, fun next => ih next.messages⟩

end Steps

/-- `lookup` is a supporting tool, and `chart` has a UI. -/
def twoTools (name : String) : Option MCPToolInfo :=
  if name = "lookup" then some { serverHash := "h" }
  else if name = "chart" then some { serverHash := "h", resourceUri := some "ui://chart" }
  else none

/-- A first run that calls `tool` and ends with `outcome`. -/
def callOf (tool : String) (outcome : Option RunFinishedOutcome) : List Event :=
  [.runStarted { threadId := "t", runId := "q" },
   .toolCallStart { toolCallId := "c", toolCallName := tool },
   .toolCallEnd { toolCallId := "c" },
   .runFinished { threadId := "t", runId := "q", outcome := outcome }]

def emptyRun : List Event :=
  [.runStarted { threadId := "t", runId := "p" }, .runFinished { threadId := "t", runId := "p" }]

def callOnce (tool : String) (outcome : Option RunFinishedOutcome) : AppsWorld where
  downstream
    | 0 => callOf tool outcome
    | _ => emptyRun
  nextMessages _ := []
  randomUUID _ _ := "uuid"
  parseArguments _ := .ok (.object [])
  executeToolCall _ _ _ _ := .ok (.object [("content", .array [])])
  stringify _ := "[]"

def runOf (tool : String) (outcome : Option RunFinishedOutcome) : List Action :=
  run (fun _ _ => none) false twoTools (callOnce tool outcome) { runId := "r" }

theorem complete_emptyRun : CompleteRun emptyRun :=
  ⟨by decide, ⟨_, _, rfl, by decide⟩, ⟨_, rfl, rfl⟩⟩

theorem wholeRuns_callOnce {tool : String} {outcome : Option RunFinishedOutcome}
    (first : CompleteRun (callOf tool outcome)) : WholeRuns false (callOnce tool outcome).toWorld where
  expands
    | 0 => ⟨{}, rfl⟩
    | _ + 1 => ⟨{}, rfl⟩
  complete
    | 0 => first
    | _ + 1 => complete_emptyRun

/-- The run id a stream of events closes with. -/
def finalRunId (events : List Event) : Option String :=
  match events.getLast? with
  | some (.runFinished finish) => some finish.runId
  | _ => none

end McpApps
end Middleware
end AgUi
