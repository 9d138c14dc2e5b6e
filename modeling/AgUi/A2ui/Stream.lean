import AgUi.A2ui.Recovery

namespace AgUi
namespace A2ui

open Library Protocol Chunks Apply Middleware

/-!
# The stream of a turn

`processStream` hands on what the agent emits and shows surfaces in between.
It holds a `RUN_FINISHED` back until another event follows or the stream ends.
A stream that ends in the held `RUN_FINISHED` first gets a result for every
rendering call that is still pending.
-/

section Stream

variable (reading : Reading) (config : A2UIMiddlewareConfig) (frontendCatalogId : Option String) (catalog : Option Json)
  (randomUUID : Nat -> String)

/-- What the middleware keeps while it reads the stream of a run. -/
structure StreamState where
  heldRunFinished : Option EventWithState := none
  surfaces : SurfaceState := {}

def shows (surfaces : List Surface) : List Action :=
  surfaces.map fun surface => .shows surface.event

def flush (held : Option EventWithState) : List Action :=
  held.toList.map fun held => .forwards held.event

/-- What is shown before an event is handed on. -/
def showBefore (state : SurfaceState) : Event -> Showing
  | .toolCallStart event => onToolCallStart config state event
  | .toolCallArgs event => onToolCallArgs reading config frontendCatalogId catalog state event
  | _ => (state, [])

/-- What is shown after an event is handed on. -/
def showAfter (state : SurfaceState) : Event -> Showing
  | .toolCallResult event => onToolCallResult reading config state event
  | _ => (state, [])

/-- The handler of an event.  A held `RUN_FINISHED` goes first. -/
def onNext (state : StreamState) (observed : EventWithState) : StreamState × List Action :=
  let shown := showBefore reading config frontendCatalogId catalog state.surfaces observed.event
  let flushed := shows shown.2 ++ flush state.heldRunFinished
  match observed.event with
  | .runFinished _ => ({ heldRunFinished := some observed, surfaces := shown.1 }, flushed)
  | event =>
    let detected := showAfter reading config shown.1 event
    ({ heldRunFinished := none, surfaces := detected.1 }, flushed ++ Action.forwards event :: shows detected.2)

/-- Every event with the messages that were held when it came. -/
def hear (state : StreamState) : List EventWithState -> StreamState × List Action
  | [] => (state, [])
  | observed :: rest =>
    let step := onNext reading config frontendCatalogId catalog state observed
    let later := hear step.1 rest
    (later.1, step.2 ++ later.2)

/-- The result of one pending call, and its failure if it was not rendered. -/
def settleCall (state : SurfaceState) (position : Nat) (call : ToolCall) : List Action :=
  .answers (pendingResult reading catalog state (randomUUID position) call) ::
    shows (pendingFailure reading config catalog state call)

/-- At the end of the stream the renderings still unanswered are answered, each by what it came to show. -/
def settle (state : SurfaceState) (messages : List Message) : List Action :=
  ((pendingRenderCalls config.getA2UIToolNames messages).mapIdx
    (settleCall reading config catalog randomUUID state)).flatten

/-- The handlers of an error and of completion. -/
def onEnd (state : StreamState) : Except ChunkError TransformState -> List Action
  | .error error => flush state.heldRunFinished ++ [Action.fails (.chunk error)]
  | .ok _ =>
    match state.heldRunFinished with
    | none => [.completes]
    | some held =>
      settle reading config catalog randomUUID state.surfaces held.messages ++
        [Action.forwards held.event, Action.completes]

/-- The stream of one run: what is heard of it, and what its end adds. -/
def processStream (source : List EventWithState × Except ChunkError TransformState) : List Action :=
  let heard := hear reading config frontendCatalogId catalog {} source.1
  heard.2 ++ onEnd reading config catalog randomUUID heard.1 source.2

end Stream

/-! ## What is handed on -/

/-- The output without the events the middleware made. -/
def handedOn (actions : List Action) : List Event :=
  output (actions.filter fun action => !action.isResult)

theorem handedOn_append (first second : List Action) :
    handedOn (first ++ second) = handedOn first ++ handedOn second := by
  rw [handedOn, List.filter_append, output_append]
  rfl

theorem handedOn_results {actions : List Action}
    (results : ∀ action ∈ actions, action.isResult = true) : handedOn actions = [] := by
  have nothing : actions.filter (fun action => !action.isResult) = [] := by
    rw [List.filter_eq_nil_iff]
    intro action member
    rw [results action member]
    exact Bool.false_ne_true
  rw [handedOn, nothing]
  rfl

theorem isResult_shows {surfaces : List Surface} {action : Action} (member : action ∈ shows surfaces) :
    action.isResult = true := by
  rcases List.mem_map.mp member with ⟨surface, _, rfl⟩
  rfl

theorem handedOn_shows (surfaces : List Surface) : handedOn (shows surfaces) = [] :=
  handedOn_results fun _ => isResult_shows

theorem handedOn_flush (held : Option EventWithState) :
    handedOn (flush held) = held.toList.map EventWithState.event := by
  cases held <;> rfl

theorem handedOn_forwards (event : Event) (actions : List Action) :
    handedOn (.forwards event :: actions) = event :: handedOn actions := rfl

/-- The answers among some actions. -/
def answersOf (actions : List Action) : List String :=
  (actions.filterMap Action.answer).map Prod.fst

theorem answersOf_append (first second : List Action) :
    answersOf (first ++ second) = answersOf first ++ answersOf second := by
  rw [answersOf, List.filterMap_append, List.map_append]
  rfl

theorem answersOf_shows (surfaces : List Surface) : answersOf (shows surfaces) = [] := by
  rw [answersOf, shows, List.filterMap_map, List.map_eq_nil_iff]
  exact List.filterMap_eq_nil_iff.mpr fun _ _ => rfl

theorem answersOf_flush (held : Option EventWithState) : answersOf (flush held) = [] := by
  cases held <;> rfl

theorem answersOf_forwards (event : Event) (actions : List Action) :
    answersOf (.forwards event :: actions) = answersOf actions := rfl

section Stream

variable {reading : Reading} {config : A2UIMiddlewareConfig} {frontendCatalogId : Option String} {catalog : Option Json}
  {randomUUID : Nat -> String}

variable (state : StreamState)

/-- An event is handed on at once or held, after what was held. -/
theorem onNext_hands (observed : EventWithState) :
    handedOn (onNext reading config frontendCatalogId catalog state observed).2 ++
        (onNext reading config frontendCatalogId catalog state observed).1.heldRunFinished.toList.map
          EventWithState.event =
      state.heldRunFinished.toList.map EventWithState.event ++ [observed.event] := by
  unfold onNext
  dsimp only
  cases event : observed.event with
  | runFinished finish =>
    simp only [handedOn_append, handedOn_shows, handedOn_flush, List.nil_append, Option.toList_some, List.map_cons,
      event, List.map_nil]
  | _ =>
    simp only [handedOn_append, handedOn_shows, handedOn_flush, handedOn_forwards, List.nil_append,
      Option.toList_none, List.map_nil, List.append_nil]

theorem hear_hands (observed : List EventWithState) :
    handedOn (hear reading config frontendCatalogId catalog state observed).2 ++
        (hear reading config frontendCatalogId catalog state observed).1.heldRunFinished.toList.map
          EventWithState.event =
      state.heldRunFinished.toList.map EventWithState.event ++ observed.map EventWithState.event := by
  induction observed generalizing state with
  | nil => simp [hear, handedOn, output]
  | cons one rest ih =>
    rw [hear]
    dsimp only
    rw [handedOn_append, List.append_assoc, ih, ← List.append_assoc, onNext_hands,
      List.append_assoc, List.map_cons, List.singleton_append]

/-- Nothing is answered before the end. -/
theorem onNext_silent (observed : EventWithState) :
    answersOf (onNext reading config frontendCatalogId catalog state observed).2 = [] := by
  unfold onNext
  dsimp only
  cases observed.event <;>
    simp only [answersOf_append, answersOf_shows, answersOf_flush, answersOf_forwards, List.append_nil]

theorem hear_silent (observed : List EventWithState) :
    answersOf (hear reading config frontendCatalogId catalog state observed).2 = [] := by
  induction observed generalizing state with
  | nil => rfl
  | cons one rest ih =>
    rw [hear]
    dsimp only
    rw [answersOf_append, onNext_silent, ih, List.append_nil]

/-- Whether an event is one to hold back. -/
def isHeld (observed : EventWithState) : Bool :=
  observed.event.type = .runFinished

theorem held_onNext (observed : EventWithState) :
    (onNext reading config frontendCatalogId catalog state observed).1.heldRunFinished =
      (some observed).filter isHeld := by
  have kept : (some observed).filter isHeld = if observed.event.type = .runFinished then some observed else none := by
    by_cases held : observed.event.type = .runFinished <;> simp [Option.filter, isHeld, held]
  rw [kept]
  unfold onNext
  dsimp only
  cases observed.event <;> rfl

/-- The `RUN_FINISHED` held at the end is the last event. -/
theorem held_hear (observed : List EventWithState) :
    (hear reading config frontendCatalogId catalog state observed).1.heldRunFinished =
      if observed = [] then state.heldRunFinished else observed.getLast?.filter isHeld := by
  induction observed generalizing state with
  | nil => rfl
  | cons one rest ih =>
    rw [hear]
    dsimp only
    rw [ih, if_neg (List.cons_ne_nil one rest)]
    cases rest with
    | nil => exact held_onNext state one
    | cons two rest => rw [if_neg (List.cons_ne_nil two rest), List.getLast?_cons_cons]

theorem isResult_settle {state : SurfaceState} {messages : List Message} {action : Action}
    (member : action ∈ settle reading config catalog randomUUID state messages) : action.isResult = true := by
  rcases List.mem_flatten.mp member with ⟨settled, among, member⟩
  rcases List.mem_mapIdx.mp among with ⟨position, _, rfl⟩
  rcases List.mem_cons.mp member with rfl | shown
  · rfl
  · exact isResult_shows shown

/-- Every pending rendering call is answered once. -/
theorem answersOf_settle (state : SurfaceState) (messages : List Message) :
    answersOf (settle reading config catalog randomUUID state messages) =
      (pendingRenderCalls config.getA2UIToolNames messages).map ToolCall.id := by
  have general : ∀ (calls : List ToolCall) (settleOne : Nat -> ToolCall -> List Action),
      (∀ position call, answersOf (settleOne position call) = [call.id]) ->
      answersOf (calls.mapIdx settleOne).flatten = calls.map ToolCall.id := by
    intro calls
    induction calls with
    | nil => exact fun _ _ => rfl
    | cons call rest ih =>
      intro settleOne once
      rw [List.mapIdx_cons, List.flatten_cons, answersOf_append, once, List.map_cons,
        ih _ fun position call => once (position + 1) call, List.singleton_append]
  refine general _ _ fun position call => ?_
  rw [settleCall]
  exact congrArg (call.id :: ·) (answersOf_shows _)

/-! ## A faithful insertion -/

/-- The `RUN_FINISHED` a completing source ends with. -/
def finalRunFinished (source : List EventWithState × Except ChunkError TransformState) : Option EventWithState :=
  match source.2 with
  | .ok _ => source.1.getLast?.filter isHeld
  | .error _ => none

/-- The downstream events are handed on, each once and in order.  If they end
in `RUN_FINISHED`, every rendering call that is then pending is answered once,
right before it; otherwise nothing is answered. -/
structure Inserts (names : List String) (events : List Event) (final : Option EventWithState)
    (actions : List Action) : Prop where
  handedOn : handedOn actions = events
  silent : final = none -> answersOf actions = []
  answered : ∀ held, final = some held -> ∃ before results,
    actions = before ++ (results ++ [Action.forwards held.event, Action.completes]) ∧ answersOf before = [] ∧
      (∀ action ∈ results, action.isResult = true) ∧ (answersOf results).Nodup ∧
      ∀ id, id ∈ answersOf results ↔ PendingRender names held.messages id

theorem inserts_processStream (source : List EventWithState × Except ChunkError TransformState) :
    Inserts config.getA2UIToolNames (source.1.map EventWithState.event) (finalRunFinished source)
      (processStream reading config frontendCatalogId catalog randomUUID source) := by
  rcases source with ⟨observed, ending⟩
  have hands : handedOn (hear reading config frontendCatalogId catalog {} observed).2 ++
      (hear reading config frontendCatalogId catalog {} observed).1.heldRunFinished.toList.map EventWithState.event =
        observed.map EventWithState.event := hear_hands {} observed
  have held : (hear reading config frontendCatalogId catalog {} observed).1.heldRunFinished =
      observed.getLast?.filter isHeld := by
    rw [held_hear]
    cases observed <;> rfl
  have silent : answersOf (hear reading config frontendCatalogId catalog {} observed).2 = [] := hear_silent {} observed
  unfold processStream finalRunFinished
  dsimp only
  cases ending with
  | error error =>
    refine ⟨?_, fun _ => ?_, fun _ impossible => nomatch impossible⟩
    · rw [onEnd, handedOn_append, handedOn_append, handedOn_flush, ← hands]
      exact congrArg (_ ++ ·) (List.append_nil _)
    · rw [onEnd, answersOf_append, answersOf_append, silent, answersOf_flush]
      rfl
  | ok final =>
    rw [held] at hands
    unfold onEnd
    dsimp only
    rw [held]
    cases last : observed.getLast?.filter isHeld with
    | none =>
      rw [last] at hands
      refine ⟨?_, fun _ => ?_, fun _ impossible => nomatch impossible⟩
      · rw [handedOn_append, ← hands]
        rfl
      · rw [answersOf_append, silent]
        rfl
    | some finished =>
      rw [last] at hands
      refine ⟨?_, fun impossible => (nomatch impossible), ?_⟩
      · rw [handedOn_append, handedOn_append, handedOn_results fun _ => isResult_settle, ← hands]
        rfl
      · rintro _ ⟨⟩
        refine ⟨_, _, rfl, silent, fun _ => isResult_settle, ?_, fun id => ?_⟩
        · rw [answersOf_settle]
          exact nodup_pendingRenderCalls _ _
        · rw [answersOf_settle]
          exact mem_pendingRenderCalls_iff _ _ id

/-- What is taken out of the stream of a turn, and what is put in. -/
theorem processStream_inserts (reading : Reading) (config : A2UIMiddlewareConfig) (frontendCatalogId : Option String)
    (catalog : Option Json) (randomUUID : Nat -> String) (applyPatch : ApplyPatch) (suppressed : Bool)
    (input : RunInput) (agentMessages : List Message) (events : List Event) :
    Inserts config.getA2UIToolNames (runNext suppressed events).1
      (finalRunFinished (runNextWithState applyPatch suppressed input agentMessages events))
      (processStream reading config frontendCatalogId catalog randomUUID
        (runNextWithState applyPatch suppressed input agentMessages events)) := by
  rw [← runNextWithState_events applyPatch suppressed input agentMessages events]
  exact inserts_processStream _

end Stream

/-! ### Where less is inserted -/

/-- A reading that makes nothing of any text. -/
def Reading.blank : Reading where
  parse _ := none
  stringify _ := ""
  display _ := ""
  extractStringField _ _ := none
  extractCompleteItemsWithStatus _ _ := none
  extractDataArrayItems _ _ := none
  extractCompleteObject _ _ := none
  validateA2UIComponents _ _ _ _ := { valid := false, errors := [] }

def renderCall (id name : String) : ToolCall :=
  { id := id, function := { name := name, arguments := "" } }

/-- What the agent emits, seen with the messages its input starts from. -/
def observedWith (messages : List Message) (events : List Event) :
    List EventWithState × Except ChunkError TransformState :=
  runNextWithState (fun document _ => some document) true { runId := "run", messages := messages } messages events

def actionsOn (messages : List Message) (events : List Event) : List Action :=
  processStream .blank {} none none (fun position => toString position) (observedWith messages events)

/-- A rendering call in a run that errs. -/
def erringRender : List Event :=
  [.runStarted { threadId := "thread", runId := "run" },
    .toolCallStart { toolCallId := "call", toolCallName := "render_a2ui" },
    .toolCallEnd { toolCallId := "call" },
    .runError { message := "stopped" }]

def plainRun : List Event :=
  [.runStarted { threadId := "thread", runId := "run" }, .runFinished { threadId := "thread", runId := "run" }]

/-- A history in which one id names two unanswered calls. -/
def repeatedCall : List Message :=
  [{ id := "one", role := .assistant, toolCalls := some [renderCall "call" "render_a2ui"] },
    { id := "two", role := .assistant, toolCalls := some [renderCall "call" "ask_user"] }]

def chunkedText : List Event :=
  [.runStarted { threadId := "thread", runId := "run" },
    .textMessageChunk { messageId := some "text", delta := some "hello" },
    .runFinished { threadId := "thread", runId := "run" }]

/-- A call pending at a `RUN_ERROR` is not answered, nor is one whose id a
later call of another tool took over; and a chunk is handed on expanded. -/
theorem insertion_refuted :
    (Verify.accepted erringRender = true ∧
      (observedWith [] erringRender).1.getLast?.any (fun last =>
        (unansweredToolCalls last.messages).any fun call => call.function.name = "render_a2ui") = true ∧
      answersOf (actionsOn [] erringRender) = []) ∧
    (Verify.accepted plainRun = true ∧
      (observedWith repeatedCall plainRun).1.getLast?.any (fun last =>
        (unansweredToolCalls last.messages).any fun call => call.function.name = "render_a2ui") = true ∧
      answersOf (actionsOn repeatedCall plainRun) = []) ∧
    (Verify.accepted chunkedText = true ∧
      (handedOn (actionsOn [] chunkedText)).map Event.type ≠ chunkedText.map Event.type) := by
  refine ⟨⟨rfl, ?_, ?_⟩, ⟨rfl, ?_, ?_⟩, rfl, ?_⟩ <;> decide

end A2ui
end AgUi
