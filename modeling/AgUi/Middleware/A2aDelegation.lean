import AgUi.Library.Since
import AgUi.Verify.Comparison
import AgUi.Middleware.A2a

namespace AgUi
namespace Middleware
namespace A2a

open Library Protocol Chunks Verify

/-!
# One delegation

The output is one block for each run of the orchestrator.  A run that leaves
delegated calls unanswered is closed by their results and a `RUN_FINISHED` of
the middleware's own, and only then is the orchestrator run again.

This module says what the subscriber is shown, and follows a single run: first
the orchestrator emits, then the agents answer, and at last nothing is left of
the run but the end of its stream.
-/

/-! ## Unanswered calls -/

def trackCall (pending : OrderedSet String) : Event -> OrderedSet String
  | .toolCallStart start => if isDelegating start.toolCallName then pending.add start.toolCallId else pending
  | .toolCallResult result => pending.erase result.toolCallId
  | _ => pending

/-- The delegated calls without a result, in the order of their starts. -/
def unanswered (events : List Event) : OrderedSet String :=
  events.foldl trackCall OrderedMap.empty

theorem unanswered_concat (events : List Event) (event : Event) :
    unanswered (events ++ [event]) = trackCall (unanswered events) event := by
  unfold unanswered
  rw [List.foldl_append]
  rfl

/-! ## What the subscriber is shown -/

section Shown

variable (world : A2aWorld) (suppressed : Bool)

/-- Every run of the orchestrator is whole, finishes, and makes sense to `transformChunks`. -/
structure Orchestrates : Prop where
  complete : ∀ round, CompleteRun (world.events suppressed round)
  finishes : ∀ round, ∃ finish, (world.events suppressed round).getLast? = some (.runFinished finish)
  expands : ∀ round, ∃ final, (runNext suppressed (world.downstream round)).2 = .ok final

/-- One result for each call, in any order. -/
def Answers (calls : OrderedSet String) (results : List ToolCallResultEvent) : Prop :=
  (results.map ToolCallResultEvent.toolCallId).Perm calls.keys

/-- No call has two results, and no other call has one. -/
def AnswersSome (calls : OrderedSet String) (results : List ToolCallResultEvent) : Prop :=
  (results.map ToolCallResultEvent.toolCallId).Nodup ∧ ∀ result ∈ results, calls.has result.toolCallId = true

/-- A run that delegated: its events up to its `RUN_FINISHED`, the results, a `RUN_FINISHED`. -/
def delegatedRun (round : Nat) (results : List ToolCallResultEvent) : List Event :=
  (world.events suppressed round).dropLast ++ results.map .toolCallResult ++
    [Event.runFinished { threadId := world.threadId, runId := world.runId }]

/-- What is shown of the last run, and whether that is the end: all it has emitted, and, while it waits for its
agents, the results of those that have answered. -/
inductive LastRun (events : List Event) (last : Wrapped) : List Event -> Ending A2aError -> Prop
  | streaming {shown : List Event} (rest : events = shown ++ last.upcoming) (more : last.upcoming ≠ []) :
      LastRun events last shown .unended
  | delegating {made : Delegation} {results : List ToolCallResultEvent} (emitted : last.upcoming = [])
      (delegated : last.delegation = some made) (pending : (unanswered events).keys ≠ [])
      (answered : AnswersSome (unanswered events) results)
      (soFar : ∀ id, id ∈ results.map ToolCallResultEvent.toolCallId ↔ made.callProms.get? id = some .answered) :
      LastRun events last (events.dropLast ++ results.map .toolCallResult) .unended
  | finished (emitted : last.upcoming = []) (none : (unanswered events).keys = []) :
      LastRun events last events .completed
  | failed {results : List ToolCallResultEvent} (emitted : last.upcoming = []) (pending : (unanswered events).keys ≠ [])
      (answered : AnswersSome (unanswered events) results) (error : String) :
      LastRun events last (events.dropLast ++ results.map .toolCallResult ++ [Event.runError { message := error }])
        (.failed (.call error))

def resultMessage (result : ToolCallResultEvent) : Message :=
  { id := result.messageId, role := .tool, toolCallId := some result.toolCallId, content := some result.content }

/-- The first history and the results of the runs since. -/
def historyAfter (history : List Message) (answers : List (List ToolCallResultEvent)) : List Message :=
  history ++ (answers.flatMap fun results => results.map resultMessage)

/-- Everything a subscriber has been shown, run by run. -/
structure Shows (history : List Message) (state : A2aState) (answers : List (List ToolCallResultEvent))
    (shown : List Event) : Prop where
  runs : state.streams.length = answers.length + 1
  histories : state.histories = (List.range (answers.length + 1)).map fun round =>
    historyAfter history (answers.take round)
  answered : ∀ round results, answers[round]? = some results ->
    (unanswered (world.events suppressed round)).keys ≠ [] ∧
      Answers (unanswered (world.events suppressed round)) results
  output : (observe state.told).1 = (answers.mapIdx (delegatedRun world suppressed)).flatten ++ shown
  last : ∃ last, state.streams.getLast? = some last ∧
    LastRun (world.events suppressed answers.length) last shown (observe state.told).2

end Shown

/-- The stream of a run ends while the output has not and no call is pending. -/
def Disturbs (state : A2aState) (action : Nat × Happening) : Prop :=
  action.2 = .ending ∧ state.pendingA2ACalls.keys = [] ∧ (observe state.told).2 = .unended

/-! ## Where the last run stands -/

section Phases

variable (world : A2aWorld) (suppressed : Bool)

/-- The orchestrator still emits. -/
structure Streaming (round : Nat) (shared : Shared) (wrapped : Wrapped) (shown : List Event) : Prop where
  rest : world.events suppressed round = shown ++ wrapped.upcoming
  more : wrapped.upcoming ≠ []
  unmade : wrapped.delegation = none
  unfailing : wrapped.chunkError = none
  calls : shared.pendingA2ACalls = unanswered shown
  texts : ∀ id, shared.pendingTextMessages.has id = true ->
    advance Record.blank shown (.opened .textMessage id) = true

/-- Its `RUN_FINISHED` is kept back, and `results` have come in. -/
structure Delegating (round : Nat) (shared : Shared) (wrapped : Wrapped) (made : Delegation)
    (results : List ToolCallResultEvent) : Prop where
  upcoming : wrapped.upcoming = []
  unfailing : wrapped.chunkError = none
  delegated : wrapped.delegation = some made
  unsettled : made.settled = false
  calls : ∀ id, made.callProms.has id = true ↔ OrderedMap.has (unanswered (world.events suppressed round)) id = true
  waited : (unanswered (world.events suppressed round)).keys ≠ []
  texts : shared.pendingTextMessages = OrderedMap.empty
  answered : ∀ id, id ∈ results.map ToolCallResultEvent.toolCallId ↔ made.callProms.get? id = some .answered
  once : (results.map ToolCallResultEvent.toolCallId).Nodup
  messages : made.newToolMessages = results.map resultMessage
  pending : ∀ id, shared.pendingA2ACalls.has id = true ->
    ∃ promise, made.callProms.get? id = some promise ∧ promise ≠ .answered

end Phases

/-- A run in which nothing can be started any more. -/
structure Closed (wrapped : Wrapped) : Prop where
  upcoming : wrapped.upcoming = []
  settled : ∀ made, wrapped.delegation = some made -> made.settled = true

/-- A closed run of which nothing is left but the end of its stream. -/
structure Spent (wrapped : Wrapped) : Prop extends Closed wrapped where
  unfailing : wrapped.chunkError = none
  answered : ∀ made, wrapped.delegation = some made -> ∀ id promise,
    made.callProms.get? id = some promise -> promise = .answered

/-! ## The end of the output -/

/-- What a shared state may become once the output has ended, as far as it matters. -/
structure OnlyTells (shared after : Shared) : Prop where
  messages : after.messages = shared.messages
  told : ∃ more, after.told = shared.told ++ more

namespace OnlyTells

theorem refl (shared : Shared) : OnlyTells shared shared :=
  ⟨rfl, [], (List.append_nil _).symm⟩

theorem tell (shared : Shared) (signals : List (Signal Event A2aError)) : OnlyTells shared (shared.tell signals) :=
  ⟨rfl, signals, rfl⟩

theorem observed {shared after : Shared} (only : OnlyTells shared after)
    (ended : (observe shared.told).2 ≠ .unended) : observe after.told = observe shared.told := by
  rcases only.told with ⟨more, same⟩
  rw [same]
  exact observe_append_of_ended ended more

theorem onEnd (shared : Shared) (chunkError : Option ChunkError) : OnlyTells shared (onEnd shared chunkError) := by
  unfold A2a.onEnd
  split
  · exact tell shared _
  · split
    · exact tell shared _
    · exact refl shared

end OnlyTells

/-! ## What a reaction is -/

section Reactions

variable {world : A2aWorld} {round : Nat} {shared : Shared} {wrapped : Wrapped} {reaction : Reaction}

theorem react_event (reacts : react world round shared wrapped .event = some reaction) :
    ∃ event rest, wrapped.upcoming = event :: rest ∧
      reaction = { shared := (onNext world round shared wrapped event).1
                   wrapped := { (onNext world round shared wrapped event).2 with upcoming := rest } } := by
  simp only [react] at reacts
  split at reacts
  · cases reacts
  · rename_i event rest upcoming
    cases reacts
    exact ⟨event, rest, upcoming, rfl⟩

theorem react_ending (reacts : react world round shared wrapped .ending = some reaction) :
    wrapped.upcoming = [] ∧
      reaction = { shared := onEnd shared wrapped.chunkError, wrapped := { wrapped with ended := true } } := by
  simp only [react] at reacts
  split at reacts
  · rename_i done
    cases reacts
    rw [Bool.and_eq_true, List.isEmpty_iff] at done
    exact ⟨done.1, rfl⟩
  · cases reacts

theorem react_answer {toolCallId messageId content : String}
    (reacts : react world round shared wrapped (.answer toolCallId messageId content) = some reaction) :
    ∃ made, wrapped.delegation = some made ∧
      (made.callProms.get? toolCallId).any CallPromise.isSent = true ∧
      reaction = { shared := (onAnswer shared made toolCallId messageId content).1
                   wrapped := { wrapped with
                     delegation := some (onAnswer shared made toolCallId messageId content).2 } } := by
  simp only [react] at reacts
  split at reacts
  · cases reacts
  · rename_i made delegated
    split at reacts
    · rename_i sent
      cases reacts
      exact ⟨made, delegated, sent, rfl⟩
    · cases reacts

theorem react_reject {toolCallId error : String}
    (reacts : react world round shared wrapped (.reject toolCallId error) = some reaction) :
    ∃ made, wrapped.delegation = some made ∧
      (made.callProms.get? toolCallId).any CallPromise.isSent = true ∧
      reaction = { shared := (onReject shared made toolCallId error).1
                   wrapped := { wrapped with delegation := some (onReject shared made toolCallId error).2 } } := by
  simp only [react] at reacts
  split at reacts
  · cases reacts
  · rename_i made delegated
    split at reacts
    · rename_i sent
      cases reacts
      exact ⟨made, delegated, sent, rfl⟩
    · cases reacts

theorem react_settle (reacts : react world round shared wrapped .settle = some reaction) :
    ∃ made, wrapped.delegation = some made ∧ made.settled = false ∧
      (made.callProms.entries.all fun call => call.2 = .answered) = true ∧
      reaction = { shared := settleRun world shared made
                   wrapped := { wrapped with delegation := some { made with settled := true } }
                   starts := true } := by
  simp only [react] at reacts
  split at reacts
  · cases reacts
  · rename_i made delegated
    split at reacts
    · rename_i ready
      cases reacts
      rw [Bool.and_eq_true, Bool.not_eq_true'] at ready
      exact ⟨made, delegated, ready.1, ready.2, rfl⟩
    · cases reacts

theorem react_fail (reacts : react world round shared wrapped .fail = some reaction) :
    ∃ made error, wrapped.delegation = some made ∧ made.settled = false ∧
      made.rejection = some error ∧
      reaction = { shared := failRun shared error
                   wrapped := { wrapped with delegation := some { made with settled := true } } } := by
  simp only [react] at reacts
  split at reacts
  · cases reacts
  · rename_i made delegated
    split at reacts
    · cases reacts
    · rename_i error rejected
      split at reacts
      · cases reacts
      · rename_i unsettled
        cases reacts
        exact ⟨made, error, delegated, Bool.eq_false_iff.mpr unsettled, rejected, rfl⟩

/-- A closed run starts nothing and changes no history. -/
theorem react_closed (closed : Closed wrapped) {happening : Happening}
    (reacts : react world round shared wrapped happening = some reaction) :
    reaction.starts = false ∧ Closed reaction.wrapped ∧ OnlyTells shared reaction.shared := by
  cases happening with
  | event =>
    rcases react_event reacts with ⟨event, rest, upcoming, -⟩
    rw [closed.upcoming] at upcoming
    cases upcoming
  | ending =>
    rcases react_ending reacts with ⟨-, rfl⟩
    exact ⟨rfl, ⟨closed.upcoming, closed.settled⟩, OnlyTells.onEnd shared _⟩
  | answer toolCallId messageId content =>
    rcases react_answer reacts with ⟨made, delegated, -, rfl⟩
    refine ⟨rfl, ⟨closed.upcoming, ?_⟩, ⟨rfl, _, rfl⟩⟩
    intro after same
    cases same
    exact closed.settled made delegated
  | reject toolCallId error =>
    rcases react_reject reacts with ⟨made, delegated, -, rfl⟩
    refine ⟨rfl, ⟨closed.upcoming, ?_⟩, ⟨rfl, [], (List.append_nil _).symm⟩⟩
    intro after same
    cases same
    exact closed.settled made delegated
  | settle =>
    rcases react_settle reacts with ⟨made, delegated, unsettled, -⟩
    rw [closed.settled made delegated] at unsettled
    cases unsettled
  | fail =>
    rcases react_fail reacts with ⟨made, error, delegated, unsettled, -⟩
    rw [closed.settled made delegated] at unsettled
    cases unsettled

/-- Of a spent run only its end can still be heard. -/
theorem react_spent (spent : Spent wrapped) {happening : Happening}
    (reacts : react world round shared wrapped happening = some reaction) :
    happening = .ending ∧ reaction.starts = false ∧ Spent reaction.wrapped ∧ reaction.shared = onEnd shared none := by
  have unsent : ∀ made, wrapped.delegation = some made -> ∀ id,
      (made.callProms.get? id).any CallPromise.isSent ≠ true := by
    intro made delegated id sent
    rcases (Option.any_eq_true _ _).mp sent with ⟨promise, found, isSent⟩
    rw [spent.answered made delegated id promise found] at isSent
    cases isSent
  cases happening with
  | event =>
    rcases react_event reacts with ⟨event, rest, upcoming, -⟩
    rw [spent.upcoming] at upcoming
    cases upcoming
  | ending =>
    rcases react_ending reacts with ⟨-, rfl⟩
    refine ⟨rfl, rfl, ⟨⟨spent.upcoming, spent.settled⟩, spent.unfailing, spent.answered⟩, ?_⟩
    rw [spent.unfailing]
  | answer toolCallId messageId content =>
    rcases react_answer reacts with ⟨made, delegated, sent, -⟩
    exact absurd sent (unsent made delegated toolCallId)
  | reject toolCallId error =>
    rcases react_reject reacts with ⟨made, delegated, sent, -⟩
    exact absurd sent (unsent made delegated toolCallId)
  | settle =>
    rcases react_settle reacts with ⟨made, delegated, unsettled, -⟩
    rw [spent.settled made delegated] at unsettled
    cases unsettled
  | fail =>
    rcases react_fail reacts with ⟨made, error, delegated, unsettled, -⟩
    rw [spent.settled made delegated] at unsettled
    cases unsettled

end Reactions

/-! ## The orchestrator emits -/

section Emitting

variable {world : A2aWorld} {suppressed : Bool} {round : Nat} {shared : Shared} {wrapped : Wrapped}

theorem empty_of_has_false {K V : Type} [DecidableEq K] {map : OrderedMap K V}
    (absent : ∀ key, map.has key ≠ true) : map = OrderedMap.empty := by
  apply OrderedMap.ext
  have none := (OrderedMap.size_eq_zero_iff map).mpr fun key => Bool.eq_false_iff.mpr (absent key)
  exact List.length_eq_zero_iff.mp none

theorem finishTextMessages_idle (idle : shared.pendingTextMessages = OrderedMap.empty) :
    shared.finishTextMessages = shared := by
  unfold Shared.finishTextMessages Shared.tell
  rw [idle]
  have nothing : (OrderedMap.empty : OrderedSet String).keys.map
      (fun messageId => (Signal.next (.textMessageEnd { messageId := messageId }) : Signal Event A2aError)) = [] := rfl
  rw [nothing, List.append_nil]
  rcases shared with ⟨calls, texts, messages, added, told⟩
  cases idle
  rfl

/-- An event inside a run is passed on. -/
theorem onNext_plain {event : Event} (notEnd : endsRun event = false) :
    (onNext world round shared wrapped event).1 =
        { shared.markTextMessageAsPending event with
          pendingA2ACalls := trackCall shared.pendingA2ACalls event
          told := shared.told ++ [Signal.next event] } ∧
      (onNext world round shared wrapped event).2.delegation = wrapped.delegation ∧
      (onNext world round shared wrapped event).2.chunkError = wrapped.chunkError := by
  cases event with
  | toolCallStart start =>
    simp only [onNext, trackCall]
    split <;> exact ⟨rfl, rfl, rfl⟩
  | toolCallArgs args =>
    simp only [onNext]
    cases wrapped.streamedArgs.get? args.toolCallId with
    | none => exact ⟨rfl, rfl, rfl⟩
    | some streamed => exact ⟨rfl, rfl, rfl⟩
  | runFinished finish | runError error => cases notEnd
  | _ => exact ⟨rfl, rfl, rfl⟩

/-- The messages the middleware takes for open are open. -/
theorem texts_next {record : Record} {event : Event} (texts : ∀ id, shared.pendingTextMessages.has id = true ->
      record (.opened .textMessage id) = true) (starts : event.type = .runStarted -> record = Record.blank) :
    ∀ id, (shared.markTextMessageAsPending event).pendingTextMessages.has id = true ->
      next record event (.opened .textMessage id) = true := by
  intro id present
  rw [opened_after]
  have before : shared.pendingTextMessages.has id = true -> closes? event ≠ some (.entity .textMessage id) ->
      opens? event = some (.entity .textMessage id) ∨ (record (.opened .textMessage id) = true ∧
        ¬ (closes? event = some (.entity .textMessage id) ∨ event.type = .runStarted)) := by
    intro earlier stillOpen
    have opened := texts id earlier
    refine Or.inr ⟨opened, ?_⟩
    rintro (closed | started)
    · exact stillOpen closed
    · rw [starts started] at opened
      cases opened
  cases event with
  | textMessageStart start =>
    change OrderedMap.has (OrderedSet.add _ _) id = true at present
    rw [OrderedSet.has_add, Bool.or_eq_true, decide_eq_true_iff] at present
    rcases present with rfl | earlier
    · exact Or.inl rfl
    · exact before earlier nofun
  | textMessageEnd finish =>
    change OrderedMap.has (OrderedMap.erase _ _) id = true at present
    rw [OrderedMap.has_erase, Bool.and_eq_true, Bool.not_eq_true', decide_eq_false_iff_not] at present
    refine before present.2 ?_
    intro closed
    cases closed
    exact present.1 rfl
  | subagentFinished finish | subagentError finish =>
    refine before present ?_
    simp [closes?]
  | _ => exact before present fun closed => by cases closed

section

variable (orchestrates : Orchestrates world suppressed)

include orchestrates

/-- A run of the orchestrator, taken apart. -/
theorem Orchestrates.parts (round : Nat) : ∃ start inside finish,
      world.events suppressed round = .runStarted start :: (inside ++ [Event.runFinished finish]) ∧
        ∀ event ∈ inside, isInside event = true := by
  rcases (orchestrates.complete round).parts with ⟨start, inside, ending, events, insides, shape⟩
  rcases orchestrates.finishes round with ⟨finish, last⟩
  cases shape with
  | finished event => exact ⟨start, inside, event, events, insides⟩
  | failed error =>
    rw [events, ← List.cons_append, List.getLast?_concat] at last
    cases last
  | finishedThenFailed event error =>
    have tail : inside ++ [Event.runFinished event, Event.runError error] =
        (inside ++ [Event.runFinished event]) ++ [Event.runError error] := by simp
    rw [events, tail, ← List.cons_append, List.getLast?_concat] at last
    cases last

/-- Up to its end, no event of a run ends it, and only the first starts it. -/
theorem Orchestrates.plain {shown rest : List Event} {event : Event}
    (events : world.events suppressed round = shown ++ event :: rest) (more : rest ≠ []) :
    endsRun event = false ∧ (event.type = .runStarted -> shown = []) := by
  rcases orchestrates.parts round with ⟨start, inside, finish, parts, insides⟩
  have early : event ∈ (world.events suppressed round).dropLast := by
    rw [events, List.dropLast_append_of_ne_nil (List.cons_ne_nil _ _), List.dropLast_cons_of_ne_nil more]
    simp
  have member : event = .runStarted start ∨ event ∈ inside := by
    rw [parts, ← List.cons_append, List.dropLast_concat] at early
    exact List.mem_cons.mp early
  constructor
  · rcases member with rfl | inner
    · rfl
    · exact ((isInside_iff event).mp (insides event inner)).1
  · intro started
    cases shown with
    | nil => rfl
    | cons first others =>
      have tail : inside ++ [Event.runFinished finish] = others ++ event :: rest := by
        rw [parts] at events
        exact (List.cons.inj events).2
      have later : event ∈ inside ++ [Event.runFinished finish] := by
        rw [tail]
        simp
      rcases List.mem_append.mp later with inner | last
      · exact absurd started ((isInside_iff event).mp (insides event inner)).2
      · rw [List.mem_singleton.mp last] at started
        cases started

theorem Streaming.plain {shown rest : List Event} {event : Event}
    (streaming : Streaming world suppressed round shared wrapped shown) (upcoming : wrapped.upcoming = event :: rest)
    (more : rest ≠ []) : Streaming world suppressed round (onNext world round shared wrapped event).1
      { (onNext world round shared wrapped event).2 with upcoming := rest } (shown ++ [event]) := by
  have events := streaming.rest
  rw [upcoming] at events
  have plain := orchestrates.plain events more
  have passed := @onNext_plain world round shared wrapped _ plain.1
  refine ⟨?_, more, passed.2.1.trans streaming.unmade, passed.2.2.trans streaming.unfailing, ?_, ?_⟩
  · rw [events, List.append_assoc]
    rfl
  · rw [passed.1, unanswered_concat, ← streaming.calls]
  · rw [passed.1]
    have after : advance Record.blank (shown ++ [event]) = next (advance Record.blank shown) event := by
      unfold advance
      rw [List.foldl_append]
      rfl
    rw [after]
    refine texts_next streaming.texts ?_
    intro started
    rw [plain.2 started]
    rfl

/-- When the run finishes, no text message is open. -/
theorem Streaming.idle {shown : List Event} {finish : RunFinishedEvent}
    (streaming : Streaming world suppressed round shared wrapped shown)
    (upcoming : wrapped.upcoming = [.runFinished finish]) : shared.pendingTextMessages = OrderedMap.empty := by
  have admitted := (accepted_iff_admits _).mp (orchestrates.complete round).valid
  rw [streaming.rest, upcoming, admits_append] at admitted
  apply empty_of_has_false
  intro id present
  have opened := streaming.texts id present
  rw [admitted.2.1.case.entities .textMessage id] at opened
  cases opened

end

theorem onNext_runFinished (idle : shared.pendingTextMessages = OrderedMap.empty) (finish : RunFinishedEvent) :
    onNext world round shared wrapped (.runFinished finish) =
      if shared.pendingA2ACalls.keys = [] then (shared.tell [.next (.runFinished finish), .complete], wrapped)
      else
        (shared, { wrapped with
          delegation := some (delegation (delegate world.parse (world.heldArguments round) wrapped.streamedArgs
            shared.pendingA2ACalls.keys)) }) := by
  simp only [onNext, Shared.markTextMessageAsPending, finishTextMessages_idle idle]

end Emitting

/-! ## The agents answer -/

section Answering

variable {world : A2aWorld} {suppressed : Bool} {round : Nat} {shared : Shared} {wrapped : Wrapped}
  {made : Delegation} {results : List ToolCallResultEvent}

/-- Every pending call gets a promise of its own, and none is answered yet. -/
theorem get?_delegation (parse : String -> Except String Json) (held : String -> Option String)
    (streamedArgs : OrderedMap String String) (pending : OrderedSet String) (id : String) :
    (delegation (delegate parse held streamedArgs pending.keys)).callProms.get? id =
      if id ∈ pending.keys then
        some (promiseOf (resolveArguments parse (streamedArgs.get? id) (held id) id))
      else none := by
  have entries : (delegate parse held streamedArgs pending.keys).map (fun call => (call.1, promiseOf call.2)) =
      pending.keys.map fun id => (id, promiseOf (resolveArguments parse (streamedArgs.get? id) (held id) id)) := by
    unfold delegate
    rw [List.map_map]
    rfl
  have names : (pending.keys.map fun id =>
      (id, promiseOf (resolveArguments parse (streamedArgs.get? id) (held id) id))).map Prod.fst = pending.keys := by
    rw [List.map_map]
    exact List.map_id _
  unfold delegation
  rw [entries, OrderedMap.get?_ofList (by rw [names]; exact pending.keys_nodup)]
  by_cases member : id ∈ pending.keys
  · rw [if_pos member]
    exact List.lookup_graph _ member
  · rw [if_neg member]
    exact OrderedMap.lookup_eq_none_of_not_mem (by rw [names]; exact member)

theorem promiseOf_ne_answered (resolved : Except String (String × String)) : promiseOf resolved ≠ .answered := by
  cases resolved <;> exact CallPromise.noConfusion

/-- The run finishes and leaves calls unanswered. -/
theorem Streaming.delegates (orchestrates : Orchestrates world suppressed) {shown : List Event}
    {finish : RunFinishedEvent} (streaming : Streaming world suppressed round shared wrapped shown)
    (upcoming : wrapped.upcoming = [.runFinished finish]) (pending : shared.pendingA2ACalls.keys ≠ []) :
    ∃ made, Delegating world suppressed round (onNext world round shared wrapped (.runFinished finish)).1
      { (onNext world round shared wrapped (.runFinished finish)).2 with upcoming := [] } made [] := by
  have idle := streaming.idle orchestrates upcoming
  have whole : unanswered (world.events suppressed round) = shared.pendingA2ACalls := by
    rw [streaming.rest, upcoming, unanswered_concat, streaming.calls]
    rfl
  rw [onNext_runFinished idle, if_neg pending]
  refine ⟨_, rfl, streaming.unfailing, rfl, rfl, ?_, ?_, idle, ?_, .nil, rfl, ?_⟩
  · intro id
    rw [whole, OrderedMap.has, get?_delegation]
    by_cases member : id ∈ shared.pendingA2ACalls.keys
    · rw [if_pos member]
      exact iff_of_true rfl ((OrderedMap.mem_keys_iff _ id).mp member)
    · rw [if_neg member]
      exact iff_of_false Bool.false_ne_true fun present => member ((OrderedMap.mem_keys_iff _ id).mpr present)
  · rw [whole]
    exact pending
  · intro id
    refine iff_of_false List.not_mem_nil ?_
    rw [get?_delegation]
    split
    · exact fun same => promiseOf_ne_answered _ (Option.some.inj same)
    · exact fun same => by cases same
  · intro id present
    rw [get?_delegation, if_pos ((OrderedMap.mem_keys_iff _ id).mpr present)]
    exact ⟨_, rfl, promiseOf_ne_answered _⟩

namespace Delegating

variable (delegating : Delegating world suppressed round shared wrapped made results)

include delegating

/-- A call that is settled was made, and every other call is as pending as it was. -/
theorem settleCall {toolCallId : String} {promise : CallPromise}
    (found : made.callProms.get? toolCallId = some promise) (outcome : CallPromise) :
    (∀ id, (made.callProms.set toolCallId outcome).has id = true ↔
      OrderedMap.has (unanswered (world.events suppressed round)) id = true) ∧
    ∀ id, OrderedMap.has (OrderedMap.erase shared.pendingA2ACalls toolCallId) id = true ->
      ∃ promise, (made.callProms.set toolCallId outcome).get? id = some promise ∧ promise ≠ .answered := by
  constructor
  · intro id
    rw [OrderedMap.has_set, Bool.or_eq_true, decide_eq_true_iff, delegating.calls]
    constructor
    · rintro (rfl | present)
      · exact (delegating.calls _).mp ((OrderedMap.has_eq_true_iff _ _).mpr ⟨promise, found⟩)
      · exact present
    · exact Or.inr
  · intro id present
    rw [OrderedMap.has_erase, Bool.and_eq_true, Bool.not_eq_true', decide_eq_false_iff_not] at present
    rw [OrderedMap.get?_set, if_neg present.1]
    exact delegating.pending id present.2

theorem answer {toolCallId : String} (sent : (made.callProms.get? toolCallId).any CallPromise.isSent = true)
    (messageId content : String) :
    Delegating world suppressed round (onAnswer shared made toolCallId messageId content).1
      { wrapped with delegation := some (onAnswer shared made toolCallId messageId content).2 }
      (onAnswer shared made toolCallId messageId content).2
      (results ++ [resultEvent messageId toolCallId content]) := by
  rcases (Option.any_eq_true _ _).mp sent with ⟨promise, found, isSent⟩
  have unanswering : toolCallId ∉ results.map ToolCallResultEvent.toolCallId := by
    intro member
    rw [delegating.answered, found] at member
    cases member
    cases isSent
  have settled := delegating.settleCall found .answered
  refine ⟨delegating.upcoming, delegating.unfailing, rfl, delegating.unsettled, settled.1, delegating.waited,
    delegating.texts, ?_, ?_, ?_, settled.2⟩
  · intro id
    change _ ↔ (made.callProms.set toolCallId .answered).get? id = some .answered
    rw [OrderedMap.get?_set, List.map_append, List.mem_append, delegating.answered]
    by_cases same : id = toolCallId
    · subst same
      rw [if_pos rfl]
      exact iff_of_true (Or.inr (List.mem_singleton.mpr rfl)) rfl
    · rw [if_neg same]
      exact or_iff_left fun last => same (List.mem_singleton.mp last)
  · rw [List.map_append]
    refine List.nodup_append.mpr ⟨delegating.once, List.nodup_singleton _, ?_⟩
    intro id earlier last newest same
    rw [same, List.mem_singleton.mp newest] at earlier
    exact unanswering earlier
  · change made.newToolMessages ++ [toolMessage messageId toolCallId content] = _
    rw [delegating.messages, List.map_append]
    rfl

theorem reject {toolCallId : String} (sent : (made.callProms.get? toolCallId).any CallPromise.isSent = true)
    (error : String) :
    Delegating world suppressed round (onReject shared made toolCallId error).1
      { wrapped with delegation := some (onReject shared made toolCallId error).2 }
      (onReject shared made toolCallId error).2 results := by
  rcases (Option.any_eq_true _ _).mp sent with ⟨promise, found, isSent⟩
  have settled := delegating.settleCall found .rejected
  refine ⟨delegating.upcoming, delegating.unfailing, rfl, delegating.unsettled, settled.1, delegating.waited,
    delegating.texts, ?_, delegating.once, delegating.messages, settled.2⟩
  intro id
  change _ ↔ (made.callProms.set toolCallId .rejected).get? id = some .answered
  rw [OrderedMap.get?_set, delegating.answered]
  by_cases same : id = toolCallId
  · subst same
    rw [if_pos rfl, found]
    refine iff_of_false ?_ fun same => by cases same
    intro answered
    cases answered
    cases isSent
  · rw [if_neg same]

/-- Only delegated calls are answered, each once. -/
theorem answersSome : AnswersSome (unanswered (world.events suppressed round)) results := by
  refine ⟨delegating.once, ?_⟩
  intro result member
  have answered := (delegating.answered result.toolCallId).mp (List.mem_map_of_mem member)
  exact (delegating.calls _).mp ((OrderedMap.has_eq_true_iff _ _).mpr ⟨_, answered⟩)

/-- Once every promise is kept, every call has its result, and none is pending. -/
theorem answers (all : (made.callProms.entries.all fun call => call.2 = .answered) = true) :
    Answers (unanswered (world.events suppressed round)) results ∧ shared.pendingA2ACalls = OrderedMap.empty := by
  have kept : ∀ id promise, made.callProms.get? id = some promise -> promise = .answered := by
    intro id promise found
    have entry := List.all_eq_true.mp all (id, promise) ((made.callProms.mem_entries_iff id promise).mpr found)
    exact of_decide_eq_true entry
  constructor
  · refine (List.perm_ext_iff_of_nodup delegating.once (OrderedMap.keys_nodup _)).mpr ?_
    intro id
    rw [delegating.answered, OrderedMap.mem_keys_iff, ← delegating.calls, OrderedMap.has_eq_true_iff]
    constructor
    · exact fun answered => ⟨_, answered⟩
    · rintro ⟨promise, found⟩
      rw [found, kept id promise found]
  · apply empty_of_has_false
    intro id present
    rcases delegating.pending id present with ⟨promise, found, waiting⟩
    exact waiting (kept id promise found)

end Delegating

end Answering

end A2a
end Middleware
end AgUi
