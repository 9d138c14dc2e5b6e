import AgUi.Middleware.A2aDelegation

namespace AgUi
namespace Middleware
namespace A2a

open Library Protocol Chunks Verify

/-!
# Delegation loses nothing

The invariant says where the last run stands, and what is left of the earlier
ones: nothing but the end of their streams.  That end is ignored while a call
is pending and after the output has ended.  In between it would end the
output, so it is set apart as `Disturbs`.
-/

/-! ## The whole system -/

section Whole

variable (world : A2aWorld) (suppressed : Bool)

/-- Where the last run stands, and what has been shown of it. -/
inductive Stands (round : Nat) (shared : Shared) (wrapped : Wrapped) : List Event -> Ending A2aError -> Prop
  | streaming {shown : List Event} (streaming : Streaming world suppressed round shared wrapped shown) :
      Stands round shared wrapped shown .unended
  | delegating {made : Delegation} {results : List ToolCallResultEvent}
      (delegating : Delegating world suppressed round shared wrapped made results) :
      Stands round shared wrapped
        ((world.events suppressed round).dropLast ++ results.map .toolCallResult) .unended
  | settled {shown : List Event} {ending : Ending A2aError} (closed : Closed wrapped) (ended : ending ≠ .unended)
      (last : LastRun (world.events suppressed round) wrapped shown ending) : Stands round shared wrapped shown ending

variable {world suppressed}

variable {shared : Shared}

theorem Stands.lastRun {round : Nat} {wrapped : Wrapped} {shown : List Event}
    {ending : Ending A2aError} (stands : Stands world suppressed round shared wrapped shown ending) :
    LastRun (world.events suppressed round) wrapped shown ending := by
  cases stands with
  | streaming streaming => exact .streaming streaming.rest streaming.more
  | delegating delegating =>
    exact .delegating delegating.upcoming delegating.delegated delegating.waited delegating.answersSome
      delegating.answered
  | settled _ _ last => exact last

/-- Once the output has ended, it only matters that the run has emitted all. -/
theorem LastRun.closed {events shown : List Event} {before after : Wrapped} {ending : Ending A2aError}
    (last : LastRun events before shown ending) (ended : ending ≠ .unended) (emitted : after.upcoming = []) :
    LastRun events after shown ending := by
  cases last with
  | streaming _ _ | delegating _ _ _ _ _ => exact absurd rfl ended
  | finished _ none => exact .finished emitted none
  | failed _ pending answered error => exact .failed emitted pending answered error

variable (world suppressed)

/-- What holds of every state that is reached undisturbed. -/
structure Invariant (history : List Message) (state : A2aState) (answers : List (List ToolCallResultEvent))
    (earlier : List Wrapped) (wrapped : Wrapped) (shown : List Event) : Prop where
  streams : state.streams = earlier ++ [wrapped]
  count : earlier.length = answers.length
  spent : ∀ other ∈ earlier, Spent other
  messages : state.messages = historyAfter history answers
  histories : state.histories = (List.range (answers.length + 1)).map fun round =>
    historyAfter history (answers.take round)
  answered : ∀ round results, answers[round]? = some results ->
    (unanswered (world.events suppressed round)).keys ≠ [] ∧
      Answers (unanswered (world.events suppressed round)) results
  output : (observe state.told).1 = (answers.mapIdx (delegatedRun world suppressed)).flatten ++ shown
  stands : Stands world suppressed answers.length state.toShared wrapped shown (observe state.told).2

variable {world suppressed} {history : List Message} {state : A2aState} {answers : List (List ToolCallResultEvent)}
  {earlier : List Wrapped} {wrapped : Wrapped} {shown : List Event}

theorem Invariant.shows (invariant : Invariant world suppressed history state answers earlier wrapped shown) :
    Shows world suppressed history state answers shown where
  runs := by rw [invariant.streams, List.length_append, invariant.count]; rfl
  histories := invariant.histories
  answered := invariant.answered
  output := invariant.output
  last := ⟨wrapped, by rw [invariant.streams, List.getLast?_concat], invariant.stands.lastRun⟩

theorem invariant_start (orchestrates : Orchestrates world suppressed) (history : List Message) :
    Invariant world suppressed history (start world suppressed history) [] [] (wrapStream world suppressed 0) [] where
  streams := rfl
  count := rfl
  spent := fun _ impossible => absurd impossible List.not_mem_nil
  messages := (List.append_nil history).symm
  histories := congrArg (fun first => [first]) (List.append_nil history).symm
  answered := nofun
  output := rfl
  stands := by
    rcases orchestrates.parts 0 with ⟨start, inside, finish, parts, -⟩
    rcases orchestrates.expands 0 with ⟨final, expands⟩
    refine .streaming ⟨rfl, ?_, rfl, ?_, rfl, nofun⟩
    · change world.events suppressed 0 ≠ []
      rw [parts]
      exact List.cons_ne_nil _ _
    · unfold wrapStream
      rw [expands]

/-- The last run reacts, and nothing new is started. -/
theorem Invariant.reacts (invariant : Invariant world suppressed history state answers earlier wrapped shown)
    {last : Wrapped} (same : shared.messages = state.messages) {after : List Event}
    (output : (observe shared.told).1 = (answers.mapIdx (delegatedRun world suppressed)).flatten ++ after)
    (stands : Stands world suppressed answers.length shared last after (observe shared.told).2) :
    Invariant world suppressed history
      { toShared := shared, streams := earlier ++ [last], histories := state.histories }
      answers earlier last after where
  streams := rfl
  count := invariant.count
  spent := invariant.spent
  messages := same.trans invariant.messages
  histories := invariant.histories
  answered := invariant.answered
  output := output
  stands := stands

/-- Once the output has ended, nothing that is told matters. -/
theorem Invariant.ended (invariant : Invariant world suppressed history state answers earlier wrapped shown)
    (ended : (observe state.told).2 ≠ .unended) (only : OnlyTells state.toShared shared)
    {others : List Wrapped} (count : others.length = answers.length) (spent : ∀ other ∈ others, Spent other)
    {last : Wrapped} (closed : Closed last) : Invariant world suppressed history
      { toShared := shared, streams := others ++ [last], histories := state.histories } answers others last shown where
  streams := rfl
  count := count
  spent := spent
  messages := only.messages.trans invariant.messages
  histories := invariant.histories
  answered := invariant.answered
  output := by
    change (observe shared.told).1 = _
    rw [only.observed ended]
    exact invariant.output
  stands := by
    change Stands world suppressed answers.length shared last shown (observe shared.told).2
    rw [only.observed ended]
    exact .settled closed ended (invariant.stands.lastRun.closed ended closed.upcoming)

theorem Stands.closed {round : Nat} {ending : Ending A2aError}
    (stands : Stands world suppressed round shared wrapped shown ending) (ended : ending ≠ .unended) :
    Closed wrapped := by
  cases stands with
  | streaming _ | delegating _ => exact absurd rfl ended
  | settled closed _ _ => exact closed

/-- The stream of an earlier run ends. -/
theorem Invariant.earlierEnds (invariant : Invariant world suppressed history state answers earlier wrapped shown)
    {others : List Wrapped} (count : others.length = answers.length)
    (spent : ∀ other ∈ others, Spent other)
    (undisturbed : state.pendingA2ACalls.keys = [] -> (observe state.told).2 ≠ .unended) :
    Invariant world suppressed history
      { toShared := onEnd state.toShared none, streams := others ++ [wrapped], histories := state.histories }
      answers others wrapped shown := by
  by_cases ended : (observe state.told).2 = .unended
  · have pending : state.pendingA2ACalls.keys ≠ [] := fun none => undisturbed none ended
    have unchanged : onEnd state.toShared none = state.toShared := if_neg pending
    rw [unchanged]
    exact ⟨rfl, count, spent, invariant.messages, invariant.histories, invariant.answered, invariant.output,
      invariant.stands⟩
  · exact invariant.ended ended (OnlyTells.onEnd _ _) count spent (invariant.stands.closed ended)

/-- The last run hears an event of the orchestrator. -/
theorem Invariant.hears (orchestrates : Orchestrates world suppressed)
    (invariant : Invariant world suppressed history state answers earlier wrapped shown)
    (running : (observe state.told).2 = .unended)
    (streaming : Streaming world suppressed answers.length state.toShared wrapped shown) {event : Event}
    {rest : List Event} (upcoming : wrapped.upcoming = event :: rest) :
    ∃ after, Invariant world suppressed history
      { toShared := (onNext world answers.length state.toShared wrapped event).1
        streams := earlier ++
          [{ (onNext world answers.length state.toShared wrapped event).2 with upcoming := rest }]
        histories := state.histories }
      answers earlier { (onNext world answers.length state.toShared wrapped event).2 with upcoming := rest } after := by
  by_cases more : rest = []
  · subst more
    rcases orchestrates.parts answers.length with ⟨start, inside, finish, parts, -⟩
    have same : event = .runFinished finish := by
      have whole := streaming.rest
      rw [upcoming, parts, ← List.cons_append] at whole
      exact (List.cons.inj (List.append_inj' whole rfl).2).1.symm
    subst same
    have idle := streaming.idle orchestrates upcoming
    have events : world.events suppressed answers.length = shown ++ [Event.runFinished finish] := by
      rw [streaming.rest, upcoming]
    have calls : unanswered (world.events suppressed answers.length) = state.pendingA2ACalls := by
      rw [events, unanswered_concat, streaming.calls]
      rfl
    by_cases none : state.pendingA2ACalls.keys = []
    · rw [onNext_runFinished idle, if_pos none]
      have told := observe_append_of_unended running [.next (.runFinished finish), .complete]
      refine ⟨shown ++ [Event.runFinished finish], ?_⟩
      apply invariant.reacts
      · rfl
      · change (observe (state.told ++ _)).1 = _
        rw [told, invariant.output, List.append_assoc]
        rfl
      · change Stands _ _ _ _ _ _ (observe (state.told ++ _)).2
        rw [told]
        refine .settled ⟨rfl, ?_⟩ nofun ?_
        · intro made impossible
          rw [streaming.unmade] at impossible
          cases impossible
        · rw [← events]
          exact .finished rfl (by rw [calls]; exact none)
    · rcases streaming.delegates orchestrates upcoming none with ⟨made, delegating⟩
      have silent : (onNext world answers.length state.toShared wrapped (.runFinished finish)).1 = state.toShared := by
        rw [onNext_runFinished idle, if_neg none]
      refine ⟨(world.events suppressed answers.length).dropLast ++ ([] : List ToolCallResultEvent).map .toolCallResult,
        invariant.reacts (congrArg Shared.messages silent) ?_ ?_⟩
      · rw [events, List.dropLast_concat, silent, invariant.output]
        exact (congrArg _ (List.append_nil shown)).symm
      · have still : (observe (onNext world answers.length state.toShared wrapped (.runFinished finish)).1.told).2 =
            .unended := by
          rw [silent]
          exact running
        rw [still]
        exact .delegating delegating
  · have events := streaming.rest
    rw [upcoming] at events
    have plain := @onNext_plain world answers.length state.toShared wrapped _ (orchestrates.plain events more).1
    have told := observe_append_of_unended running [.next event]
    have kept : (state.toShared.markTextMessageAsPending event).messages = state.messages := by
      cases event <;> rfl
    refine ⟨shown ++ [event], invariant.reacts ?_ ?_ ?_⟩
    · rw [plain.1]
      exact kept
    · rw [plain.1]
      change (observe (state.told ++ _)).1 = _
      rw [told, invariant.output, List.append_assoc]
      rfl
    · have still : (observe (onNext world answers.length state.toShared wrapped event).1.told).2 = .unended := by
        rw [plain.1]
        change (observe (state.told ++ _)).2 = _
        rw [told]
        rfl
      rw [still]
      exact .streaming (streaming.plain orchestrates upcoming more)

section Delegated

variable {made : Delegation} {results : List ToolCallResultEvent}

/-- The output of the runs so far, with one more run that delegated. -/
theorem flatten_concat (answers : List (List ToolCallResultEvent)) (results : List ToolCallResultEvent) :
    ((answers ++ [results]).mapIdx (delegatedRun world suppressed)).flatten =
      (answers.mapIdx (delegatedRun world suppressed)).flatten ++
        delegatedRun world suppressed answers.length results := by
  rw [List.mapIdx_concat, List.flatten_concat]

theorem historyAfter_concat (history : List Message) (answers : List (List ToolCallResultEvent))
    (results : List ToolCallResultEvent) :
    historyAfter history (answers ++ [results]) = historyAfter history answers ++ results.map resultMessage := by
  unfold historyAfter
  rw [List.flatMap_append, List.flatMap_cons, List.flatMap_nil, List.append_nil, List.append_assoc]

variable (invariant : Invariant world suppressed history state answers earlier wrapped
    ((world.events suppressed answers.length).dropLast ++ results.map .toolCallResult))
  (running : (observe state.told).2 = .unended)
  (delegating : Delegating world suppressed answers.length state.toShared wrapped made results)

include invariant running delegating

/-- All agents have answered, and the orchestrator is run again. -/
theorem Invariant.settles (orchestrates : Orchestrates world suppressed)
    (all : (made.callProms.entries.all fun call => call.2 = .answered) = true) :
    Invariant world suppressed history
      { toShared := settleRun world state.toShared made
        streams := earlier ++ [{ wrapped with delegation := some { made with settled := true } }] ++
          [wrapStream world suppressed (answers.length + 1)]
        histories := state.histories ++ [(settleRun world state.toShared made).messages] }
      (answers ++ [results]) (earlier ++ [{ wrapped with delegation := some { made with settled := true } }])
      (wrapStream world suppressed (answers.length + 1)) [] := by
  have complete := delegating.answers all
  have settled : settleRun world state.toShared made =
      { state.toShared with
        told := state.told ++ [Signal.next (.runFinished { threadId := world.threadId, runId := world.runId })]
        messages := state.messages ++ results.map resultMessage } := by
    unfold settleRun
    rw [finishTextMessages_idle delegating.texts, delegating.messages]
    rfl
  have told := observe_append_of_unended running
    [.next (.runFinished { threadId := world.threadId, runId := world.runId })]
  have messages : (settleRun world state.toShared made).messages = historyAfter history (answers ++ [results]) := by
    rw [settled, historyAfter_concat, ← invariant.messages]
  have length : (answers ++ [results]).length = answers.length + 1 := by simp
  constructor
  · rfl
  · rw [length, List.length_append, invariant.count]
    rfl
  · intro other member
    rcases List.mem_append.mp member with before | last
    · exact invariant.spent other before
    · rw [List.mem_singleton.mp last]
      refine ⟨⟨delegating.upcoming, ?_⟩, delegating.unfailing, ?_⟩
      · rintro _ ⟨⟩
        rfl
      · rintro _ ⟨⟩ id promise found
        exact of_decide_eq_true (List.all_eq_true.mp all (id, promise)
          ((made.callProms.mem_entries_iff id promise).mpr found))
  · exact messages
  · change state.histories ++ [(settleRun world state.toShared made).messages] = _
    rw [length, List.range_succ, List.map_append, messages, invariant.histories]
    congr 1
    · apply List.map_congr_left
      intro round member
      rw [List.take_append_of_le_length (Nat.le_of_lt_succ (List.mem_range.mp member))]
    · rw [List.map_singleton, ← length, List.take_length]
  · intro round found given
    rcases Nat.lt_or_ge round answers.length with before | after
    · rw [List.getElem?_append_left before] at given
      exact invariant.answered round found given
    · rw [List.getElem?_append_right after] at given
      have last : round = answers.length := by
        have inside := (List.getElem?_eq_some_iff.mp given).1
        simp only [List.length_singleton] at inside
        omega
      subst last
      rw [Nat.sub_self] at given
      cases given
      exact ⟨delegating.waited, complete.1⟩
  · rw [settled]
    change (observe (state.told ++ _)).1 = _
    rw [told, invariant.output, flatten_concat]
    unfold delegatedRun
    simp only [List.append_assoc, List.append_nil]
    rfl
  · have still : (observe (settleRun world state.toShared made).told).2 = .unended := by
      rw [settled]
      change (observe (state.told ++ _)).2 = _
      rw [told]
      rfl
    change Stands _ _ _ (settleRun world state.toShared made) _ _ (observe (settleRun world state.toShared made).told).2
    rw [still, length]
    rcases orchestrates.parts (answers.length + 1) with ⟨start, inside, finish, parts, -⟩
    rcases orchestrates.expands (answers.length + 1) with ⟨final, expands⟩
    refine .streaming ⟨rfl, ?_, rfl, ?_, ?_, ?_⟩
    · change world.events suppressed (answers.length + 1) ≠ []
      rw [parts]
      exact List.cons_ne_nil _ _
    · unfold wrapStream
      rw [expands]
    · rw [settled]
      exact complete.2
    · rw [settled]
      intro id present
      change state.pendingTextMessages.has id = true at present
      rw [delegating.texts] at present
      cases present

/-- A delegated call fails, and with it the run. -/
theorem Invariant.fails (error : String) :
    Invariant world suppressed history
      { toShared := failRun state.toShared error
        streams := earlier ++ [{ wrapped with delegation := some { made with settled := true } }]
        histories := state.histories }
      answers earlier { wrapped with delegation := some { made with settled := true } }
      ((world.events suppressed answers.length).dropLast ++ results.map .toolCallResult ++
        [Event.runError { message := error }]) := by
  have failed : failRun state.toShared error =
      { state.toShared with
        pendingA2ACalls := OrderedMap.empty
        told := state.told ++ [Signal.next (.runError { message := error }), Signal.error (.call error)] } := by
    unfold failRun
    rw [finishTextMessages_idle (by exact delegating.texts)]
    rfl
  have told := observe_append_of_unended running [.next (.runError { message := error }), .error (.call error)]
  apply invariant.reacts
  · rw [failed]
  · rw [failed]
    change (observe (state.told ++ _)).1 = _
    rw [told, invariant.output, List.append_assoc]
    rfl
  · have ended : (observe (failRun state.toShared error).told).2 = .failed (.call error) := by
      rw [failed]
      change (observe (state.told ++ _)).2 = _
      rw [told]
      rfl
    rw [ended]
    refine .settled ⟨delegating.upcoming, ?_⟩ nofun
      (.failed (by exact delegating.upcoming) delegating.waited delegating.answersSome error)
    rintro _ ⟨⟩
    rfl

/-- An agent answers. -/
theorem Invariant.isAnswered {toolCallId : String}
    (sent : (made.callProms.get? toolCallId).any CallPromise.isSent = true)
    (messageId content : String) :
    Invariant world suppressed history
      { toShared := (onAnswer state.toShared made toolCallId messageId content).1
        streams := earlier ++
          [{ wrapped with delegation := some (onAnswer state.toShared made toolCallId messageId content).2 }]
        histories := state.histories }
      answers earlier
      { wrapped with delegation := some (onAnswer state.toShared made toolCallId messageId content).2 }
      ((world.events suppressed answers.length).dropLast ++
        (results ++ [resultEvent messageId toolCallId content]).map .toolCallResult) := by
  have told := observe_append_of_unended running
    [.next (.toolCallResult (resultEvent messageId toolCallId content))]
  apply invariant.reacts
  · rfl
  · change (observe (state.told ++ _)).1 = _
    rw [told, invariant.output, List.map_append, ← List.append_assoc, List.append_assoc _ _ (List.map _ _)]
    simp only [List.append_assoc]
    rfl
  · have still : (observe (onAnswer state.toShared made toolCallId messageId content).1.told).2 = .unended := by
      change (observe (state.told ++ _)).2 = _
      rw [told]
      rfl
    rw [still]
    exact .delegating (delegating.answer sent messageId content)

/-- An agent fails. -/
theorem Invariant.isRejected {toolCallId : String}
    (sent : (made.callProms.get? toolCallId).any CallPromise.isSent = true) (error : String) :
    Invariant world suppressed history
      { toShared := (onReject state.toShared made toolCallId error).1
        streams := earlier ++ [{ wrapped with delegation := some (onReject state.toShared made toolCallId error).2 }]
        histories := state.histories }
      answers earlier { wrapped with delegation := some (onReject state.toShared made toolCallId error).2 }
      ((world.events suppressed answers.length).dropLast ++ results.map .toolCallResult) := by
  apply invariant.reacts
  · rfl
  · exact invariant.output
  · change Stands _ _ _ _ _ _ (observe state.told).2
    rw [running]
    exact .delegating (delegating.reject sent error)

/-- The stream of the last run ends while calls are pending. -/
theorem Invariant.isAwaited (pending : state.pendingA2ACalls.keys ≠ []) :
    Invariant world suppressed history
      { toShared := onEnd state.toShared wrapped.chunkError
        streams := earlier ++ [{ wrapped with ended := true }]
        histories := state.histories }
      answers earlier { wrapped with ended := true }
      ((world.events suppressed answers.length).dropLast ++ results.map .toolCallResult) := by
  have unchanged : onEnd state.toShared wrapped.chunkError = state.toShared := by
    rw [delegating.unfailing]
    exact if_neg pending
  rw [unchanged]
  apply invariant.reacts
  · rfl
  · exact invariant.output
  · rw [running]
    exact .delegating ⟨delegating.upcoming, delegating.unfailing, delegating.delegated, delegating.unsettled,
      delegating.calls, delegating.waited, delegating.texts, delegating.answered, delegating.once,
      delegating.messages, delegating.pending⟩

end Delegated

/-- Whatever happens in the last run. -/
theorem Invariant.lastReacts (orchestrates : Orchestrates world suppressed)
    (invariant : Invariant world suppressed history state answers earlier wrapped shown) {happening : Happening}
    (undisturbed : happening = .ending -> state.pendingA2ACalls.keys = [] -> (observe state.told).2 ≠ .unended)
    {reaction : Reaction} (reacts : react world answers.length state.toShared wrapped happening = some reaction) :
    ∃ answers others last after,
      Invariant world suppressed history
        { toShared := reaction.shared
          streams := if reaction.starts then
              earlier ++ [reaction.wrapped] ++ [wrapStream world suppressed (earlier ++ [reaction.wrapped]).length]
            else earlier ++ [reaction.wrapped]
          histories := if reaction.starts then state.histories ++ [reaction.shared.messages] else state.histories }
        answers others last after := by
  have count : (earlier ++ [reaction.wrapped]).length = answers.length + 1 := by
    rw [List.length_append, invariant.count]
    rfl
  rw [count]
  generalize ends : (observe state.told).2 = ending at undisturbed
  have stands := invariant.stands
  rw [ends] at stands
  cases stands with
  | streaming streaming =>
    cases happening with
    | event =>
      rcases react_event reacts with ⟨event, rest, upcoming, rfl⟩
      rcases invariant.hears orchestrates ends streaming upcoming with ⟨after, holds⟩
      exact ⟨answers, earlier, _, after, holds⟩
    | ending => exact absurd (react_ending reacts).1 streaming.more
    | answer toolCallId messageId content =>
      rcases react_answer reacts with ⟨made, delegated, -⟩
      rw [streaming.unmade] at delegated
      cases delegated
    | reject toolCallId error =>
      rcases react_reject reacts with ⟨made, delegated, -⟩
      rw [streaming.unmade] at delegated
      cases delegated
    | settle =>
      rcases react_settle reacts with ⟨made, delegated, -⟩
      rw [streaming.unmade] at delegated
      cases delegated
    | fail =>
      rcases react_fail reacts with ⟨made, error, delegated, -⟩
      rw [streaming.unmade] at delegated
      cases delegated
  | @delegating made results delegating =>
    cases happening with
    | event =>
      rcases react_event reacts with ⟨event, rest, upcoming, -⟩
      rw [delegating.upcoming] at upcoming
      cases upcoming
    | ending =>
      rcases react_ending reacts with ⟨-, rfl⟩
      exact ⟨answers, earlier, _, _, invariant.isAwaited ends delegating fun none => undisturbed rfl none rfl⟩
    | answer toolCallId messageId content =>
      rcases react_answer reacts with ⟨other, delegated, sent, rfl⟩
      rw [delegating.delegated] at delegated
      cases delegated
      exact ⟨answers, earlier, _, _, invariant.isAnswered ends delegating sent messageId content⟩
    | reject toolCallId error =>
      rcases react_reject reacts with ⟨other, delegated, sent, rfl⟩
      rw [delegating.delegated] at delegated
      cases delegated
      exact ⟨answers, earlier, _, _, invariant.isRejected ends delegating sent error⟩
    | settle =>
      rcases react_settle reacts with ⟨other, delegated, -, all, rfl⟩
      rw [delegating.delegated] at delegated
      cases delegated
      exact ⟨_, _, _, _, invariant.settles ends delegating orchestrates all⟩
    | fail =>
      rcases react_fail reacts with ⟨other, error, delegated, -, -, rfl⟩
      rw [delegating.delegated] at delegated
      cases delegated
      exact ⟨answers, earlier, _, _, invariant.fails ends delegating error⟩
  | settled closed ended last =>
    rcases react_closed closed reacts with ⟨nothing, closedAfter, only⟩
    rw [nothing]
    exact ⟨answers, earlier, reaction.wrapped, shown,
      invariant.ended (by rw [ends]; exact ended) only invariant.count invariant.spent closedAfter⟩

theorem Invariant.step (orchestrates : Orchestrates world suppressed)
    (invariant : Invariant world suppressed history state answers earlier wrapped shown) {action : Nat × Happening}
    (undisturbed : ¬ Disturbs state action) {after : A2aState}
    (taken : step world suppressed state action = some after) :
    ∃ answers earlier wrapped shown,
      Invariant world suppressed history after answers earlier wrapped shown := by
  rcases action with ⟨round, happening⟩
  have heeded : happening = .ending -> state.pendingA2ACalls.keys = [] -> (observe state.told).2 ≠ .unended :=
    fun ending none running => undisturbed ⟨ending, none, running⟩
  unfold A2a.step at taken
  rw [invariant.streams] at taken
  split at taken
  · cases taken
  rename_i other found
  split at taken
  · cases taken
  rename_i reaction reacts
  cases taken
  rcases Nat.lt_or_ge round earlier.length with before | last
  · rw [List.getElem?_append_left before] at found
    have spent := invariant.spent other (List.mem_of_getElem? found)
    rcases react_spent spent reacts with ⟨isEnding, nothing, spentAfter, heard⟩
    have undisturbed := heeded isEnding
    refine ⟨answers, earlier.set round reaction.wrapped, wrapped, shown, ?_⟩
    dsimp only
    rw [nothing, heard, List.set_append_left _ _ before]
    refine invariant.earlierEnds (by rw [List.length_set]; exact invariant.count) ?_ undisturbed
    intro one member
    rcases List.mem_or_eq_of_mem_set member with old | rfl
    · exact invariant.spent one old
    · exact spentAfter
  · have place : round = earlier.length := by
      have inside := (List.getElem?_eq_some_iff.mp found).1
      rw [List.length_append, List.length_singleton] at inside
      omega
    subst place
    rw [List.getElem?_append_right (Nat.le_refl _), Nat.sub_self] at found
    cases found
    have placed : (earlier ++ [wrapped]).set earlier.length reaction.wrapped = earlier ++ [reaction.wrapped] := by
      rw [List.set_append_right _ _ (Nat.le_refl _), Nat.sub_self]
      rfl
    dsimp only
    rw [placed]
    rw [invariant.count] at reacts
    exact invariant.lastReacts orchestrates heeded reacts

end Whole

/-! ## A delegation -/

namespace Sample

def delegating : List Event :=
  [.runStarted { threadId := "t", runId := "first" },
    .toolCallStart { toolCallId := "c", toolCallName := "send_message_to_a2a_agent" },
    .toolCallArgs { toolCallId := "c", delta := "to a" },
    .toolCallEnd { toolCallId := "c" },
    .runFinished { threadId := "t", runId := "first", result := some (.string "delegated") }]

def concluding : List Event :=
  [.runStarted { threadId := "t", runId := "second" }, .runFinished { threadId := "t", runId := "second" }]

def world : A2aWorld where
  threadId := "t"
  runId := "r"
  downstream
    | 0 => delegating
    | _ => concluding
  heldArguments _ _ := none
  parse _ := .ok (.object [("agentName", .string "a"), ("task", .string "say hello")])

def question : Message := { id := "q", role := .user }

theorem complete_concluding : CompleteRun concluding :=
  ⟨by decide, ⟨_, _, rfl, by decide⟩, ⟨_, rfl, rfl⟩⟩

theorem orchestrates : Orchestrates world false where
  complete
    | 0 => ⟨by decide, ⟨_, _, rfl, by decide⟩, ⟨_, rfl, rfl⟩⟩
    | _ + 1 => complete_concluding
  finishes
    | 0 => ⟨_, rfl⟩
    | _ + 1 => ⟨_, rfl⟩
  expands
    | 0 => ⟨{}, rfl⟩
    | _ + 1 => ⟨{}, rfl⟩

/-- The first run delegates, and the agent answers. -/
def untilAnswered : List (Nat × Happening) :=
  [(0, .event), (0, .event), (0, .event), (0, .event), (0, .event), (0, .answer "c" "m" "hello")]

/-- The orchestrator is run again, and finishes. -/
def untilConcluded : List (Nat × Happening) :=
  [(0, .settle), (1, .event), (1, .event)]

/-- What a subscriber has been shown in the end, and whether that is all. -/
def shownAfter (actions : List (Nat × Happening)) : Option (List Event × Ending A2aError) :=
  (runActions (step world false) (start world false [question]) actions).map fun state => observe state.told

def historiesAfter (actions : List (Nat × Happening)) : Option (List (List Role)) :=
  (runActions (step world false) (start world false [question]) actions).map fun state =>
    state.histories.map fun history => history.map Message.role

end Sample

end A2a
end Middleware
end AgUi
