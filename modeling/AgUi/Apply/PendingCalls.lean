import AgUi.Library.Grouping
import AgUi.Apply.Reducer

namespace AgUi
namespace Apply

open Library Protocol

/-!
# The pending tool calls of a finished run

The reducer keeps a tally of the calls a run has started and of those it has
answered, and starts a new one with each run.  Looked at from the stream, the
tally is a function of the events since the latest `RUN_STARTED`, whatever
came before them and whatever the messages hold.
-/

/-! ## What the stream says -/

/-- The events after the latest `RUN_STARTED`. -/
def sinceRunStarted (past : List Event) : List Event :=
  (past.reverse.takeWhile fun event => event.type ≠ .runStarted).reverse

def startedCallId : Event -> Option String
  | .toolCallStart e => some e.toolCallId
  | _ => none

def answeredCallId : Event -> Option String
  | .toolCallResult e => some e.toolCallId
  | _ => none

/-- The calls started in the latest run, each at its first start. -/
def startedCalls (past : List Event) : List String :=
  ((sinceRunStarted past).filterMap startedCallId).eraseDups

/-- The calls the current run has answered. -/
def answeredCalls (past : List Event) : List String :=
  (sinceRunStarted past).filterMap answeredCallId

/-- The calls the latest run has started and not answered. -/
def pendingCalls (past : List Event) : List String :=
  (startedCalls past).filter fun id => id ∉ answeredCalls past

theorem sinceRunStarted_snoc (past : List Event) (event : Event) :
    sinceRunStarted (past ++ [event]) =
      if event.type = .runStarted then [] else sinceRunStarted past ++ [event] := by
  unfold sinceRunStarted
  rw [List.reverse_append, List.reverse_singleton, List.singleton_append, List.takeWhile_cons]
  by_cases starts : event.type = .runStarted <;> simp [starts]

/-! ## The tally -/

/-- The tally stands for the events of the latest run. -/
structure Tallies (past : List Event) (state : ApplyState) : Prop where
  started : state.runToolCallIds = startedCalls past
  answered : ∀ id, state.answeredToolCallIds.has id = true ↔ id ∈ answeredCalls past

/-- Two states with one tally. -/
structure SameTally (state other : ApplyState) : Prop where
  started : other.runToolCallIds = state.runToolCallIds
  answered : other.answeredToolCallIds = state.answeredToolCallIds

section Handlers

variable (state : ApplyState)

theorem sameTally_emitIf (changed : Bool) (messages : List Message) :
    SameTally state (state.emitIf changed messages).1 := by
  cases changed <;> exact ⟨rfl, rfl⟩

theorem sameTally_startMessage (fresh : Message) (event : BaseEvent) :
    SameTally state (state.startMessage fresh event).1 := by
  unfold ApplyState.startMessage
  split
  · exact ⟨rfl, rfl⟩
  · split
    · exact ⟨rfl, rfl⟩
    · exact sameTally_emitIf state _ _

theorem sameTally_appendMessage (messageId delta : String) (event : BaseEvent) :
    SameTally state (state.appendMessage messageId delta event).1 := by
  unfold ApplyState.appendMessage
  split
  · exact ⟨rfl, rfl⟩
  · split <;> exact ⟨rfl, rfl⟩

theorem sameTally_finishMessage (messageId : String) (event : BaseEvent) :
    SameTally state (state.finishMessage messageId event).1 := by
  unfold ApplyState.finishMessage
  split
  · exact ⟨rfl, rfl⟩
  · split
    · exact ⟨rfl, rfl⟩
    · exact sameTally_emitIf state _ _

/-- The events that move the tally. -/
def movesTally : Event -> Bool
  | .toolCallStart _ => true
  | .toolCallResult _ => true
  | .runStarted _ => true
  | _ => false

theorem sameTally_reduce (applyPatch : ApplyPatch) {event : Event} (still : movesTally event = false) :
    SameTally state (reduce applyPatch state event).1 := by
  cases event with
  | toolCallStart _ | toolCallResult _ | runStarted _ => cases still
  | textMessageStart e | reasoningMessageStart e => exact sameTally_startMessage state _ _
  | textMessageContent e | reasoningMessageContent e => exact sameTally_appendMessage state _ _ _
  | textMessageEnd e | reasoningMessageEnd e => exact sameTally_finishMessage state _ _
  | toolCallArgs e =>
    rw [reduce, toolCallArgs]
    split <;> exact ⟨rfl, rfl⟩
  | toolCallEnd e =>
    rw [reduce, toolCallEnd]
    split
    · exact ⟨rfl, rfl⟩
    · exact sameTally_emitIf state _ _
  | stateDelta e =>
    rw [reduce, stateDelta]
    split <;> exact ⟨rfl, rfl⟩
  | activitySnapshot e =>
    rw [reduce, activitySnapshot]
    split
    · exact ⟨rfl, rfl⟩
    · split
      · exact ⟨rfl, rfl⟩
      · split <;> exact ⟨rfl, rfl⟩
  | activityDelta e =>
    rw [reduce, activityDelta]
    split
    · exact ⟨rfl, rfl⟩
    · split
      · dsimp only
        split
        · exact ⟨rfl, rfl⟩
        · exact sameTally_emitIf state _ _
      · exact ⟨rfl, rfl⟩
  | reasoningEncryptedValue e =>
    rw [reduce, reasoningEncryptedValue]
    split
    · exact sameTally_emitIf state _ _
    · split
      · exact ⟨rfl, rfl⟩
      · split <;> exact ⟨rfl, rfl⟩
  | _ => exact ⟨rfl, rfl⟩

/-- A start puts its call on the tally once. -/
theorem started_toolCallStart (event : ToolCallStartEvent) :
    (toolCallStart state event).1.runToolCallIds =
        (if event.toolCallId ∈ state.runToolCallIds then state.runToolCallIds
          else state.runToolCallIds ++ [event.toolCallId]) ∧
      (toolCallStart state event).1.answeredToolCallIds = state.answeredToolCallIds := by
  unfold toolCallStart
  by_cases known : event.toolCallId ∈ state.runToolCallIds
  · simp only [List.contains_eq_mem, known, decide_true, if_true]
    split
    · exact ⟨(sameTally_emitIf state _ _).started, (sameTally_emitIf state _ _).answered⟩
    · exact ⟨rfl, rfl⟩
  · simp only [List.contains_eq_mem, known, decide_false, Bool.false_eq_true, if_false]
    split
    · exact ⟨(sameTally_emitIf _ _ _).started, (sameTally_emitIf _ _ _).answered⟩
    · exact ⟨rfl, rfl⟩

end Handlers

/-! ### Histories -/

section Histories

variable (past : List Event) {event : Event}

theorem startedCalls_snoc (inside : event.type ≠ .runStarted) :
    startedCalls (past ++ [event]) =
      ((sinceRunStarted past).filterMap startedCallId ++ (startedCallId event).toList).eraseDups := by
  rw [startedCalls, sinceRunStarted_snoc, if_neg inside, List.filterMap_append]
  cases started : startedCallId event <;> simp [started]

theorem answeredCalls_snoc (inside : event.type ≠ .runStarted) :
    answeredCalls (past ++ [event]) = answeredCalls past ++ (answeredCallId event).toList := by
  rw [answeredCalls, sinceRunStarted_snoc, if_neg inside, List.filterMap_append, answeredCalls]
  cases answered : answeredCallId event <;> simp [answered]

end Histories

theorem tallies_initial (messages : List Message) (document : Json) :
    Tallies [] { messages := messages, state := document } where
  started := rfl
  answered := fun _ => by simp [answeredCalls, sinceRunStarted]

theorem tallies_reduce {past : List Event} {state : ApplyState} (tallies : Tallies past state)
    (applyPatch : ApplyPatch) (event : Event) :
    Tallies (past ++ [event]) (reduce applyPatch state event).1 := by
  by_cases moves : movesTally event = true
  · cases event with
    | toolCallStart e =>
      have inside : (Event.toolCallStart e).type ≠ .runStarted := by intro same; cases same
      have step := started_toolCallStart state e
      constructor
      · have known : e.toolCallId ∈ startedCalls past ↔
            e.toolCallId ∈ (sinceRunStarted past).filterMap startedCallId := List.mem_eraseDups
        rw [startedCalls_snoc past inside]
        refine step.1.trans ?_
        simp only [startedCallId, Option.toList_some, eraseDups_concat, tallies.started, known]
        rfl
      · intro id
        rw [answeredCalls_snoc past inside]
        have same : (reduce applyPatch state (.toolCallStart e)).1.answeredToolCallIds =
            state.answeredToolCallIds := step.2
        rw [same, tallies.answered]
        simp [answeredCallId]
    | toolCallResult e =>
      have inside : (Event.toolCallResult e).type ≠ .runStarted := by intro same; cases same
      constructor
      · rw [startedCalls_snoc past inside]
        simp only [startedCallId, Option.toList_none, List.append_nil]
        exact tallies.started
      · intro id
        rw [answeredCalls_snoc past inside]
        have added : (reduce applyPatch state (.toolCallResult e)).1.answeredToolCallIds =
            state.answeredToolCallIds.add e.toolCallId := rfl
        rw [added, OrderedSet.has_add, Bool.or_eq_true, tallies.answered]
        simp [answeredCallId, or_comm]
    | runStarted e =>
      have cleared : (reduce applyPatch state (.runStarted e)).1.runToolCallIds = [] ∧
          (reduce applyPatch state (.runStarted e)).1.answeredToolCallIds = OrderedMap.empty := by
        rw [reduce, runStarted]
        split <;> exact ⟨rfl, rfl⟩
      have fresh : sinceRunStarted (past ++ [Event.runStarted e]) = [] :=
        (sinceRunStarted_snoc past _).trans (if_pos rfl)
      constructor
      · rw [cleared.1, startedCalls, fresh]
        rfl
      · intro id
        rw [cleared.2, answeredCalls, fresh]
        simp
    | _ => cases moves
  · have still : movesTally event = false := Bool.eq_false_iff.mpr moves
    have same := sameTally_reduce state applyPatch still
    have inside : event.type ≠ .runStarted := by
      intro starts
      cases event <;> first | (cases still; done) | cases starts
    have notStart : startedCallId event = none := by
      cases event <;> first | rfl | cases still
    have notAnswer : answeredCallId event = none := by
      cases event <;> first | rfl | cases still
    constructor
    · rw [startedCalls_snoc past inside, notStart, same.started, tallies.started]
      simp [startedCalls]
    · intro id
      rw [answeredCalls_snoc past inside, notAnswer, same.answered, tallies.answered]
      simp

/-- Along every stream the tally is that of the latest run. -/
theorem tallies_replay (applyPatch : ApplyPatch) (messages : List Message) (document : Json)
    (past : List Event) :
    Tallies past (replay applyPatch { messages := messages, state := document } past) := by
  induction past using List.reverseRecOn with
  | nil => exact tallies_initial messages document
  | append_singleton past event ih =>
    rw [replay_append]
    exact tallies_reduce ih applyPatch event

/-- The pending calls reported for a successful run that names none are the
calls it started and did not answer, in order of first start. -/
theorem pendingToolCallIds_exact (applyPatch : ApplyPatch) (messages : List Message) (document : Json)
    (past : List Event) (finished : RunFinishedEvent) (result : Option Json) (pendingToolCallIds : List String)
    (reports : finishedParams (replay applyPatch { messages := messages, state := document } past) finished =
      .success result pendingToolCallIds)
    (unnamed : namedPendingToolCallIds finished = []) :
    pendingToolCallIds = pendingCalls past ∧ pendingToolCallIds.Nodup := by
  have tallies := tallies_replay applyPatch messages document past
  have tally : pendingToolCallIdsOf (replay applyPatch { messages := messages, state := document } past) finished =
      pendingCalls past := by
    rw [pendingToolCallIdsOf, unnamed, List.isEmpty_nil, if_pos rfl, tallies.started, pendingCalls]
    apply List.filter_congr
    intro id _
    rw [Bool.eq_iff_iff, Bool.not_eq_true', ← Bool.not_eq_true, tallies.answered, decide_eq_true_iff]
  have same : pendingToolCallIds = pendingCalls past := by
    rw [finishedParams] at reports
    split at reports
    · cases reports
    · cases reports
    · injection reports with _ listed
      rw [← listed, tally]
  exact ⟨same, same ▸ (nodup_eraseDups _).filter _⟩

/-- A run with a restarted call, an answered one and one answered early,
after a run that failed with a call open. -/
def secondRun : List Event :=
  [.runStarted { threadId := "t", runId := "r" },
    .toolCallStart { toolCallId := "a", toolCallName := "f" },
    .runError { message := "failed" },
    .runStarted { threadId := "t", runId := "s" },
    .toolCallStart { toolCallId := "b", toolCallName := "f" },
    .toolCallResult { messageId := "m", toolCallId := "c", content := .text "early" },
    .toolCallEnd { toolCallId := "b" },
    .toolCallStart { toolCallId := "c", toolCallName := "f" },
    .toolCallEnd { toolCallId := "c" },
    .toolCallStart { toolCallId := "d", toolCallName := "f" },
    .toolCallEnd { toolCallId := "d" },
    .toolCallStart { toolCallId := "b", toolCallName := "g" },
    .toolCallEnd { toolCallId := "b" }]

theorem pendingToolCallIds_exact_secondRun : ["b", "d"] = pendingCalls secondRun ∧ ["b", "d"].Nodup :=
  pendingToolCallIds_exact (fun _ _ => none) [] .null secondRun { threadId := "t", runId := "s" } none
    ["b", "d"] rfl rfl

end Apply
end AgUi
