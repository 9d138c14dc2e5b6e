import AgUi.Apply.Uniqueness

namespace AgUi
namespace Apply

open Library Protocol

/-!
# Tool calls stay distinct and survive a replay

A call is looked for before it is added, so streams keep every tool call id in
one place.  A run's input does not look: it adds the messages that are missing
with whatever calls they hold.  Along a stream without snapshots the calls stay
distinct exactly if no input adds a call that is held already.

A start for a call that exists renames it and merges its metadata.  Nothing
else of the list changes.
-/

/-- The ids of all the tool calls that messages hold. -/
def callIds (messages : List Message) : List String :=
  (messages.flatMap Message.calls).map ToolCall.id

/-- No two calls of the messages have one id. -/
def DistinctCalls (messages : List Message) : Prop :=
  (callIds messages).Nodup

instance (messages : List Message) : Decidable (DistinctCalls messages) :=
  inferInstanceAs (Decidable (callIds messages).Nodup)

/-! ## Distinct calls, id by id -/

theorem callIds_append (first second : List Message) :
    callIds (first ++ second) = callIds first ++ callIds second := by
  rw [callIds, List.flatMap_append, List.map_append]
  rfl

variable (messages : List Message)

theorem count_callIds (toolCallId : String) :
    (callIds messages).count toolCallId = (placements messages toolCallId).length := by
  induction messages with
  | nil => rfl
  | cons message rest ih =>
    rw [← List.singleton_append, callIds_append, List.count_append, ih, placements_append,
      List.length_append]
    congr 1
    rw [callIds, placements, List.flatMap_singleton, List.flatMap_singleton, holdings, List.filter_map,
      List.length_map, List.count, List.countP_map, List.countP_eq_length_filter]
    rfl

theorem distinctCalls_iff :
    DistinctCalls messages ↔ ∀ toolCallId, (placements messages toolCallId).length ≤ 1 := by
  rw [DistinctCalls, List.nodup_iff_count_le_one]
  simp only [count_callIds]

theorem mem_callIds_iff (toolCallId : String) :
    toolCallId ∈ callIds messages ↔ findCall messages toolCallId ≠ none := by
  rw [← List.count_pos_iff, count_callIds, List.length_pos_iff, ne_eq, ne_eq, findCall_eq_none_iff]

/-! ## What an input adds -/

/-- The messages of a run's input that are not in the list. -/
def additions (messages : List Message) : List Message -> List Message
  | [] => []
  | message :: rest =>
    match findMessage messages message.id with
    | none => message :: additions (messages ++ [message.withoutNullTag]) rest
    | some _ => additions messages rest

theorem appendMissing_eq (messages input : List Message) :
    appendMissing messages input = messages ++ (additions messages input).map Message.withoutNullTag := by
  induction input generalizing messages with
  | nil => exact (List.append_nil messages).symm
  | cons message rest ih =>
    rw [appendMissing, additions]
    cases findMessage messages message.id with
    | none =>
      dsimp only
      rw [ih, List.append_assoc]
      rfl
    | some found => exact ih messages

theorem callIds_withoutNullTag :
    callIds (messages.map Message.withoutNullTag) = callIds messages := by
  rw [callIds, List.flatMap_map]
  rfl

/-- The event adds a message with a tool call that the list, or a message added
with it, holds already. -/
def AddsHeldCall (messages : List Message) : Event -> Prop
  | .runStarted event =>
    ¬ DistinctCalls (additions messages (Verify.echoed event)) ∨
      ∃ toolCallId ∈ callIds messages,
        toolCallId ∈ callIds (additions messages (Verify.echoed event))
  | _ => False

theorem distinctCalls_runStarted_iff (state : ApplyState) (event : RunStartedEvent)
    (distinct : DistinctCalls state.messages) :
    DistinctCalls (runStarted state event).1.messages ↔ ¬ AddsHeldCall state.messages (.runStarted event) := by
  rw [messages_runStarted, appendMissing_eq, DistinctCalls, callIds_append, callIds_withoutNullTag]
  constructor
  · rintro nodup (repeated | ⟨toolCallId, held, added⟩)
    · exact repeated (List.nodup_append.mp nodup).2.1
    · exact (List.nodup_append.mp nodup).2.2 toolCallId held toolCallId added rfl
  · intro apart
    rcases not_or.mp apart with ⟨own, disjoint⟩
    refine List.nodup_append.mpr ⟨distinct, not_not.mp own, ?_⟩
    rintro toolCallId held other added rfl
    exact disjoint ⟨toolCallId, held, added⟩

/-! ## Steps -/

theorem length_modifyHead {A : Type} (change : A -> A) (items : List A) :
    (items.modifyHead change).length = items.length := by
  cases items <;> rfl

/-- An activity written over a message may take calls along, and brings none. -/
theorem length_placements_activitySnapshot (state : ApplyState) (event : ActivitySnapshotEvent)
    (toolCallId : String) :
    (placements (activitySnapshot state event).1.messages toolCallId).length ≤
      (placements state.messages toolCallId).length := by
  by_cases idle : ∀ target, findMessage state.messages event.messageId = some target ->
      target.role ≠ .activity -> event.replace.getD true = true -> holdings target = []
  · rw [placements_activitySnapshot state toolCallId event idle]
  · simp only [not_forall] at idle
    rcases idle with ⟨target, search, streamed, replaces, _⟩
    rcases updateFirst.exists_split search with ⟨before, after, whole, changed, _, _⟩
    have written : (activitySnapshot state event).1.messages =
        before ++ (activityMessage event).applyEventMetadata event.toBaseEvent :: after := by
      simp only [activitySnapshot, search, if_neg streamed, replaces, if_true]
      exact changed
    rw [written, whole, placements_append, placements_append, placements_cons_of_none rfl, placements_cons,
      List.length_append, List.length_append, List.length_append]
    omega

theorem length_placements_toolCallStart (state : ApplyState) (event : ToolCallStartEvent) (toolCallId : String)
    (single : (placements state.messages toolCallId).length ≤ 1) :
    (placements (toolCallStart state event).1.messages toolCallId).length ≤ 1 := by
  rw [placements_toolCallStart]
  split
  · cases placed : placements state.messages toolCallId with
    | nil => exact Nat.le_refl 1
    | cons placement rest =>
      rw [placed] at single
      exact single
  · exact single

/-- One step keeps the calls distinct exactly if it adds none that is held. -/
theorem distinctCalls_reduce_iff (applyPatch : ApplyPatch) (state : ApplyState) (event : Event)
    (unsnapped : ∀ snapshot, event ≠ .messagesSnapshot snapshot) (distinct : DistinctCalls state.messages) :
    DistinctCalls (reduce applyPatch state event).1.messages ↔ ¬ AddsHeldCall state.messages event := by
  have kept : (∀ toolCallId, (placements (reduce applyPatch state event).1.messages toolCallId).length ≤
      (placements state.messages toolCallId).length) ->
      DistinctCalls (reduce applyPatch state event).1.messages := by
    intro fewer
    rw [distinctCalls_iff] at distinct ⊢
    exact fun toolCallId => (fewer toolCallId).trans (distinct toolCallId)
  cases event with
  | runStarted event => exact distinctCalls_runStarted_iff state event distinct
  | messagesSnapshot event => exact absurd rfl (unsnapped event)
  | toolCallStart event =>
    refine iff_of_true ?_ not_false
    rw [distinctCalls_iff] at distinct ⊢
    exact fun toolCallId => length_placements_toolCallStart state event toolCallId (distinct toolCallId)
  | toolCallArgs event | toolCallEnd event =>
    refine iff_of_true (kept fun toolCallId => ?_) not_false
    first | rw [reduce, placements_toolCallArgs] | rw [reduce, placements_toolCallEnd]
    split
    · rw [length_modifyHead]
    · exact Nat.le_refl _
  | toolCallResult event =>
    exact iff_of_true (kept fun toolCallId => (placements_toolCallResult state event toolCallId ▸ Nat.le_refl _))
      not_false
  | textMessageStart event | reasoningMessageStart event =>
    refine iff_of_true (kept fun toolCallId => Nat.le_of_eq (congrArg List.length ?_)) not_false
    exact placements_startMessage state toolCallId (by rfl) event.toBaseEvent
  | textMessageContent event | reasoningMessageContent event =>
    exact iff_of_true (kept fun toolCallId =>
      placements_appendMessage state toolCallId event.messageId event.delta event.toBaseEvent ▸ Nat.le_refl _)
      not_false
  | textMessageEnd event | reasoningMessageEnd event =>
    exact iff_of_true (kept fun toolCallId =>
      placements_finishMessage state toolCallId event.messageId event.toBaseEvent ▸ Nat.le_refl _) not_false
  | activitySnapshot event =>
    exact iff_of_true (kept (length_placements_activitySnapshot state event)) not_false
  | activityDelta event =>
    refine iff_of_true (kept fun toolCallId => ?_) not_false
    exact (placements_activityDelta state toolCallId applyPatch event) ▸ Nat.le_refl _
  | reasoningEncryptedValue event =>
    refine iff_of_true (kept fun toolCallId => ?_) not_false
    have same := congrArg List.length (placements_reasoningEncryptedValue state toolCallId event)
    rw [List.length_map, List.length_map] at same
    exact same.le
  | stateDelta event =>
    refine iff_of_true (kept fun toolCallId => ?_) not_false
    rw [reduce, stateDelta]
    split
    · exact Nat.le_refl _
    · exact Nat.le_refl _
  | _ => exact iff_of_true (kept fun _ => Nat.le_refl _) not_false

/-! ## Starts that are replayed -/

/-- What a start of a call that is there leaves alone. -/
structure Replayed (toolCallId : String) (before after : List Message) : Prop where
  length : after.length = before.length
  /-- Every call is still in its place, with its arguments. -/
  arguments : after.map (fun message => (message.id, message.calls.map fun call =>
      (call.id, call.function.arguments))) =
    before.map fun message => (message.id, message.calls.map fun call => (call.id, call.function.arguments))
  /-- The other calls are as they were. -/
  others : after.map (fun message => (message.id, message.calls.filter fun call => call.id ≠ toolCallId)) =
    before.map fun message => (message.id, message.calls.filter fun call => call.id ≠ toolCallId)

theorem length_updateFirst {A : Type} (test : A -> Bool) (change : A -> A) (items : List A) :
    (updateFirst test change items).length = items.length := by
  have same := congrArg List.length (@updateFirst.map_of_same A Unit test change (fun _ => ()) (fun _ _ => rfl) items)
  rwa [List.length_map, List.length_map] at same

theorem replayed_updateToolCall {toolCallId : String} {change : ToolCall -> ToolCall}
    (keeps : ∀ call, (change call).id = call.id)
    (silent : ∀ call, (change call).function.arguments = call.function.arguments) (messages : List Message) :
    Replayed toolCallId messages (updateToolCall toolCallId change messages) where
  length := length_updateFirst _ _ _
  arguments := by
    apply updateFirst.map_of_same
    intro message _
    rw [calls_updateCall]
    congr 1
    apply updateFirst.map_of_same
    intro call _
    rw [keeps, silent]
  others := by
    apply updateFirst.map_of_same
    intro message _
    rw [calls_updateCall]
    congr 1
    apply updateFirst.filter_of_apart
    intro call found
    rw [keeps, of_decide_eq_true found]
    simp

/-- A start of a call that is there already, wherever it now says it belongs. -/
theorem replayed_toolCallStart (state : ApplyState) (event : ToolCallStartEvent)
    (held : event.toolCallId ∈ callIds state.messages) :
    Replayed event.toolCallId state.messages (toolCallStart state event).1.messages := by
  rw [mem_callIds_iff] at held
  rcases Option.ne_none_iff_exists'.mp held with ⟨call, search⟩
  rw [toolCallStart_of_some search]
  apply replayed_updateToolCall
  · intro call
    rfl
  · intro call
    rfl

/-! ## Streams -/

/-- After every prefix of the stream the calls are distinct. -/
def DistinctCallsAlong (applyPatch : ApplyPatch) (initial : ApplyState) (events : List Event) : Prop :=
  ∀ past future mutations state, events = past ++ future ->
    Stage.Runs (defaultApplyEvents applyPatch) initial past mutations state -> DistinctCalls state.messages

/-- No run's input adds a call that is held already. -/
def NeverAddsHeldCall (applyPatch : ApplyPatch) (initial : ApplyState) (events : List Event) : Prop :=
  ∀ past event future mutations state, events = past ++ event :: future ->
    Stage.Runs (defaultApplyEvents applyPatch) initial past mutations state ->
    ¬ AddsHeldCall state.messages event

theorem not_addsHeldCall_chunk (event : Event) (chunk : event.isChunk = true) :
    ¬ AddsHeldCall messages event := by
  cases event with
  | runStarted event => cases chunk
  | _ => exact not_false

/-- Along a stream without snapshots every call id stays in one place, exactly
if no input adds one that is held; and wherever a call is there, another start
for it leaves its arguments, the messages and all other calls alone. -/
theorem toolCalls_unique_replaySafe (applyPatch : ApplyPatch) {initial : ApplyState} {events : List Event}
    (distinct : DistinctCalls initial.messages)
    (unsnapped : ∀ snapshot, .messagesSnapshot snapshot ∉ events) :
    (DistinctCallsAlong applyPatch initial events ↔ NeverAddsHeldCall applyPatch initial events) ∧
      ∀ past future mutations state, events = past ++ future ->
        Stage.Runs (defaultApplyEvents applyPatch) initial past mutations state ->
        ∀ start : ToolCallStartEvent, start.toolCallId ∈ callIds state.messages ->
          Replayed start.toolCallId state.messages (reduce applyPatch state (.toolCallStart start)).1.messages := by
  constructor
  · apply along_iff_never applyPatch distinct not_addsHeldCall_chunk
    intro state event member now
    apply distinctCalls_reduce_iff applyPatch state event _ now
    rintro snapshot rfl
    exact unsnapped snapshot member
  · intro past future mutations state _ _ start held
    exact replayed_toolCallStart state start held

/-- A call is started again after its result, under another parent. -/
def restartedStream : List Event :=
  [.runStarted { threadId := "t", runId := "r" },
   .toolCallStart { toolCallId := "c", toolCallName := "search" },
   .toolCallArgs { toolCallId := "c", delta := "{}" },
   .toolCallEnd { toolCallId := "c" },
   .toolCallResult { messageId := "m", toolCallId := "c", content := .text "found" },
   .toolCallStart { toolCallId := "c", toolCallName := "find", parentMessageId := some "u" },
   .toolCallEnd { toolCallId := "c" },
   .runFinished { threadId := "t", runId := "r" }]

example : (replay (fun _ _ => none) { messages := [{ id := "u", role := .user }] } restartedStream).messages.map
    (fun message => (message.id, message.calls.map fun call => (call.id, call.function.arguments))) =
      [("u", []), ("c", [("c", "{}")]), ("m", [])] := by
  decide

theorem toolCalls_unique_replaySafe_restarted :
    (DistinctCallsAlong (fun _ _ => none) { messages := [{ id := "u", role := .user }] } restartedStream ↔
        NeverAddsHeldCall (fun _ _ => none) { messages := [{ id := "u", role := .user }] } restartedStream) ∧
      ∀ past future mutations state, restartedStream = past ++ future ->
        Stage.Runs (defaultApplyEvents (fun _ _ => none)) { messages := [{ id := "u", role := .user }] } past mutations
          state ->
        ∀ start : ToolCallStartEvent, start.toolCallId ∈ callIds state.messages ->
          Replayed start.toolCallId state.messages (reduce (fun _ _ => none) state (.toolCallStart start)).1.messages :=
  toolCalls_unique_replaySafe (fun _ _ => none) (by decide) (by
    intro snapshot member
    simp [restartedStream] at member)

/-- The input of the second run has the call of the first in another message. -/
def rehousedCall : List Event :=
  [.runStarted
    { threadId := "t"
      runId := "r"
      input := some
        { messages :=
            [{ id := "n", role := .assistant, toolCalls := some [{ id := "c", function := ⟨"search", "{}"⟩ }] }] } },
   .runFinished { threadId := "t", runId := "r" }]

def housedCall : ApplyState where
  messages := [{ id := "m", role := .assistant, toolCalls := some [{ id := "c", function := ⟨"search", "{}"⟩ }] }]

/-- A replayed message brings a call that another message holds. -/
theorem distinctCalls_fails :
    Verify.accepted rehousedCall = true ∧ DistinctCalls housedCall.messages ∧
      (∀ snapshot, .messagesSnapshot snapshot ∉ rehousedCall) ∧
      ¬ DistinctCallsAlong (fun _ _ => none) housedCall rehousedCall := by
  refine ⟨by decide, by decide, ?_, ?_⟩
  · intro snapshot member
    simp [rehousedCall] at member
  · intro along
    rcases (exists_runs_iff (fun _ _ => none) housedCall _ rehousedCall).mpr ⟨by decide, rfl⟩ with
      ⟨mutations, runs⟩
    have twice : ¬ DistinctCalls (replay (fun _ _ => none) housedCall rehousedCall).messages := by
      decide
    exact twice (along rehousedCall [] mutations _ (List.append_nil _).symm runs)

end Apply
end AgUi
