import AgUi.Apply.Effects
import AgUi.Verify.Verifier

namespace AgUi
namespace Apply

open Library Protocol

/-!
# Message ids stay distinct

Most events that insert a message look for its id first.  Two do not: a tool
result, and a tool call start that finds no assistant message under its parent
id and falls back to a message under the id of the call.  The ids of a list
stay distinct over a stream exactly when neither ever reuses an id.
-/

def DistinctIds (messages : List Message) : Prop :=
  (messages.map Message.id).Nodup

instance (messages : List Message) : Decidable (DistinctIds messages) :=
  inferInstanceAs (Decidable (messages.map Message.id).Nodup)

/-- The event inserts a message under an id that is in use. -/
def ReusesId (messages : List Message) : Event -> Prop
  | .toolCallResult event => event.messageId ∈ messages.map Message.id
  | .toolCallStart event =>
    findCall messages event.toolCallId = none ∧
    event.toolCallId ∈ messages.map Message.id ∧
    ∀ parent, event.parentMessageId = some parent -> parent ≠ "" ->
      ∃ found, findMessage messages parent = some found ∧ found.role ≠ .assistant
  | _ => False

/-! ## Distinct ids, id by id -/

variable (messages : List Message)

theorem count_ids (id : String) :
    (messages.map Message.id).count id = (faces messages id).length := by
  induction messages with
  | nil => rfl
  | cons message rest ih =>
    rw [List.map_cons, List.count_cons, faces_cons, List.length_append, ih, Nat.add_comm]
    by_cases same : message.id = id <;> simp [same]

theorem distinctIds_iff :
    DistinctIds messages ↔ ∀ id, (faces messages id).length ≤ 1 := by
  rw [DistinctIds, List.nodup_iff_count_le_one]
  simp only [count_ids]

theorem mem_ids_iff (id : String) :
    id ∈ messages.map Message.id ↔ faces messages id ≠ [] := by
  rw [← List.count_pos_iff, count_ids, List.length_pos_iff]

/-! ## Steps in place -/

theorem length_touch (change : Message -> Message) (messages : List Message) :
    (touch change messages).length = messages.length := by
  cases messages with
  | nil => rfl
  | cons message rest =>
    rw [touch]
    split <;> rfl

theorem length_beginWith (fresh : Message) (event : BaseEvent) {messages : List Message}
    (single : messages.length ≤ 1) : (beginWith fresh event messages).length ≤ 1 := by
  cases messages with
  | nil => exact Nat.le_refl 1
  | cons message rest =>
    exact (length_touch (fun message => message.applyEventMetadata event) (message :: rest)).trans_le single

theorem length_snapshotActivity (event : ActivitySnapshotEvent) {messages : List Message}
    (single : messages.length ≤ 1) : (snapshotActivity event messages).length ≤ 1 := by
  cases messages with
  | nil => exact Nat.le_refl 1
  | cons message rest =>
    rw [snapshotActivity]
    split
    · exact single
    · split
      · exact single
      · exact single

variable (applyPatch : ApplyPatch)

theorem length_patchActivity (event : ActivityDeltaEvent) (messages : List Message) :
    (patchActivity applyPatch event messages).length = messages.length := by
  cases messages with
  | nil => rfl
  | cons message rest =>
    rw [patchActivity]
    split
    · split <;> rfl
    · rfl

theorem length_faceNext (event : Event) (id : String) {messages : List Message}
    (single : messages.length ≤ 1) : (faceNext applyPatch event id messages).length ≤ 1 := by
  have touched : ∀ change, (touch change messages).length ≤ 1 :=
    fun change => (length_touch change messages).trans_le single
  unfold faceNext
  split
  · rename_i named edit edits
    split
    · cases event with
      | textMessageStart event | reasoningMessageStart event => cases edits; exact length_beginWith _ _ single
      | textMessageContent event | textMessageEnd event | reasoningMessageContent event
      | reasoningMessageEnd event => cases edits; exact touched _
      | activitySnapshot event => cases edits; exact length_snapshotActivity event single
      | activityDelta event =>
        cases edits
        exact (length_patchActivity applyPatch event messages).trans_le single
      | reasoningEncryptedValue event =>
        cases subtype : event.subtype with
        | toolCall => simp [faceEdit, subtype] at edits
        | message =>
          simp only [faceEdit, subtype, Option.some.injEq, Prod.mk.injEq] at edits
          rw [← edits.2]
          exact touched _
      | _ => cases edits
    · exact single
  · exact single

/-! ## Steps that insert -/

theorem distinctIds_appendMissing {messages : List Message} (input : List Message)
    (distinct : DistinctIds messages) : DistinctIds (appendMissing messages input) := by
  induction input generalizing messages with
  | nil => exact distinct
  | cons message rest ih =>
    unfold appendMissing
    split
    · rename_i missing
      apply ih
      rw [distinctIds_iff] at distinct ⊢
      intro id
      rw [faces_append, faces_singleton]
      split
      · rename_i same
        have empty := (findMessage_eq_none_iff _ _).mp missing
        rw [← same]
        change (faces messages message.id ++ _).length ≤ 1
        rw [empty]
        exact Nat.le_refl 1
      · rw [List.append_nil]
        exact distinct id
    · exact ih distinct

theorem ids_withoutNullTag :
    (messages.map Message.withoutNullTag).map Message.id = messages.map Message.id := by
  rw [List.map_map]
  rfl

/-- Merging a snapshot keeps the ids of what it keeps. -/
theorem distinctIds_mergeSnapshot {messages : List Message} {event : MessagesSnapshotEvent}
    (distinct : DistinctIds messages) (snapshot : DistinctIds event.messages) :
    DistinctIds (mergeSnapshot messages event) := by
  have renamed : ∀ message : Message,
      (((OrderedMap.ofList ((event.messages.map Message.withoutNullTag).map fun message =>
        (message.id, message))).get? message.id).getD message).id = message.id := by
    intro message
    cases found : (OrderedMap.ofList ((event.messages.map Message.withoutNullTag).map fun message =>
        (message.id, message))).get? message.id with
    | none => rfl
    | some newer =>
      rcases List.mem_map.mp (OrderedMap.mem_of_get?_ofList found) with ⟨source, _, entry⟩
      have parts := Prod.mk.inj entry
      exact (congrArg Message.id parts.2).symm.trans parts.1
  unfold DistinctIds mergeSnapshot
  dsimp only
  rw [List.map_append, List.map_map]
  refine List.nodup_append.mpr ⟨?_, ?_, ?_⟩
  · have same : Message.id ∘ (fun message =>
        ((OrderedMap.ofList ((event.messages.map Message.withoutNullTag).map fun message =>
          (message.id, message))).get? message.id).getD message) = Message.id := funext renamed
    rw [same]
    exact distinct.sublist (List.filter_sublist.map Message.id)
  · rw [DistinctIds, ← ids_withoutNullTag] at snapshot
    exact snapshot.sublist (List.filter_sublist.map Message.id)
  · intro old kept new added equal
    rcases List.mem_map.mp added with ⟨message, fresh, named⟩
    have absent := (List.mem_filter.mp fresh).2
    rw [Bool.not_eq_true', List.any_eq_false] at absent
    rcases List.mem_map.mp kept with ⟨source, member, seen⟩
    apply absent _ (List.mem_map.mpr ⟨source, member, rfl⟩)
    exact decide_eq_true (seen.trans (equal.trans named.symm))

theorem distinctIds_toolCallResult_iff (state : ApplyState) (event : ToolCallResultEvent)
    (distinct : DistinctIds state.messages) :
    DistinctIds (toolCallResult state event).1.messages ↔
      event.messageId ∉ state.messages.map Message.id := by
  rw [mem_ids_iff, not_not]
  rw [distinctIds_iff] at distinct ⊢
  constructor
  · intro single
    have counted := (faces_toolCallResult_perm state event).length_eq ▸ single event.messageId
    exact List.eq_nil_of_length_eq_zero (Nat.le_zero.mp (Nat.le_of_succ_le_succ counted))
  · intro unused id
    by_cases same : id = event.messageId
    · rw [same, (faces_toolCallResult_perm state event).length_eq, unused]
      exact Nat.le_refl 1
    · rw [faces_toolCallResult_of_ne state event same]
      exact distinct id

/-- Adding one message keeps the ids distinct exactly if its id is unused. -/
theorem distinctIds_created_iff {messages after : List Message} (distinct : DistinctIds messages)
    (created : String) (message : Message)
    (added : ∀ id, faces after id = faces messages id ++ if id = created then [message] else []) :
    DistinctIds after ↔ created ∉ messages.map Message.id := by
  rw [mem_ids_iff, not_not]
  rw [distinctIds_iff] at distinct ⊢
  constructor
  · intro single
    have counted := single created
    rw [added, if_pos rfl, List.length_append] at counted
    exact List.eq_nil_of_length_eq_zero (Nat.le_zero.mp (Nat.le_of_succ_le_succ counted))
  · intro unused id
    rw [added]
    split
    · rename_i same
      rw [same, unused]
      exact Nat.le_refl 1
    · rw [List.append_nil]
      exact distinct id

/-- A start that makes a message reuses an id exactly if the id of that message is in use. -/
theorem reusesId_of_created {messages : List Message} {start : ToolCallStartEvent} {created : String}
    (unknown : findCall messages start.toolCallId = none)
    (resolved : resolveTarget (faces messages) start = .created created) :
    ReusesId messages (.toolCallStart start) ↔ created ∈ messages.map Message.id := by
  rcases resolveTarget_cases messages start with
    ⟨parent, found, finds, _⟩ | ⟨parent, makes, given, nonempty, unused⟩ | ⟨makes, collides⟩
  · rw [resolved] at finds
    cases finds
  · rw [resolved] at makes
    cases makes
    rw [mem_ids_iff]
    apply iff_of_false
    · rintro ⟨_, _, collides⟩
      rcases collides _ given nonempty with ⟨found, again, _⟩
      rw [unused] at again
      cases again
    · exact not_not.mpr ((findMessage_eq_none_iff _ _).mp unused)
  · rw [resolved] at makes
    cases makes
    exact ⟨fun reused => reused.2.1, fun used => ⟨unknown, used, collides⟩⟩

/-- A start that finds its assistant message makes none. -/
theorem not_reusesId_of_existing {messages : List Message} {start : ToolCallStartEvent} {id : String}
    (resolved : resolveTarget (faces messages) start = .existing id) :
    ¬ ReusesId messages (.toolCallStart start) := by
  rcases resolveTarget_cases messages start with
    ⟨parent, found, _, given, nonempty, search, assistant⟩ | ⟨parent, makes, _⟩ | ⟨makes, _⟩
  · rintro ⟨_, _, collides⟩
    rcases collides parent given nonempty with ⟨other, again, notAssistant⟩
    rw [search] at again
    cases again
    exact notAssistant assistant
  · rw [resolved] at makes
    cases makes
  · rw [resolved] at makes
    cases makes

theorem distinctIds_toolCallStart_iff (state : ApplyState) (event : ToolCallStartEvent)
    (distinct : DistinctIds state.messages) :
    DistinctIds (toolCallStart state event).1.messages ↔
      ¬ ReusesId state.messages (.toolCallStart event) := by
  have faced := faces_toolCallStart state event
  have unchanged : (∀ id, faces (toolCallStart state event).1.messages id = faces state.messages id) ->
      DistinctIds (toolCallStart state event).1.messages := by
    intro same
    rw [distinctIds_iff] at distinct ⊢
    simpa only [same] using distinct
  by_cases taken : placements state.messages event.toolCallId = []
  · have unknown := (findCall_eq_none_iff _ _).mpr taken
    simp only [taken, if_true] at faced
    cases resolved : resolveTarget (faces state.messages) event with
    | existing id =>
      simp only [resolved, createdFaces, List.append_nil] at faced
      exact iff_of_true (unchanged faced) (not_reusesId_of_existing resolved)
    | created created =>
      simp only [resolved, createdFaces] at faced
      rw [reusesId_of_created unknown resolved, distinctIds_created_iff distinct created _ faced]
  · simp only [taken, if_false, List.append_nil] at faced
    exact iff_of_true (unchanged faced) fun reused => taken ((findCall_eq_none_iff _ _).mp reused.1)

/-! ## Streams -/

/-- The snapshots of a stream list no id twice. -/
def DistinctSnapshots (events : List Event) : Prop :=
  ∀ event, .messagesSnapshot event ∈ events -> DistinctIds event.messages

/-- One step keeps the ids distinct exactly if it reuses none. -/
theorem distinctIds_reduce_iff (state : ApplyState) (event : Event)
    (snapshots : ∀ snapshot, event = .messagesSnapshot snapshot -> DistinctIds snapshot.messages)
    (distinct : DistinctIds state.messages) :
    DistinctIds (reduce applyPatch state event).1.messages ↔ ¬ ReusesId state.messages event := by
  have inPlace : ¬ Inserts event -> DistinctIds (reduce applyPatch state event).1.messages := by
    intro apart
    rw [distinctIds_iff] at distinct ⊢
    intro id
    rw [faces_reduce applyPatch state apart]
    exact length_faceNext applyPatch event id (distinct id)
  cases event with
  | toolCallStart event => exact distinctIds_toolCallStart_iff state event distinct
  | toolCallResult event => exact distinctIds_toolCallResult_iff state event distinct
  | messagesSnapshot event =>
    exact iff_of_true (distinctIds_mergeSnapshot distinct (snapshots event rfl)) not_false
  | runStarted event =>
    refine iff_of_true ?_ not_false
    unfold reduce runStarted
    dsimp only
    split
    · exact distinct
    · exact distinctIds_appendMissing _ distinct
  | _ => exact iff_of_true (inPlace not_false) not_false

/-- The ids are distinct after every event of a stream. -/
def DistinctAlong (applyPatch : ApplyPatch) (initial : ApplyState) (events : List Event) : Prop :=
  ∀ past future mutations state, events = past ++ future ->
    Stage.Runs (defaultApplyEvents applyPatch) initial past mutations state -> DistinctIds state.messages

/-- No event of a stream reuses an id of the list it is applied to. -/
def NeverReusesId (applyPatch : ApplyPatch) (initial : ApplyState) (events : List Event) : Prop :=
  ∀ past event future mutations state, events = past ++ event :: future ->
    Stage.Runs (defaultApplyEvents applyPatch) initial past mutations state ->
    ¬ ReusesId state.messages event

/-- A property of the list that every event but a certain kind keeps holds along
a stream exactly if no event of that kind is met. -/
theorem along_iff_never {initial : ApplyState} {events : List Event}
    {Holds : List Message -> Prop} {Breaks : List Message -> Event -> Prop} (start : Holds initial.messages)
    (chunks : ∀ messages event, event.isChunk = true -> ¬ Breaks messages event)
    (step : ∀ state event, event ∈ events -> Holds state.messages ->
      (Holds (reduce applyPatch state event).1.messages ↔ ¬ Breaks state.messages event)) :
    (∀ past future mutations state, events = past ++ future ->
      Stage.Runs (defaultApplyEvents applyPatch) initial past mutations state -> Holds state.messages) ↔
    (∀ past event future mutations state, events = past ++ event :: future ->
      Stage.Runs (defaultApplyEvents applyPatch) initial past mutations state -> ¬ Breaks state.messages event) := by
  have member : ∀ {past future : List Event} {event : Event}, events = past ++ event :: future ->
      event ∈ events := fun split => split ▸ List.mem_append_right _ List.mem_cons_self
  constructor
  · intro always past event future mutations state split runs breaks
    have plain : event.isChunk = false := Bool.eq_false_iff.mpr fun chunk => chunks _ _ chunk breaks
    have whole : events = (past ++ [event]) ++ future := by
      rw [split, List.append_assoc, List.singleton_append]
    have after := always _ future _ _ whole (runs.snoc (step_of_not_chunk applyPatch state plain))
    have now := always past (event :: future) mutations state split runs
    exact (step state event (member split) now).mp after breaks
  · intro never past future mutations state split runs
    refine runs.history (fun _ _ reached => Holds reached.messages) start ?_
    intro older emitted before event newer after output cut reached now taken
    rcases not_chunk_of_step taken with ⟨_, reduced⟩
    have place : events = older ++ event :: (newer ++ future) := by
      rw [split, cut, List.append_assoc, List.cons_append]
    have kept := (step before event (member place) now).mpr
      (never older event (newer ++ future) emitted before place reached)
    rwa [← reduced] at kept

theorem not_reusesId_chunk (event : Event) (chunk : event.isChunk = true) :
    ¬ ReusesId messages event := by
  cases event with
  | toolCallStart event => cases chunk
  | toolCallResult event => cases chunk
  | _ => exact not_false

/-- Over a whole stream the ids stay distinct exactly if no event reuses one. -/
theorem distinctAlong_iff_neverReusesId (applyPatch : ApplyPatch) {initial : ApplyState}
    {events : List Event} (distinct : DistinctIds initial.messages) (snapshots : DistinctSnapshots events) :
    DistinctAlong applyPatch initial events ↔ NeverReusesId applyPatch initial events := by
  apply along_iff_never applyPatch distinct not_reusesId_chunk
  intro state event member now
  apply distinctIds_reduce_iff applyPatch state event _ now
  rintro snapshot rfl
  exact snapshots snapshot member

/-- A conversation that goes on in a second run, from a history the backend restates. -/
def restatedStream : List Event :=
  [.runStarted { threadId := "t", runId := "r" },
   .messagesSnapshot
     { messages := [{ id := "u", role := .user }, { id := "m", role := .assistant }] },
   .toolCallStart { toolCallId := "c", toolCallName := "search", parentMessageId := some "m" },
   .toolCallEnd { toolCallId := "c" },
   .toolCallResult { messageId := "r", toolCallId := "c", content := .text "found" },
   .runFinished { threadId := "t", runId := "r" }]

theorem distinctAlong_iff_neverReusesId_restated :
    DistinctAlong (fun _ _ => none) { messages := [{ id := "u", role := .user }] } restatedStream ↔
      NeverReusesId (fun _ _ => none) { messages := [{ id := "u", role := .user }] } restatedStream :=
  distinctAlong_iff_neverReusesId (fun _ _ => none) (by decide) (by
    intro event member
    simp only [restatedStream, List.mem_cons, reduceCtorEq, List.not_mem_nil, Event.messagesSnapshot.injEq,
      or_false, false_or] at member
    subst member
    decide)

/-- A tool result that names a message of the stream, and a tool call named like one. -/
def collidingResult : List Event :=
  [.runStarted { threadId := "t", runId := "r" },
   .textMessageStart { messageId := "m" },
   .textMessageEnd { messageId := "m" },
   .toolCallResult { messageId := "m", toolCallId := "c", content := .text "found" },
   .runFinished { threadId := "t", runId := "r" }]

def collidingCall : List Event :=
  [.runStarted { threadId := "t", runId := "r" },
   .textMessageStart { messageId := "m" },
   .textMessageEnd { messageId := "m" },
   .toolCallStart { toolCallId := "m", toolCallName := "search" },
   .toolCallEnd { toolCallId := "m" },
   .runFinished { threadId := "t", runId := "r" }]

/-- A result, and a message made for a call, take an id that is in use. -/
theorem distinctAlong_fails :
    (Verify.accepted collidingResult = true ∧ DistinctSnapshots collidingResult ∧
      ¬ DistinctAlong (fun _ _ => none) {} collidingResult) ∧
    (Verify.accepted collidingCall = true ∧ DistinctSnapshots collidingCall ∧
      ¬ DistinctAlong (fun _ _ => none) {} collidingCall) := by
  have replayed : ∀ events, (∀ event ∈ events, event.isChunk = false) ->
      ¬ DistinctIds (replay (fun _ _ => none) {} events).messages ->
      ¬ DistinctAlong (fun _ _ => none) {} events := by
    intro events plain repeated along
    rcases (exists_runs_iff (fun _ _ => none) {} _ events).mpr ⟨plain, rfl⟩ with ⟨mutations, runs⟩
    exact repeated (along events [] mutations _ (List.append_nil events).symm runs)
  refine ⟨⟨by decide, ?_, replayed _ (by decide) (by decide)⟩,
    ⟨by decide, ?_, replayed _ (by decide) (by decide)⟩⟩
  · intro event member
    simp [collidingResult] at member
  · intro event member
    simp [collidingCall] at member

end Apply
end AgUi
