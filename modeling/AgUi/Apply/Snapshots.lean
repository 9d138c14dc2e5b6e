import AgUi.Apply.Uniqueness

namespace AgUi
namespace Apply

open Library Protocol

/-!
# What a snapshot of the conversation leaves

A `MESSAGES_SNAPSHOT` is merged into the list: its messages replace those under
their ids in place, or go to the end; a message it leaves out survives only if
it is the client's own.  With distinct ids on both sides membership in the
merged list decides everything, and `mem_mergeSnapshot_iff` says what it is.
-/

/-! ## What is the client's own -/

/-- The snapshot is authoritative for the activities of a type: as it declares,
or else for all of them once it carries one. -/
def Governs (event : MessagesSnapshotEvent) (activityType : Option String) : Prop :=
  match authoritativeActivityTypes event with
  | .null => True
  | .value types => ∃ type, activityType = some type ∧ type ∈ types
  | .absent => ∃ message ∈ event.messages, message.role = .activity

/-- A message of the old history that the snapshot may not delete. -/
def ClientOnly (event : MessagesSnapshotEvent) (message : Message) : Prop :=
  (message.role = .activity ∧ ¬ Governs event message.activityType) ∨
    (message.role = .reasoning ∧ ∀ candidate ∈ event.messages, candidate.role ≠ .reasoning)

variable (messages : List Message)

theorem any_role_withoutNullTag (role : Role) :
    (messages.map Message.withoutNullTag).any (fun candidate => candidate.role = role) =
      messages.any fun candidate => candidate.role = role := by
  rw [List.any_map]
  rfl

theorem isPreservedClientOnly_iff (event : MessagesSnapshotEvent) (message : Message) :
    isPreservedClientOnly (authoritativeActivityTypes event) (event.messages.map Message.withoutNullTag) message =
      true ↔ ClientOnly event message := by
  unfold isPreservedClientOnly ClientOnly Governs
  rw [any_role_withoutNullTag, any_role_withoutNullTag]
  cases authoritativeActivityTypes event with
  | absent => simp
  | null => simp
  | value types =>
    cases message.activityType with
    | none => simp
    | some type => simp

/-! ## Looking a snapshot message up -/

/-- The messages of a snapshot by their ids. -/
def snapshotMap (messages : List Message) : OrderedMap String Message :=
  OrderedMap.ofList ((messages.map Message.withoutNullTag).map fun message => (message.id, message))

theorem keys_byId :
    (messages.map fun message => (message.id, message)).map Prod.fst = messages.map Message.id := by
  rw [List.map_map]
  rfl

theorem distinctIds_withoutNullTag {messages : List Message} (distinct : DistinctIds messages) :
    DistinctIds (messages.map Message.withoutNullTag) := by
  rw [DistinctIds, ids_withoutNullTag]
  exact distinct

theorem snapshotMap_get? {messages : List Message} (distinct : DistinctIds messages) {message : Message}
    (member : message ∈ messages) : (snapshotMap messages).get? message.id = some message.withoutNullTag := by
  have nodup := distinctIds_withoutNullTag distinct
  rw [DistinctIds, ← keys_byId] at nodup
  rw [snapshotMap, OrderedMap.get?_ofList nodup]
  apply OrderedMap.lookup_eq_some_of_mem nodup
  exact List.mem_map.mpr ⟨_, List.mem_map_of_mem member, rfl⟩

theorem mem_of_snapshotMap_get? {messages : List Message} {id : String} {found : Message}
    (search : (snapshotMap messages).get? id = some found) :
    found.id = id ∧ ∃ source ∈ messages, found = source.withoutNullTag := by
  rcases List.mem_map.mp (OrderedMap.mem_of_get?_ofList search) with ⟨newer, member, entry⟩
  rcases List.mem_map.mp member with ⟨source, listed, rfl⟩
  have parts := Prod.mk.inj entry
  exact ⟨(congrArg Message.id parts.2).symm.trans parts.1, source, listed, parts.2.symm⟩

theorem snapshotMap_get?_eq_none {messages : List Message} (distinct : DistinctIds messages) {id : String} :
    (snapshotMap messages).get? id = none ↔ id ∉ messages.map Message.id := by
  constructor
  · intro missing member
    rcases List.mem_map.mp member with ⟨message, listed, rfl⟩
    rw [snapshotMap_get? distinct listed] at missing
    cases missing
  · intro absent
    cases search : (snapshotMap messages).get? id with
    | none => rfl
    | some found =>
      rcases mem_of_snapshotMap_get? search with ⟨named, source, listed, rfl⟩
      exact absurd (List.mem_map.mpr ⟨source, listed, named⟩) absent

theorem snapshotMap_has {messages : List Message} (distinct : DistinctIds messages) (id : String) :
    (snapshotMap messages).has id = true ↔ id ∈ messages.map Message.id := by
  rw [← not_iff_not, Bool.not_eq_true, OrderedMap.has_eq_false_iff, snapshotMap_get?_eq_none distinct]

/-! ## The merged list -/

/-- The messages of the old list that are still there, as the snapshot has them. -/
def survivors (messages : List Message) (event : MessagesSnapshotEvent) : List Message :=
  (messages.filter fun message =>
    (snapshotMap event.messages).has message.id ||
      isPreservedClientOnly (authoritativeActivityTypes event) (event.messages.map Message.withoutNullTag)
        message).map fun message => ((snapshotMap event.messages).get? message.id).getD message

theorem mergeSnapshot_eq (event : MessagesSnapshotEvent) :
    mergeSnapshot messages event =
      survivors messages event ++ (event.messages.map Message.withoutNullTag).filter fun message =>
        !((survivors messages event).any fun present => present.id = message.id) :=
  rfl

/-- Taking the snapshot's copy of a message keeps its id. -/
theorem id_copy (event : MessagesSnapshotEvent) (message : Message) :
    (((snapshotMap event.messages).get? message.id).getD message).id = message.id := by
  cases search : (snapshotMap event.messages).get? message.id with
  | none => rfl
  | some found => exact (mem_of_snapshotMap_get? search).1

theorem mem_survivors_iff {messages : List Message} {event : MessagesSnapshotEvent}
    (snapshot : DistinctIds event.messages) (message : Message) :
    message ∈ survivors messages event ↔
      (∃ source ∈ event.messages, message = source.withoutNullTag ∧
        source.id ∈ messages.map Message.id) ∨
      (message ∈ messages ∧ message.id ∉ event.messages.map Message.id ∧ ClientOnly event message) := by
  unfold survivors
  rw [List.mem_map]
  constructor
  · rintro ⟨old, kept, rfl⟩
    rcases List.mem_filter.mp kept with ⟨member, spared⟩
    cases search : (snapshotMap event.messages).get? old.id with
    | some found =>
      rcases mem_of_snapshotMap_get? search with ⟨named, source, listed, rfl⟩
      exact .inl ⟨source, listed, rfl, List.mem_map.mpr ⟨old, member, named.symm⟩⟩
    | none =>
      have absent := (snapshotMap_get?_eq_none snapshot).mp search
      rw [Bool.or_eq_true, snapshotMap_has snapshot, isPreservedClientOnly_iff] at spared
      exact .inr ⟨member, absent, spared.resolve_left absent⟩
  · rintro (⟨source, listed, rfl, present⟩ | ⟨member, absent, clientOnly⟩)
    · rcases List.mem_map.mp present with ⟨old, member, same⟩
      refine ⟨old, List.mem_filter.mpr ⟨member, ?_⟩, ?_⟩
      · rw [Bool.or_eq_true, snapshotMap_has snapshot, same]
        exact .inl (List.mem_map_of_mem listed)
      · rw [same, snapshotMap_get? snapshot listed]
        rfl
    · refine ⟨message, List.mem_filter.mpr ⟨member, ?_⟩, ?_⟩
      · rw [Bool.or_eq_true, isPreservedClientOnly_iff]
        exact .inr clientOnly
      · rw [(snapshotMap_get?_eq_none snapshot).mpr absent]
        rfl

theorem ids_survivors (event : MessagesSnapshotEvent) :
    ((survivors messages event).map Message.id).Sublist (messages.map Message.id) := by
  unfold survivors
  rw [List.map_map]
  have same : (Message.id ∘ fun message => ((snapshotMap event.messages).get? message.id).getD message) =
      Message.id := by
    funext message
    exact id_copy event message
  rw [same]
  exact List.filter_sublist.map Message.id

/-- What is in the merged list: the snapshot, and what is the client's own. -/
theorem mem_mergeSnapshot_iff {messages : List Message} {event : MessagesSnapshotEvent}
    (snapshot : DistinctIds event.messages) (message : Message) :
    message ∈ mergeSnapshot messages event ↔
      (∃ source ∈ event.messages, message = source.withoutNullTag) ∨
      (message ∈ messages ∧ message.id ∉ event.messages.map Message.id ∧ ClientOnly event message) := by
  rw [mergeSnapshot_eq, List.mem_append, mem_survivors_iff snapshot, List.mem_filter]
  constructor
  · rintro ((⟨source, listed, same, _⟩ | own) | ⟨added, _⟩)
    · exact .inl ⟨source, listed, same⟩
    · exact .inr own
    · rcases List.mem_map.mp added with ⟨source, listed, same⟩
      exact .inl ⟨source, listed, same.symm⟩
  · rintro (⟨source, listed, rfl⟩ | own)
    · by_cases present : source.id ∈ messages.map Message.id
      · exact .inl (.inl ⟨source, listed, rfl, present⟩)
      · refine .inr ⟨List.mem_map_of_mem listed, ?_⟩
        rw [Bool.not_eq_true', List.any_eq_false]
        intro survivor member same
        apply present
        exact (ids_survivors messages event).subset (List.mem_map.mpr ⟨survivor, member, of_decide_eq_true same⟩)
    · exact .inl (.inr own)

theorem DistinctIds.filter_id {messages : List Message} (distinct : DistinctIds messages) {message : Message}
    (member : message ∈ messages) : messages.filter (fun other => other.id = message.id) = [message] := by
  induction messages with
  | nil => cases member
  | cons head rest ih =>
    rcases List.nodup_cons.mp distinct with ⟨fresh, later⟩
    rcases List.mem_cons.mp member with rfl | member
    · rw [List.filter_cons, if_pos (decide_eq_true rfl)]
      apply congrArg
      apply List.filter_eq_nil_iff.mpr
      intro other listed same
      exact fresh (List.mem_map.mpr ⟨other, listed, of_decide_eq_true same⟩)
    · rw [List.filter_cons_of_neg, ih later member]
      intro same
      exact fresh (List.mem_map.mpr ⟨message, member, (of_decide_eq_true same).symm⟩)

/-- What the merge keeps of the old list stays in its order. -/
theorem ids_mergeSnapshot {messages : List Message} {event : MessagesSnapshotEvent}
    (snapshot : DistinctIds event.messages) :
    (((mergeSnapshot messages event).filter fun message => message.id ∈ messages.map Message.id).map
      Message.id).Sublist (messages.map Message.id) := by
  rw [mergeSnapshot_eq, List.filter_append]
  have added : ((event.messages.map Message.withoutNullTag).filter fun message =>
      !((survivors messages event).any fun present => present.id = message.id)).filter
        (fun message => message.id ∈ messages.map Message.id) = [] := by
    apply List.filter_eq_nil_iff.mpr
    intro message member
    rcases List.mem_filter.mp member with ⟨listed, fresh⟩
    rcases List.mem_map.mp listed with ⟨source, sourced, rfl⟩
    rw [decide_eq_true_eq]
    intro old
    rw [Bool.not_eq_true', List.any_eq_false] at fresh
    have survives := (@mem_survivors_iff messages event snapshot source.withoutNullTag).mpr
      (.inl ⟨source, sourced, rfl, old⟩)
    exact fresh _ survives (decide_eq_true rfl)
  rw [added, List.append_nil]
  exact (List.filter_sublist.map Message.id).trans (ids_survivors messages event)

/-- A second merge of the same snapshot finds everything in place. -/
theorem mergeSnapshot_again {messages : List Message} {event : MessagesSnapshotEvent}
    (snapshot : DistinctIds event.messages) :
    mergeSnapshot (mergeSnapshot messages event) event = mergeSnapshot messages event := by
  have members := @mem_mergeSnapshot_iff messages event snapshot
  generalize mergeSnapshot messages event = merged at members ⊢
  have same : survivors merged event = merged := by
    unfold survivors
    rw [List.filter_eq_self.mpr]
    · have kept : ∀ message ∈ merged,
          ((snapshotMap event.messages).get? message.id).getD message = id message := by
        intro message member
        rcases (members message).mp member with ⟨source, listed, rfl⟩ | ⟨_, absent, _⟩
        · exact congrArg (fun found => found.getD source.withoutNullTag) (snapshotMap_get? snapshot listed)
        · rw [(snapshotMap_get?_eq_none snapshot).mpr absent]
          rfl
      rw [List.map_congr_left kept, List.map_id]
    · intro message member
      rw [Bool.or_eq_true, snapshotMap_has snapshot, isPreservedClientOnly_iff]
      rcases (members message).mp member with ⟨source, listed, rfl⟩ | ⟨_, _, own⟩
      · exact .inl (List.mem_map.mpr ⟨source, listed, rfl⟩)
      · exact .inr own
  rw [mergeSnapshot_eq, same]
  rw [List.filter_eq_nil_iff.mpr, List.append_nil]
  intro message listed fresh
  rcases List.mem_map.mp listed with ⟨source, sourced, rfl⟩
  rw [Bool.not_eq_true', List.any_eq_false] at fresh
  exact fresh _ ((members _).mpr (.inl ⟨source, sourced, rfl⟩)) (decide_eq_true rfl)

/-- After a snapshot every one of its messages is there once, as the snapshot
has it; the rest of the list is what the client alone had, unchanged and in its
order; and the same snapshot again does nothing. -/
theorem messagesSnapshot_exact (applyPatch : ApplyPatch) (state : ApplyState) (event : MessagesSnapshotEvent)
    (distinct : DistinctIds state.messages) (snapshot : DistinctIds event.messages) :
    (∀ message ∈ event.messages,
        (reduce applyPatch state (.messagesSnapshot event)).1.messages.filter
          (fun other => other.id = message.id) = [message.withoutNullTag]) ∧
      (∀ message ∈ (reduce applyPatch state (.messagesSnapshot event)).1.messages,
        message.id ∉ event.messages.map Message.id -> message ∈ state.messages ∧ ClientOnly event message) ∧
      (∀ message ∈ state.messages, message.id ∉ event.messages.map Message.id ->
        ClientOnly event message ->
        (reduce applyPatch state (.messagesSnapshot event)).1.messages.filter
          (fun other => other.id = message.id) = [message]) ∧
      (((reduce applyPatch state (.messagesSnapshot event)).1.messages.filter fun message =>
        message.id ∈ state.messages.map Message.id).map Message.id).Sublist (state.messages.map Message.id) ∧
      (reduce applyPatch (reduce applyPatch state (.messagesSnapshot event)).1 (.messagesSnapshot event)).1 =
        (reduce applyPatch state (.messagesSnapshot event)).1 := by
  have merged : (reduce applyPatch state (.messagesSnapshot event)).1.messages =
      mergeSnapshot state.messages event :=
    rfl
  have unique := distinctIds_mergeSnapshot distinct snapshot
  have members := @mem_mergeSnapshot_iff state.messages event snapshot
  rw [merged]
  refine ⟨?_, ?_, ?_, ids_mergeSnapshot snapshot, ?_⟩
  · intro message listed
    exact unique.filter_id ((members message.withoutNullTag).mpr (.inl ⟨message, listed, rfl⟩))
  · intro message member absent
    rcases (members message).mp member with ⟨source, listed, rfl⟩ | ⟨old, _, own⟩
    · exact absurd (List.mem_map.mpr ⟨source, listed, rfl⟩) absent
    · exact ⟨old, own⟩
  · intro message old absent own
    exact unique.filter_id ((members message).mpr (.inr ⟨old, absent, own⟩))
  · have again := @mergeSnapshot_again state.messages event snapshot
    change { state with messages := mergeSnapshot (mergeSnapshot state.messages event) event } =
      { state with messages := mergeSnapshot state.messages event }
    rw [again]

/-- An activity of a declared type goes, one of another type and the reasoning stay. -/
def governingSnapshot : MessagesSnapshotEvent where
  messages := [{ id := "u", role := .user, content := some (.text "Hello again") }, { id := "n", role := .assistant }]
  metadata := some (OrderedMap.ofList
    [(activityHistoryMetadata, .object [("authoritativeActivityTypes", .array [.string "PLAN"])])])

def governedState : ApplyState where
  messages :=
    [{ id := "r", role := .reasoning }, { id := "p", role := .activity, activityType := some "PLAN" },
      { id := "u", role := .user, content := some (.text "Hello") },
      { id := "a", role := .activity, activityType := some "SEARCH" }]

example : (reduce (fun _ _ => none) governedState (.messagesSnapshot governingSnapshot)).1.messages.map Message.id =
    ["r", "u", "a", "n"] := by
  decide

theorem messagesSnapshot_exact_governed :
    (∀ message ∈ governingSnapshot.messages,
        (reduce (fun _ _ => none) governedState (.messagesSnapshot governingSnapshot)).1.messages.filter
          (fun other => other.id = message.id) = [message.withoutNullTag]) ∧
      (∀ message,
        message ∈ (reduce (fun _ _ => none) governedState (.messagesSnapshot governingSnapshot)).1.messages ->
        message.id ∉ governingSnapshot.messages.map Message.id ->
        message ∈ governedState.messages ∧ ClientOnly governingSnapshot message) ∧
      (∀ message ∈ governedState.messages, message.id ∉ governingSnapshot.messages.map Message.id ->
        ClientOnly governingSnapshot message ->
        (reduce (fun _ _ => none) governedState (.messagesSnapshot governingSnapshot)).1.messages.filter
          (fun other => other.id = message.id) = [message]) ∧
      (((reduce (fun _ _ => none) governedState (.messagesSnapshot governingSnapshot)).1.messages.filter fun message =>
        message.id ∈ governedState.messages.map Message.id).map Message.id).Sublist
          (governedState.messages.map Message.id) ∧
      (reduce (fun _ _ => none) (reduce (fun _ _ => none) governedState (.messagesSnapshot governingSnapshot)).1
        (.messagesSnapshot governingSnapshot)).1 =
        (reduce (fun _ _ => none) governedState (.messagesSnapshot governingSnapshot)).1 :=
  messagesSnapshot_exact (fun _ _ => none) governedState governingSnapshot (by decide) (by decide)

end Apply
end AgUi
