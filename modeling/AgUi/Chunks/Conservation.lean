import AgUi.Chunks.Brackets

namespace AgUi
namespace Chunks

open Library Protocol

/-!
# Nothing a chunk carries is lost

Every delta, raw event and metadata object of a chunk is on what the chunk
expands into.  So is every property its schema does not describe, or else a
warning names it, with two exceptions: a property called `__proto__` is lost
on the way into the remainder, and a host that silenced the warnings is not
told of the `role` that an opening reasoning chunk had to give up.
-/

/-- The item and text of a CONTENT or ARGS event. -/
def content? : Event -> Option (Item × String)
  | .textMessageContent e => some ((.text, e.messageId), e.delta)
  | .toolCallArgs e => some ((.tool, e.toolCallId), e.delta)
  | .reasoningMessageContent e => some ((.reasoning, e.messageId), e.delta)
  | _ => none

/-- The deltas a list of events adds, in order, empty ones left out. -/
def deltas (events : List Event) : List (Item × String) :=
  (events.filterMap content?).filter fun piece => piece.2 ≠ ""

/-- The item a chunk belongs to: the one it names, or the one its lane has open. -/
def resolvedItem (lanes : OrderedMap Lane PendingStream) (arm : ChunkArm) : Option Item :=
  match arm.entityId with
  | some id => some (arm.kind, id)
  | none =>
    match resolveLane lanes arm.kind none arm.event.subagentRunId.toOption with
    | .ok lane => (lanes.get? lane).map PendingStream.item
    | .error _ => none

/-- The delta of a chunk, with the item it belongs to. -/
def resolvedDelta (lanes : OrderedMap Lane PendingStream) (event : Event) : List (Item × String) :=
  match chunkArm? event with
  | none => []
  | some arm =>
    match resolvedItem lanes arm, arm.delta with
    | some item, some delta => if delta ≠ "" then [(item, delta)] else []
    | _, _ => []

/-- The deltas of a stream of chunks, each resolved in the state it arrives in. -/
def resolvedDeltas (suppressed : Bool) : TransformState -> List Event -> List (Item × String)
  | _, [] => []
  | state, event :: rest =>
    match transformChunks suppressed state event with
    | .error _ => []
    | .ok (after, _) => resolvedDelta state.lanes event ++ resolvedDeltas suppressed after rest

/-- The text an item receives, put together. -/
def textOf (item : Item) (pieces : List (Item × String)) : String :=
  String.join ((pieces.filter fun piece => piece.1 = item).map Prod.snd)

/-! ## What one chunk must deliver -/

/-- A property the schema of the chunk does not describe. -/
def Undescribed (arm : ChunkArm) (key : String) (value : Json) : Prop :=
  arm.event.extra.get? key = some value ∧ arm.described.contains key = false

/-- The property is on an event synthesized for the chunk, or a warning names it. -/
def Accounted (outputs : List Event) (warnings : List ChunkWarning) (key : String) (value : Json) : Prop :=
  (∃ output ∈ outputs, ends? output = none ∧ output.extra.get? key = some value) ∨
    (∃ warning ∈ warnings, key ∈ warning.shadowed)

/-- What the expansion of a chunk into `outputs` owes it. -/
structure Delivers (before : TransformState) (arm : ChunkArm) (after : TransformState)
    (outputs : List Event) : Prop where
  raw : outputs.filterMap Event.rawEvent = arm.event.rawEvent.toList
  metadata : ∀ metadata, arm.event.metadata = some metadata ->
    ∃ output ∈ outputs, ends? output = none ∧ output.metadata = some metadata
  closings : ∀ output ∈ outputs, (ends? output).isSome -> output.metadata = none
  properties : ∀ key value, Undescribed arm key value ->
    Accounted outputs (after.warnings.drop before.warnings.length) key value

/-- What a chunk carries under `key` reaches nobody. -/
def Loses (suppressed : Bool) (before : TransformState) (arm : ChunkArm) (key : String) : Prop :=
  key = "__proto__" ∨
    (suppressed = true ∧ key = "role" ∧ arm.kind = .reasoning ∧ arm.streams = false ∧
      ∃ id, arm.entityId = some id ∧ laneHolding before.lanes .reasoning id = none)

/-! ## The remainder -/

theorem get?_assignProperty (target : Properties) (key : String) (value : Json) (other : String) :
    (assignProperty target key value).get? other =
      if other = key ∧ key ≠ "__proto__" then some value else target.get? other := by
  unfold assignProperty
  split
  · rename_i special
    simp [special]
  · rename_i plain
    rw [OrderedMap.get?_set]
    simp [plain]

/-- What collecting the remainder of some properties finds under a key. -/
theorem get?_unrecognised (properties : Properties) (described : List String) (key : String) :
    ((unrecognisedChunkProperties properties described).getD OrderedMap.empty).get? key =
      if described.contains key || key = "__proto__" then none else properties.get? key := by
  have collect : ∀ (entries : List (String × Json)) (collected : Option Properties),
      (entries.map Prod.fst).Nodup ->
      ((entries.foldl (fun remainder entry =>
          if described.contains entry.1 then remainder
          else some (assignProperty (remainder.getD OrderedMap.empty) entry.1 entry.2)) collected).getD
            OrderedMap.empty).get? key =
        if described.contains key || key = "__proto__" then (collected.getD OrderedMap.empty).get? key
        else (entries.lookup key).or ((collected.getD OrderedMap.empty).get? key) := by
    intro entries
    induction entries with
    | nil => intro collected _; simp
    | cons entry rest ih =>
      intro collected nodup
      rcases entry with ⟨name, value⟩
      rcases List.nodup_cons.mp nodup with ⟨fresh, later⟩
      rw [List.foldl_cons, ih _ later, OrderedMap.lookup_cons_ite]
      by_cases listed : described.contains name = true
      · rw [if_pos listed]
        by_cases same : key = name
        · subst same
          simp only [listed, Bool.true_or, if_true]
        · rw [if_neg same]
      · rw [if_neg listed, Option.getD_some, get?_assignProperty]
        by_cases same : key = name
        · subst same
          by_cases special : key = "__proto__"
          · simp [special]
          · have unlisted : described.contains key = false := Bool.eq_false_iff.mpr listed
            rw [unlisted, decide_eq_false special, OrderedMap.lookup_eq_none_of_not_mem fresh]
            simp [special]
        · simp [same]
  have collected := collect properties.entries none properties.nodup
  rw [unrecognisedChunkProperties, collected, Option.getD_none, OrderedMap.get?_empty, Option.or_none]
  rfl

variable (arm : ChunkArm)

theorem get?_remainder_eq_some (key : String) (value : Json) :
    (arm.remainder.getD OrderedMap.empty).get? key = some value ↔
      Undescribed arm key value ∧ key ≠ "__proto__" := by
  rw [ChunkArm.remainder, get?_unrecognised, Undescribed]
  by_cases special : key = "__proto__"
  · simp [special]
  · cases listed : arm.described.contains key with
    | true => simp
    | false => simp [special]

/-- Something the schema does not describe makes a remainder, be it empty. -/
theorem remainder_isSome {arm : ChunkArm} {key : String} {value : Json} (undescribed : Undescribed arm key value) :
    arm.remainder.isSome = true := by
  have kept : ∀ (entries : List (String × Json)) (collected : Option Properties), collected.isSome = true ->
      (entries.foldl (fun remainder entry =>
        if arm.described.contains entry.1 then remainder
        else some (assignProperty (remainder.getD OrderedMap.empty) entry.1 entry.2)) collected).isSome = true := by
    intro entries
    induction entries with
    | nil => exact fun collected present => present
    | cons entry rest ih =>
      intro collected present
      rw [List.foldl_cons]
      apply ih
      split
      · exact present
      · rfl
  rcases List.append_of_mem ((OrderedMap.mem_entries_iff _ _ _).mpr undescribed.1) with ⟨before, after, split⟩
  rw [ChunkArm.remainder, unrecognisedChunkProperties, split, List.foldl_append, List.foldl_cons]
  apply kept
  rw [undescribed.2]
  rfl

/-! ## What the synthesized events carry -/

variable (pending : PendingStream)

@[simp] theorem rawEvent_endEvent : pending.endEvent.rawEvent = none := by
  cases pending <;> rfl

@[simp] theorem metadata_endEvent : pending.endEvent.metadata = none := by
  cases pending <;> rfl

@[simp] theorem content_endEvent : content? pending.endEvent = none := by
  cases pending <;> rfl

@[simp] theorem extra_endEvent : pending.endEvent.extra = OrderedMap.empty := by
  cases pending <;> rfl

@[simp] theorem rawEvent_startEvent (metadata : Option Metadata) :
    (pending.startEvent metadata).rawEvent = none := by
  cases pending <;> rfl

@[simp] theorem metadata_startEvent (metadata : Option Metadata) :
    (pending.startEvent metadata).metadata = metadata := by
  cases pending <;> rfl

@[simp] theorem content_startEvent (metadata : Option Metadata) :
    content? (pending.startEvent metadata) = none := by
  cases pending <;> rfl

@[simp] theorem ends_startEvent (metadata : Option Metadata) :
    ends? (pending.startEvent metadata) = none := by
  cases pending <;> rfl

@[simp] theorem extra_startEvent (metadata : Option Metadata) :
    (pending.startEvent metadata).extra = OrderedMap.empty := by
  cases pending <;> rfl

variable (remainder : Properties)

@[simp] theorem rawEvent_spreadUnder (event : Event) :
    (spreadUnder remainder event).rawEvent = event.rawEvent := by
  cases event <;> rfl

@[simp] theorem metadata_spreadUnder (event : Event) :
    (spreadUnder remainder event).metadata = event.metadata := by
  cases event <;> rfl

@[simp] theorem content_spreadUnder (event : Event) :
    content? (spreadUnder remainder event) = content? event := by
  cases event <;> rfl

@[simp] theorem ends_spreadUnder (event : Event) :
    ends? (spreadUnder remainder event) = ends? event := by
  cases event <;> rfl

theorem extra_spreadUnder (pending : PendingStream) (metadata : Option Metadata) :
    (spreadUnder remainder (pending.startEvent metadata)).extra =
      remainder.filterKeys fun key => !(ownKeys (pending.startEvent metadata)).contains key := by
  cases pending <;> rfl

@[simp] theorem rawEvent_content (pending : PendingStream) (delta : String) :
    (arm.content pending delta).rawEvent = arm.event.rawEvent := by
  cases pending <;> rfl

@[simp] theorem metadata_content (pending : PendingStream) (delta : String) :
    (arm.content pending delta).metadata = arm.event.metadata := by
  cases pending <;> rfl

@[simp] theorem content_content (pending : PendingStream) (delta : String) :
    content? (arm.content pending delta) = some (pending.item, delta) := by
  cases pending <;> rfl

@[simp] theorem ends_content (pending : PendingStream) (delta : String) :
    ends? (arm.content pending delta) = none := by
  cases pending <;> rfl

@[simp] theorem extra_content (pending : PendingStream) (delta : String) :
    (arm.content pending delta).extra = arm.remainder.getD OrderedMap.empty := by
  cases pending <;> rfl

theorem eq_of_mem_flag {A : Type} {name key : String} {field : Option A}
    (member : key ∈ (field.map fun _ => name).toList) : key = name := by
  cases field with
  | none => cases member
  | some value => exact List.mem_singleton.mp member

theorem mem_shared {event : AttributedEvent} {key : String} (member : key ∈ ownKeys.shared event) :
    key = "subagentRunId" ∨ key = "metadata" := by
  rcases List.mem_append.mp member with tag | metadata
  · split at tag
    · exact Or.inl (List.mem_singleton.mp tag)
    · cases tag
  · exact Or.inr (eq_of_mem_flag metadata)

/-- The opener of a text message or a tool call owns nothing its chunk does
not describe; the opener of a reasoning message owns its role besides. -/
theorem owned_undescribed {event : Event} {arm : ChunkArm} (chunk : chunkArm? event = some arm)
    {pending : PendingStream} (opener : arm.opener = .ok pending) {key : String} :
    key ∈ ownKeys (pending.startEvent arm.event.metadata) ∧ arm.described.contains key = false ↔
      key = "role" ∧ arm.kind = .reasoning := by
  have kind := (arm.opens pending opener).2.1
  constructor
  · rintro ⟨own, undescribed⟩
    cases event with
    | textMessageChunk e | toolCallChunk e =>
      cases chunk
      cases pending <;> cases kind
      rcases List.mem_append.mp own with fixed | flagged
      · rcases List.mem_append.mp fixed with first | named
        · simp only [List.mem_cons, List.not_mem_nil, or_false] at first
          rcases first with rfl | rfl | rfl <;> cases undescribed
        · rw [eq_of_mem_flag named] at undescribed
          cases undescribed
      · rcases mem_shared flagged with rfl | rfl <;> cases undescribed
    | reasoningMessageChunk e =>
      cases chunk
      cases pending with
      | reasoning fields =>
        rcases List.mem_append.mp own with fixed | flagged
        · simp only [List.mem_cons, List.not_mem_nil, or_false] at fixed
          rcases fixed with rfl | rfl | rfl
          · cases undescribed
          · cases undescribed
          · exact ⟨rfl, rfl⟩
        · rcases mem_shared flagged with rfl | rfl <;> cases undescribed
      | text fields | tool fields => cases kind
    | _ => cases chunk
  · rintro ⟨rfl, reasoning⟩
    cases event with
    | reasoningMessageChunk e =>
      cases chunk
      cases pending with
      | reasoning fields => exact ⟨by simp [PendingStream.startEvent, ownKeys], rfl⟩
      | text fields | tool fields => cases kind
    | textMessageChunk e | toolCallChunk e =>
      cases chunk
      cases reasoning
    | _ => cases chunk

/-! ## One chunk -/

/-- A content event carries the remainder as it is. -/
theorem accounted_of_content {arm : ChunkArm} {pending : PendingStream} {delta : String}
    {outputs : List Event} {warnings : List ChunkWarning} (present : arm.content pending delta ∈ outputs)
    {key : String} {value : Json} (undescribed : Undescribed arm key value) (plain : key ≠ "__proto__") :
    Accounted outputs warnings key value := by
  refine Or.inl ⟨_, present, ends_content arm pending delta, ?_⟩
  rw [extra_content]
  exact (get?_remainder_eq_some arm key value).mpr ⟨undescribed, plain⟩

variable {suppressed : Bool} {assembly : Assembly} {open? : Option PendingStream}

/-- Nothing synthesized ever has a property called `__proto__`. -/
theorem not_accounted_proto {arm : ChunkArm}
    (assembled : Assembled suppressed arm open? assembly) (value : Json) :
    ¬ Accounted assembly.events assembly.warnings "__proto__" value := by
  have absent : (arm.remainder.getD OrderedMap.empty).get? "__proto__" = none := by
    cases found : (arm.remainder.getD OrderedMap.empty).get? "__proto__" with
    | none => rfl
    | some other => exact absurd rfl ((get?_remainder_eq_some arm _ other).mp found).2
  rintro (⟨output, present, notEnd, carried⟩ | ⟨warning, warned, shadowed⟩)
  · cases synthesized_of_mem assembled present with
    | closing held same =>
      rw [ends_endEvent] at notEnd
      cases notEnd
    | start =>
      rw [extra_startEvent] at carried
      cases carried
    | carrying remainder same =>
      rw [same, Option.getD_some] at absent
      rw [extra_spreadUnder, OrderedMap.get?_filterKeys, absent, ite_self] at carried
      cases carried
    | content delta =>
      rw [extra_content, absent] at carried
      cases carried
  · cases assembled with
    | continues pending held same => cases warned
    | opens pending opener apart =>
      simp only [ChunkArm.openingWarnings] at warned
      split at warned
      · cases warned
      · rw [List.mem_singleton.mp warned] at shadowed
        have listed := (List.mem_filter.mp shadowed).1
        rw [OrderedMap.mem_keys_iff, OrderedMap.has, absent] at listed
        cases listed

theorem accounted_of_continues {arm : ChunkArm} {pending : PendingStream} {warnings : List ChunkWarning}
    {key : String} {value : Json} (undescribed : Undescribed arm key value) (plain : key ≠ "__proto__") :
    Accounted (arm.continuation pending) warnings key value := by
  have delivers : arm.delivers = true := by
    rw [ChunkArm.delivers, remainder_isSome undescribed, Bool.or_true]
  cases streams : arm.streams with
  | true =>
    have present : arm.content pending (arm.delta.getD "") ∈ arm.continuation pending := by
      simp [ChunkArm.continuation, streams]
    exact accounted_of_content present undescribed plain
  | false =>
    have present : arm.content pending "" ∈ arm.continuation pending := by
      simp [ChunkArm.continuation, streams, delivers]
    exact accounted_of_content present undescribed plain

/-- What an opening chunk with nothing to stream makes of a property. -/
theorem accounted_of_opens_iff {event : Event} {arm : ChunkArm}
    (chunk : chunkArm? event = some arm) {pending : PendingStream} (opener : arm.opener = .ok pending)
    {closed : List Event} (ended : ∀ output ∈ closed, (ends? output).isSome)
    {key : String} {value : Json} (undescribed : Undescribed arm key value) (plain : key ≠ "__proto__") :
    Accounted (closed ++ arm.opening pending) (arm.openingWarnings suppressed pending) key value ↔
      ¬ (suppressed = true ∧ key = "role" ∧ arm.kind = .reasoning ∧ arm.streams = false) := by
  rcases Option.isSome_iff_exists.mp (remainder_isSome undescribed) with ⟨remainder, carried⟩
  have kept : remainder.get? key = some value := by
    have found := (get?_remainder_eq_some arm key value).mpr ⟨undescribed, plain⟩
    rwa [carried, Option.getD_some] at found
  cases streams : arm.streams with
  | true =>
    have present : arm.content pending (arm.delta.getD "") ∈ closed ++ arm.opening pending := by
      simp [ChunkArm.opening, streams]
    apply iff_of_true (accounted_of_content present undescribed plain)
    rintro ⟨_, _, _, impossible⟩
    cases impossible
  | false =>
    have opening : arm.opening pending = [spreadUnder remainder (pending.startEvent arm.event.metadata)] := by
      simp [ChunkArm.opening, streams, carried]
    have shadows : key ∈ arm.shadowed pending ↔ key ∈ ownKeys (pending.startEvent arm.event.metadata) := by
      have listed : key ∈ remainder.keys := by
        rw [OrderedMap.mem_keys_iff, OrderedMap.has, kept]
        rfl
      simp [ChunkArm.shadowed, carried, List.mem_filter, listed]
    have role := @owned_undescribed event arm chunk pending opener key
    rw [and_iff_left undescribed.2] at role
    have onOpener : (∃ output ∈ closed ++ arm.opening pending, ends? output = none ∧
        output.extra.get? key = some value) ↔ ¬ key ∈ ownKeys (pending.startEvent arm.event.metadata) := by
      rw [opening]
      constructor
      · rintro ⟨output, present, notEnd, found⟩ own
        rcases List.mem_append.mp present with early | last
        · have closes := ended output early
          rw [notEnd] at closes
          cases closes
        · rw [List.mem_singleton.mp last, extra_spreadUnder, OrderedMap.get?_filterKeys] at found
          simp [own] at found
      · intro free
        refine ⟨_, List.mem_append_right closed List.mem_cons_self, ?_, ?_⟩
        · rw [ends_spreadUnder, ends_startEvent]
        · rw [extra_spreadUnder, OrderedMap.get?_filterKeys, kept]
          simp [free]
    have inWarning : (∃ warning ∈ arm.openingWarnings suppressed pending,
        key ∈ warning.shadowed) ↔
        key ∈ ownKeys (pending.startEvent arm.event.metadata) ∧ suppressed = false := by
      rw [← shadows]
      unfold ChunkArm.openingWarnings
      constructor
      · rintro ⟨warning, warned, named⟩
        split at warned
        · cases warned
        · rename_i reported
          rw [List.mem_singleton.mp warned] at named
          refine ⟨named, ?_⟩
          cases suppressed with
          | true => exact absurd (Bool.or_true _) reported
          | false => rfl
      · rintro ⟨named, rfl⟩
        have some_ : (arm.shadowed pending).isEmpty = false :=
          List.isEmpty_eq_false_iff.mpr (List.ne_nil_of_mem named)
        rw [streams, some_]
        exact ⟨_, List.mem_cons_self, named⟩
    unfold Accounted
    rw [onOpener, inWarning, role]
    cases suppressed with
    | true => simp
    | false =>
      refine iff_of_true ?_ (by simp)
      by_cases both : key = "role" ∧ arm.kind = .reasoning
      · exact Or.inr ⟨both, rfl⟩
      · exact Or.inl both

variable {lanes : OrderedMap Lane PendingStream}

/-- The lane of a chunk that names an id holds that id only if the chunk continues it. -/
theorem laneHolding_ne_none {lane : Lane} {pending : PendingStream}
    (held : lanes.get? lane = some pending) {arm : ChunkArm} (same : arm.Continues pending) {id : String}
    (named : arm.entityId = some id) : laneHolding lanes arm.kind id ≠ none := by
  intro nobody
  apply laneHolding_eq_none nobody held
  rcases same with ⟨kind, missing | present⟩
  · rw [missing] at named
    cases named
  · rw [present] at named
    exact ⟨kind, Option.some.inj named⟩

/-- Exactly which properties of a chunk are lost. -/
theorem accounted_iff {before : TransformState} {event : Event} {arm : ChunkArm}
    (chunk : chunkArm? event = some arm) {lane : Lane}
    (resolution : resolveLane before.lanes arm.kind arm.entityId arm.event.subagentRunId.toOption = .ok lane)
    (assembled : Assembled suppressed arm (before.lanes.get? lane) assembly)
    {key : String} {value : Json} (undescribed : Undescribed arm key value) :
    Accounted assembly.events assembly.warnings key value ↔ ¬ Loses suppressed before arm key := by
  by_cases special : key = "__proto__"
  · subst special
    exact iff_of_false (not_accounted_proto assembled value) fun kept => kept (Or.inl rfl)
  · have loses : Loses suppressed before arm key ↔
        (suppressed = true ∧ key = "role" ∧ arm.kind = .reasoning ∧ arm.streams = false) ∧
          ∃ id, arm.entityId = some id ∧ laneHolding before.lanes .reasoning id = none := by
      unfold Loses
      rw [or_iff_right special]
      simp only [and_assoc]
    cases assembled with
    | continues pending held same =>
      apply iff_of_true (accounted_of_continues undescribed special)
      rw [loses]
      rintro ⟨⟨_, _, reasoning, _⟩, id, named, nobody⟩
      rw [← reasoning] at nobody
      exact laneHolding_ne_none held same named nobody
    | opens pending opener apart =>
      have ended : ∀ output ∈ ((before.lanes.get? lane).map PendingStream.endEvent).toList,
          (ends? output).isSome := by
        intro output member
        rw [Option.mem_toList, Option.map_eq_some_iff] at member
        rcases member with ⟨held, _, rfl⟩
        rw [ends_endEvent]
        rfl
      rw [accounted_of_opens_iff chunk opener ended undescribed special, loses]
      apply not_congr
      constructor
      · intro parts
        rcases arm.opens pending opener with ⟨named, kind, _⟩
        have nobody := (resolved_of_opens (resolveLane_resolved resolution) opener apart).2
        rw [kind, parts.2.2.1] at nobody
        exact ⟨parts, pending.entityId, named, nobody⟩
      · exact fun parts => parts.1

/-- Raw events and metadata always arrive, and never on an END. -/
theorem carries_raw {arm : ChunkArm} (assembled : Assembled suppressed arm open? assembly) :
    assembly.events.filterMap Event.rawEvent = arm.event.rawEvent.toList := by
  have silent : arm.streams = false -> arm.event.rawEvent = none := by
    intro streams
    have noRaw := (Bool.or_eq_false_iff.mp streams).2
    exact Option.isNone_iff_eq_none.mp (by rw [← Option.not_isSome, noRaw]; rfl)
  have single : ∀ delta pending, [arm.content pending delta].filterMap Event.rawEvent =
      arm.event.rawEvent.toList := by
    intro delta pending
    cases raw : arm.event.rawEvent <;> simp [raw]
  cases assembled with
  | continues pending held same =>
    simp only [ChunkArm.continuation]
    cases streams : arm.streams with
    | true => exact single _ _
    | false =>
      split
      · exact single _ _
      · split
        · exact single _ _
        · rw [silent streams]
          rfl
  | opens pending opener apart =>
    have closed : ((open?.map PendingStream.endEvent).toList).filterMap Event.rawEvent = [] := by
      cases open? <;> simp
    rw [List.filterMap_append, closed, List.nil_append]
    simp only [ChunkArm.opening]
    cases streams : arm.streams with
    | true =>
      rw [if_pos rfl, List.filterMap_cons_none (rawEvent_startEvent _ _)]
      exact single _ _
    | false =>
      rw [silent streams]
      cases arm.remainder <;> simp

theorem carries_metadata {arm : ChunkArm}
    (assembled : Assembled suppressed arm open? assembly) {metadata : Metadata}
    (present : arm.event.metadata = some metadata) :
    ∃ output ∈ assembly.events, ends? output = none ∧ output.metadata = some metadata := by
  cases assembled with
  | continues pending held same =>
    have delivers : arm.delivers = true := by simp [ChunkArm.delivers, present]
    have some_ : ∃ delta, arm.content pending delta ∈ arm.continuation pending := by
      cases streams : arm.streams with
      | true => exact ⟨arm.delta.getD "", by simp [ChunkArm.continuation, streams]⟩
      | false => exact ⟨"", by simp [ChunkArm.continuation, streams, delivers]⟩
    rcases some_ with ⟨delta, member⟩
    exact ⟨_, member, ends_content arm pending delta, by rw [metadata_content, present]⟩
  | opens pending opener apart =>
    have first : ∃ start ∈ arm.opening pending, ends? start = none ∧
        start.metadata = arm.event.metadata := by
      simp only [ChunkArm.opening]
      split
      · exact ⟨_, List.mem_cons_self, ends_startEvent _ _, metadata_startEvent _ _⟩
      · split
        · exact ⟨_, List.mem_cons_self, ends_startEvent _ _, metadata_startEvent _ _⟩
        · refine ⟨_, List.mem_cons_self, ?_, ?_⟩
          · rw [ends_spreadUnder, ends_startEvent]
          · rw [metadata_spreadUnder, metadata_startEvent]
    rcases first with ⟨start, member, notEnd, same⟩
    exact ⟨start, List.mem_append_right _ member, notEnd, same.trans present⟩

theorem closings_bare {arm : ChunkArm} (assembled : Assembled suppressed arm open? assembly) {output : Event}
    (member : output ∈ assembly.events) (closes : (ends? output).isSome) : output.metadata = none := by
  cases synthesized_of_mem assembled member with
  | closing held same => exact metadata_endEvent held
  | start =>
    rw [ends_startEvent] at closes
    cases closes
  | carrying remainder same =>
    rw [ends_spreadUnder, ends_startEvent] at closes
    cases closes
  | content delta =>
    rw [ends_content] at closes
    cases closes

/-! ## Deltas -/

theorem resolvedItem_eq {arm : ChunkArm}
    {lane : Lane} (resolution : resolveLane lanes arm.kind arm.entityId arm.event.subagentRunId.toOption = .ok lane)
    (assembled : Assembled suppressed arm (lanes.get? lane) assembly) :
    resolvedItem lanes arm = some assembly.pending.item := by
  unfold resolvedItem
  cases assembled with
  | continues pending held same =>
    rcases same with ⟨kind, missing | named⟩
    · rw [missing] at resolution ⊢
      dsimp only
      rw [resolution]
      dsimp only
      rw [held]
      rfl
    · rw [named]
      simp [PendingStream.item, kind]
  | opens pending opener apart =>
    rcases arm.opens pending opener with ⟨named, kind, _⟩
    rw [named]
    simp [PendingStream.item, kind]

/-- A chunk's delta is on one content event, under the item the chunk resolved to. -/
theorem deltas_assembled {event : Event} {arm : ChunkArm} (chunk : chunkArm? event = some arm) {lane : Lane}
    (resolution : resolveLane lanes arm.kind arm.entityId arm.event.subagentRunId.toOption = .ok lane)
    (assembled : Assembled suppressed arm (lanes.get? lane) assembly) :
    deltas assembly.events = resolvedDelta lanes event := by
  have silent : arm.streams = false -> arm.delta = none := by
    intro streams
    have noDelta := (Bool.or_eq_false_iff.mp streams).1
    exact Option.isNone_iff_eq_none.mp (by rw [← Option.not_isSome, noDelta]; rfl)
  rw [resolvedDelta, chunk]
  dsimp only
  rw [resolvedItem_eq resolution assembled]
  have spoken : ∀ pending, deltas [arm.content pending (arm.delta.getD "")] =
      match arm.delta with
      | some delta => if delta ≠ "" then [(pending.item, delta)] else []
      | none => [] := by
    intro pending
    cases delta : arm.delta with
    | none => simp [deltas]
    | some text => by_cases empty : text = "" <;> simp [deltas, empty]
  have bare : ∀ pending, deltas [arm.content pending ""] = [] := by
    intro pending
    simp [deltas]
  cases assembled with
  | continues pending held same =>
    simp only [ChunkArm.continuation]
    cases streams : arm.streams with
    | true =>
      rw [if_pos rfl, spoken]
      cases arm.delta <;> rfl
    | false =>
      rw [silent streams]
      split
      · cases ‹false = true›
      · split
        · exact bare pending
        · rfl
  | opens pending opener apart =>
    have closed : deltas ((lanes.get? lane).map PendingStream.endEvent).toList = [] := by
      cases lanes.get? lane <;> simp [deltas]
    have split_ : ∀ rest, deltas (((lanes.get? lane).map PendingStream.endEvent).toList ++ rest) =
        deltas rest := by
      intro rest
      simp only [deltas, List.filterMap_append, List.filter_append] at closed ⊢
      rw [closed, List.nil_append]
    rw [split_]
    simp only [ChunkArm.opening]
    cases streams : arm.streams with
    | true =>
      have skipped : ∀ rest, deltas (pending.startEvent arm.event.metadata :: rest) = deltas rest := by
        intro rest
        simp [deltas]
      rw [if_pos rfl, skipped, spoken]
      cases arm.delta <;> rfl
    | false =>
      rw [silent streams]
      cases arm.remainder <;> simp [deltas]

theorem deltas_append (first second : List Event) : deltas (first ++ second) = deltas first ++ deltas second := by
  simp only [deltas, List.filterMap_append, List.filter_append]

/-- Empty deltas add nothing to the text of an item. -/
theorem textOf_nonempty (item : Item) (pieces : List (Item × String)) :
    textOf item (pieces.filter fun piece => piece.2 ≠ "") = textOf item pieces := by
  unfold textOf
  induction pieces with
  | nil => rfl
  | cons piece rest ih =>
    rcases piece with ⟨owner, text⟩
    by_cases empty : text = "" <;> by_cases own : owner = item <;>
      simp_all [String.join_cons]

/-! ## A stream of chunks -/

/-- Everything about one chunk but its properties, and those exactly when none is lost. -/
theorem delivers_iff {before after : TransformState} {event : Event} {arm : ChunkArm}
    {outputs : List Event} (chunk : chunkArm? event = some arm)
    (step : transformChunks suppressed before event = .ok (after, outputs)) :
    deltas outputs = resolvedDelta before.lanes event ∧
      (Delivers before arm after outputs ↔
        ∀ key value, Undescribed arm key value -> ¬ Loses suppressed before arm key) := by
  have expansion : expandChunk suppressed before arm = .ok (after, outputs) := by
    simpa only [transformChunks, chunk] using step
  rcases expandChunk_eq_ok expansion with ⟨lane, assembly, resolution, done, rfl, rfl⟩
  have assembled := assemble_assembled done
  refine ⟨deltas_assembled chunk resolution assembled, ?_⟩
  have reported : (before.warnings ++ assembly.warnings).drop before.warnings.length = assembly.warnings :=
    List.drop_left
  constructor
  · intro delivers key value undescribed
    have accounted := delivers.properties key value undescribed
    rw [reported] at accounted
    exact (accounted_iff chunk resolution assembled undescribed).mp accounted
  · intro kept
    refine ⟨carries_raw assembled, fun metadata present => carries_metadata assembled present,
      fun output member closes => closings_bare assembled member closes, ?_⟩
    intro key value undescribed
    rw [reported]
    exact (accounted_iff chunk resolution assembled undescribed).mpr (kept key value undescribed)

theorem deltas_runs {state final : TransformState} {events outputs : List Event}
    (chunks : ∀ event ∈ events, event.isChunk = true)
    (runs : Stage.Runs (transformChunks suppressed) state events outputs final) :
    deltas outputs = resolvedDeltas suppressed state events := by
  induction runs with
  | nil state => rfl
  | @cons state after final event output rest outputs step tail ih =>
    have whole := chunks event List.mem_cons_self
    have armed : ∃ arm, chunkArm? event = some arm := by
      cases event <;> first | exact ⟨_, rfl⟩ | cases whole
    rcases armed with ⟨arm, chunk⟩
    rw [deltas_append, (delivers_iff chunk step).1,
      ih (List.forall_mem_cons.mp chunks).2]
    simp only [resolvedDeltas, step]

/-- Conservation: the deltas of the chunks, each under the item its chunk
resolved to, are the deltas of the output in the same order; so each item
receives the text that was sent to it; and each chunk, in the state it
arrives in, expands into events that deliver what it carries. -/
structure Conserves (suppressed : Bool) (events outputs : List Event) : Prop where
  order : deltas outputs = resolvedDeltas suppressed {} events
  texts : ∀ item, textOf item (outputs.filterMap content?) =
    textOf item (resolvedDeltas suppressed {} events)
  each : ∀ past event future, events = past ++ event :: future ->
    ∀ emitted before, Stage.Runs (transformChunks suppressed) {} past emitted before ->
    ∀ arm after emission, chunkArm? event = some arm ->
    transformChunks suppressed before event = .ok (after, emission) ->
      deltas emission = resolvedDelta before.lanes event ∧ Delivers before arm after emission

/-- A stream of chunks is conserved exactly when none of its chunks, in the
state it arrives in, loses a property. -/
theorem transformChunks_conserves_iff (suppressed : Bool) (events outputs : List Event)
    (final : TransformState) (chunks : ∀ event ∈ events, event.isChunk = true)
    (runs : Stage.Runs (transformChunks suppressed) {} events outputs final) :
    Conserves suppressed events outputs ↔
      ∀ past event future, events = past ++ event :: future ->
        ∀ emitted before, Stage.Runs (transformChunks suppressed) {} past emitted before ->
        ∀ arm, chunkArm? event = some arm ->
        ∀ key value, Undescribed arm key value -> ¬ Loses suppressed before arm key := by
  constructor
  · intro conserves past event future split emitted before reached arm chunk
    subst split
    rcases runs.exists_middle with ⟨middle, early, late, _, head, tail⟩
    rcases tail.of_cons with ⟨after, emission, _, _, step, _⟩
    have here := (head.deterministic reached).2
    subst here
    have delivers := (conserves.each past event future rfl early middle head arm after emission chunk step).2
    exact (delivers_iff chunk step).2.mp delivers
  · intro kept
    have order := deltas_runs chunks runs
    refine ⟨order, ?_, ?_⟩
    · intro item
      rw [← order, deltas, textOf_nonempty]
    · intro past event future split emitted before reached arm after emission chunk step
      have one := delivers_iff chunk step
      exact ⟨one.1, one.2.mpr (kept past event future split emitted before reached arm chunk)⟩

/-- Chunks with a property of a vendor. -/
theorem transformChunks_conserves_vendor :
    let events : List Event :=
      [.textMessageChunk { messageId := some "m", extra := OrderedMap.ofList [("vendor", .string "x")] },
       .textMessageChunk { delta := some "hello", rawEvent := some (.string "payload") }]
    let outputs := ((transformChunks false).run {} events).1
    Conserves false events outputs := by
  intro events outputs
  have runs : Stage.Runs (transformChunks false) {} events outputs _ :=
    (Stage.runs_iff_run _ _ _ _).mpr rfl
  refine (transformChunks_conserves_iff false events outputs _ (by decide) runs).mpr ?_
  intro past event future split emitted before reached arm chunk key value undescribed loses
  have plain : key ≠ "__proto__" := by
    rintro rfl
    have member : event ∈ events := by rw [split]; simp
    simp only [events, List.mem_cons, List.not_mem_nil, or_false] at member
    rcases member with rfl | rfl <;> cases chunk <;> cases undescribed.1
  rcases loses with special | ⟨impossible, _⟩
  · exact plain special
  · cases impossible

/-- The first chunk of a message carries a property called `__proto__`. -/
def protoChunk : TextMessageChunkEvent :=
  { messageId := some "m", delta := some "hello", extra := OrderedMap.ofList [("__proto__", .string "x")] }

/-- The property makes no key, and is gone. -/
theorem protoChunk_not_conserved :
    (transformChunks false).accepts {} [.textMessageChunk protoChunk] = true ∧
      ¬ Conserves false [.textMessageChunk protoChunk]
        ((transformChunks false).run {} [.textMessageChunk protoChunk]).1 := by
  refine ⟨by decide, ?_⟩
  intro conserves
  have delivers := (conserves.each [] (.textMessageChunk protoChunk) [] rfl [] {} (.nil _) _ _ _ rfl rfl).2
  have undescribed : Undescribed (textChunkArm protoChunk) "__proto__" (.string "x") := ⟨rfl, rfl⟩
  have done : assemble false (textChunkArm protoChunk) none = .ok _ := rfl
  exact not_accounted_proto (assemble_assembled done) (.string "x") (delivers.properties _ _ undescribed)

end Chunks
end AgUi
