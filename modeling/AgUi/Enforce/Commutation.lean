import AgUi.Enforce.Expansion

namespace AgUi
namespace Enforce

open Library Protocol Chunks

/-!
# Enforcement and expansion commute

A chunk without its unknown properties (`ChunkArm.bare`) is expanded in the
same lane to the same events, less what they took over.  Enforcement removes
just that.  So the two pipelines keep the same lanes open and pass on the same
objects, but for the content event of a chunk with nothing known to say.
-/

/-! ## Chunks without their unknown properties -/

/-- The arm of a chunk after enforcement. -/
def bare (arm : ChunkArm) : ChunkArm :=
  { arm with event := { arm.event with extra := OrderedMap.empty } }

theorem openStream_bare (arm : ChunkArm) (open? : Option PendingStream) :
    openStream (bare arm) open? = openStream arm open? := rfl

/-- What a synthesized event becomes once its chunk is enforced first. -/
inductive Bared (arm : ChunkArm) : Event -> Event -> Prop
  | ended (held : PendingStream) (tagged : held.subagentRunId ≠ .null) : Bared arm held.endEvent held.endEvent
  | started (pending : PendingStream) (tagged : pending.subagentRunId ≠ .null) :
      Bared arm (pending.startEvent arm.event.metadata) (pending.startEvent arm.event.metadata)
  | carrying (pending : PendingStream) (tagged : pending.subagentRunId ≠ .null) (own : pending.kind = arm.kind)
      (remainder : Properties) (same : arm.remainder = some remainder) :
      Bared arm (spreadUnder remainder (pending.startEvent arm.event.metadata))
        (pending.startEvent arm.event.metadata)
  | content (pending : PendingStream) (tagged : contentOwner arm pending ≠ .null) (own : pending.kind = arm.kind)
      (delta : String) : Bared arm (arm.content pending delta) ((bare arm).content pending delta)

/-- What a chunk is expanded to, and what it would be without its unknown properties. -/
inductive Expansions (arm : ChunkArm) : List Event -> List Event -> Prop
  | alike {events others : List Event} (each : List.Forall₂ (Bared arm) events others) :
      Expansions arm events others
  | remainder (pending : PendingStream) (tagged : contentOwner arm pending ≠ .null) (own : pending.kind = arm.kind) :
      Expansions arm [arm.content pending ""] []

variable {arm : ChunkArm}

theorem contentOwner_ne_null {pending : PendingStream} (tagged : arm.event.subagentRunId ≠ .null)
    (owned : pending.subagentRunId ≠ .null) : contentOwner arm pending ≠ .null := by
  unfold contentOwner
  split
  · exact tagged
  · exact owned

theorem continuation_bare {pending : PendingStream} (tagged : arm.event.subagentRunId ≠ .null)
    (owned : pending.subagentRunId ≠ .null) (own : pending.kind = arm.kind) :
    Expansions arm (arm.continuation pending) ((bare arm).continuation pending) := by
  have named := contentOwner_ne_null tagged owned
  have streams : (bare arm).streams = arm.streams := rfl
  unfold ChunkArm.continuation
  rw [streams]
  cases arm.streams with
  | true => exact .alike (.cons (.content pending named own _) .nil)
  | false =>
    simp only [Bool.false_eq_true, if_false]
    by_cases known : (bare arm).delivers = true
    · have delivers : arm.delivers = true := by
        rw [ChunkArm.delivers, Bool.or_eq_true] at known ⊢
        rcases known with known | remainder
        · exact Or.inl known
        · cases remainder
      rw [if_pos known, if_pos delivers]
      exact .alike (.cons (.content pending named own "") .nil)
    · rw [if_neg known]
      split
      · exact .remainder pending named own
      · exact .alike .nil

theorem opening_bare {pending : PendingStream} (tagged : arm.event.subagentRunId ≠ .null)
    (owned : pending.subagentRunId ≠ .null) (own : pending.kind = arm.kind) :
    List.Forall₂ (Bared arm) (arm.opening pending) ((bare arm).opening pending) := by
  have named := contentOwner_ne_null tagged owned
  have streams : (bare arm).streams = arm.streams := rfl
  unfold ChunkArm.opening
  simp only [streams]
  cases arm.streams with
  | true => exact .cons (.started pending owned) (.cons (.content pending named own _) .nil)
  | false =>
    have nothing : (bare arm).remainder = none := rfl
    simp only [Bool.false_eq_true, if_false, nothing]
    cases carried : arm.remainder with
    | none => exact .cons (.started pending owned) .nil
    | some remainder => exact .cons (.carrying pending owned own remainder carried) .nil

/-- No lane was opened with `subagentRunId: null`. -/
def NoNullOwner (state : TransformState) : Prop :=
  ∀ lane pending, state.lanes.get? lane = some pending -> pending.subagentRunId ≠ .null

theorem assemble_eq_error {suppressed : Bool} {open? : Option PendingStream} {error : ChunkError} :
    assemble suppressed arm open? = .error error ↔ openStream arm open? = .error error := by
  unfold assemble
  cases openStream arm open? with
  | error other => exact ⟨fun same => congrArg Except.error (Except.error.inj same), fun same =>
    congrArg Except.error (Except.error.inj same)⟩
  | ok triple =>
    constructor
    · intro impossible
      cases impossible
    · intro impossible
      cases impossible

variable (suppressed : Bool)

/-- In the same lane, a chunk does to it the same with and without its unknown properties. -/
theorem assemble_bare {open? : Option PendingStream} (tagged : arm.event.subagentRunId ≠ .null)
    (owned : ∀ held, open? = some held -> held.subagentRunId ≠ .null) {assembly : Assembly}
    (done : assemble suppressed arm open? = .ok assembly) :
    ∃ other, assemble suppressed (bare arm) open? = .ok other ∧ other.pending = assembly.pending ∧
      other.opened = assembly.opened ∧ Expansions arm assembly.events other.events := by
  cases bareDone : assemble suppressed (bare arm) open? with
  | error error =>
    have failed := assemble_eq_error.mp bareDone
    rw [openStream_bare] at failed
    rw [assemble_eq_error.mpr failed] at done
    cases done
  | ok other =>
    refine ⟨other, rfl, ?_⟩
    cases assemble_assembled done with
    | continues pending held same =>
      cases assemble_assembled bareDone with
      | continues other otherHeld _ =>
        cases held.symm.trans otherHeld
        exact ⟨rfl, rfl, continuation_bare tagged (owned pending held) same.1⟩
      | opens other _ apart => exact absurd same (apart pending held)
    | opens pending opener apart =>
      cases assemble_assembled bareDone with
      | continues other otherHeld same => exact absurd same (apart other otherHeld)
      | opens other otherOpener _ =>
        cases opener.symm.trans otherOpener
        rcases arm.opens pending opener with ⟨_, kind, tag⟩
        have fresh : pending.subagentRunId ≠ .null := tag ▸ tagged
        have opened := opening_bare tagged fresh kind
        refine ⟨rfl, rfl, .alike ?_⟩
        cases open? with
        | none => exact opened
        | some held => exact .cons (.ended held (owned held rfl)) opened

/-! ## What enforcement makes of the synthesized events -/

/-- An arm that was read off an object knows the fields of its chunk. -/
structure Read (arm : ChunkArm) : Prop where
  described : arm.described = describedFields arm.kind.chunkType
  given : arm.event.rawEvent ≠ some .null
  tagged : arm.event.subagentRunId ≠ .null

theorem remainder_described (read : Read arm) {key : String}
    (described : key ∈ describedFields arm.kind.chunkType) :
    (arm.remainder.getD OrderedMap.empty).get? key = none := by
  have listed : arm.described.contains key = true := by
    rw [read.described]
    exact List.contains_iff_mem.mpr described
  rw [ChunkArm.remainder, get?_unrecognised, listed, Bool.true_or, if_pos rfl]

theorem Writes.congr {event other : Event} {type : EventType} (writes : Writes event type)
    (same : ownFields other = ownFields event) : Writes other type where
  synthesized := writes.synthesized
  typed := same ▸ writes.typed
  accepted := same ▸ writes.accepted
  owned := same ▸ writes.owned

/-- A content event describes nothing that its chunk does not. -/
theorem described_content {pending : PendingStream} {kind : PendingKind} (own : pending.kind = kind)
    (base : BaseEvent) (delta : String) (owner : Tag) {key : String}
    (described : key ∈ describedFields (pending.contentEvent base delta owner).type) :
    key ∈ describedFields kind.chunkType := by
  subst own
  revert key
  cases pending with
  | text fields =>
    exact (by decide : ∀ key ∈ describedFields .textMessageContent, key ∈ describedFields .textMessageChunk) _
  | tool fields =>
    exact (by decide : ∀ key ∈ describedFields .toolCallArgs, key ∈ describedFields .toolCallChunk) _
  | reasoning fields =>
    exact (by decide : ∀ key ∈ describedFields .reasoningMessageContent,
      key ∈ describedFields .reasoningMessageChunk) _

/-- Nor does an opener, but for the role it always has. -/
theorem described_start {pending : PendingStream} {kind : PendingKind} (own : pending.kind = kind)
    (metadata : Option Metadata) {key : String}
    (described : key ∈ describedFields (pending.startEvent metadata).type)
    (open_ : ((ownFields (pending.startEvent metadata)).lookup key).join = none) :
    key ∈ describedFields kind.chunkType := by
  subst own
  cases pending with
  | text fields =>
    revert key
    exact fun {key} described _ =>
      (by decide : ∀ key ∈ describedFields .textMessageStart, key ∈ describedFields .textMessageChunk)
        key described
  | tool fields =>
    exact (by decide : ∀ key ∈ describedFields .toolCallStart, key ∈ describedFields .toolCallChunk)
      key described
  | reasoning fields =>
    have role : ∀ key ∈ describedFields .reasoningMessageStart,
        key ∈ describedFields .reasoningMessageChunk ∨ key = "role" := by decide
    rcases role key described with known | rfl
    · exact known
    · cases open_

theorem enforce_bared (read : Read arm) {event other : Event} (bared : Bared arm event other) :
    ∃ enforced deviations,
      enforceEvent (write event) = .ok (some enforced, deviations) ∧ Same enforced (write other) := by
  cases bared with
  | ended held tagged =>
    refine enforce_write (writes_end held tagged) ?_ rfl (extra_endEvent held)
    intro key _ _
    rw [extra_endEvent]
    rfl
  | started pending tagged =>
    refine enforce_write (writes_start pending arm.event.metadata tagged) ?_ rfl (extra_startEvent pending _)
    intro key _ _
    rw [extra_startEvent]
    rfl
  | carrying pending tagged own remainder carried =>
    have same : ownFields (spreadUnder remainder (pending.startEvent arm.event.metadata)) =
        ownFields (pending.startEvent arm.event.metadata) := by
      cases pending <;> rfl
    refine enforce_write ((writes_start pending arm.event.metadata tagged).congr same) ?_ same.symm
      (extra_startEvent pending _)
    intro key described absent
    rw [same] at absent
    have known := remainder_described read (described_start own _ described absent)
    rw [carried] at known
    rw [extra_spreadUnder, OrderedMap.get?_filterKeys, show remainder.get? key = none from known]
    split <;> rfl
  | content pending tagged own delta =>
    refine enforce_write (writes_content pending arm.origin delta tagged read.given) ?_ ?_ ?_
    · intro key described _
      rw [show (pending.contentEvent arm.origin delta (contentOwner arm pending)).extra = _ from
        extra_content arm pending delta]
      exact remainder_described read (described_content own _ _ _ described)
    · cases pending <;> rfl
    · exact extra_content (bare arm) pending delta

/-! ## Reading an object before and after enforcement -/

theorem stringField_congr {event other : Properties} {key : String} (same : event.get? key = other.get? key) :
    stringField event key = stringField other key := by
  rw [stringField, stringField, same]

theorem tagField_congr {event other : Properties} (same : event.get? "subagentRunId" = other.get? "subagentRunId") :
    tagField event = tagField other := by
  rw [tagField, tagField, same]

/-- The types of the chunks. -/
def chunkTypes : List EventType :=
  [.textMessageChunk, .toolCallChunk, .reasoningMessageChunk]

theorem chunkTypes_plain : ∀ type ∈ chunkTypes,
    ∀ entry ∈ eventShape type, entry.2.isPlain = true := by
  decide

/-- The fields that every stage looks at are plain in every event. -/
theorem routing_plain : ∀ type ∈ knownEventTypes, ∀ entry ∈ eventShape type,
    entry.1 ∈ ["type", "subagentRunId"] -> entry.2.isPlain = true := by
  decide

theorem type_described : ∀ type ∈ knownEventTypes, "type" ∈ describedFields type := by
  decide

section Enforced

variable {event enforced : Properties} {deviations : List Deviation} {type : EventType}
  (done : enforceEvent event = .ok (some enforced, deviations)) (recognised : recognisedType event = some type)

include done recognised

theorem recognisedType_enforced : recognisedType enforced = some type := by
  have known := (recognisedType_mem recognised).1
  have kept := enforceEvent_plain done recognised fun field member =>
    routing_plain type known ("type", field) member List.mem_cons_self
  rw [if_pos (type_described type known)] at kept
  rw [recognisedType_congr kept, recognised]

/-- What an event closes, it closes after enforcement. -/
theorem closingOf_enforced :
    closingOf (some type) (tagField enforced) = closingOf (some type) (tagField event) := by
  have known := (recognisedType_mem recognised).1
  have kept := enforceEvent_plain done recognised fun field member =>
    routing_plain type known ("subagentRunId", field) member (List.mem_cons_of_mem _ List.mem_cons_self)
  have reads : "subagentRunId" ∈ describedFields type ∨
      closingOf (some type) (tagField enforced) = closingOf (some type) (tagField event) := by
    cases type <;> first | exact Or.inr rfl | exact Or.inl (by decide)
  rcases reads with described | unread
  · rw [if_pos described] at kept
    rw [tagField_congr kept]
  · exact unread

theorem get?_enforced_chunk (chunk : type ∈ chunkTypes) (key : String) :
    enforced.get? key = if key ∈ describedFields type then event.get? key else none :=
  enforceEvent_plain done recognised fun field member => chunkTypes_plain type chunk (key, field) member

theorem readAttributed_enforced (chunk : type ∈ chunkTypes) :
    readAttributed type enforced = { readAttributed type event with extra := OrderedMap.empty } := by
  have kept := get?_enforced_chunk done recognised chunk
  have base : ∀ key ∈ ["timestamp", "rawEvent", "metadata", "subagentRunId"],
      enforced.get? key = event.get? key := by
    intro key member
    have described : ∀ type ∈ chunkTypes, ∀ key,
        key ∈ ["timestamp", "rawEvent", "metadata", "subagentRunId"] -> key ∈ describedFields type := by decide
    rw [kept key, if_pos (described type chunk key member)]
  have nothing : (enforced.filterKeys fun key => !(describedFields type).contains key) = OrderedMap.empty := by
    apply OrderedMap.ext
    refine List.filter_eq_nil_iff.mpr ?_
    rintro ⟨key, value⟩ member
    have found := (enforced.mem_entries_iff key value).mp member
    rw [kept key] at found
    split at found
    · rename_i described
      simpa using described
    · cases found
  rw [readAttributed, readAttributed, nothing, base "rawEvent" (by decide), timestampField, timestampField,
    base "timestamp" (by decide), metadataField, metadataField, base "metadata" (by decide),
    tagField_congr (base "subagentRunId" (by decide))]

/-- Enforcement takes a chunk its unknown properties. -/
theorem readChunk_enforced {arm : ChunkArm} (chunk : readChunk event = some arm) :
    readChunk enforced = some (bare arm) := by
  rw [readChunk, recognised] at chunk
  rw [readChunk, recognisedType_enforced done recognised]
  have field : type ∈ chunkTypes -> ∀ key ∈ describedFields type,
      stringField enforced key = stringField event key := by
    intro isChunk key described
    apply stringField_congr
    rw [get?_enforced_chunk done recognised isChunk key, if_pos described]
  cases type with
  | textMessageChunk =>
    have member : EventType.textMessageChunk ∈ chunkTypes := by decide
    cases chunk
    simp only [readTextMessageChunk, readAttributed_enforced done recognised member, roleField,
      field member "messageId" (by decide), field member "role" (by decide), field member "delta" (by decide),
      field member "name" (by decide)]
    rfl
  | toolCallChunk =>
    have member : EventType.toolCallChunk ∈ chunkTypes := by decide
    cases chunk
    simp only [readToolCallChunk, readAttributed_enforced done recognised member,
      field member "toolCallId" (by decide), field member "toolCallName" (by decide),
      field member "parentMessageId" (by decide), field member "delta" (by decide)]
    rfl
  | reasoningMessageChunk =>
    have member : EventType.reasoningMessageChunk ∈ chunkTypes := by decide
    cases chunk
    simp only [readReasoningMessageChunk, readAttributed_enforced done recognised member,
      field member "messageId" (by decide), field member "delta" (by decide)]
    rfl
  | _ => cases chunk

/-- A well-formed chunk has no null where the schemas allow none. -/
theorem read_of_done {arm : ChunkArm} (chunk : readChunk event = some arm) : Read arm := by
  rw [readChunk, recognised] at chunk
  have fields : type ∈ chunkTypes -> (event.get? "rawEvent" ≠ some .null) ∧ tagField event ≠ .null := by
    intro isChunk
    have shape : ∀ type ∈ chunkTypes, ("rawEvent", optionalValue) ∈ eventShape type ∧
        ("subagentRunId", .optional subagentRunIdSchema) ∈ eventShape type := by
      intro type member
      simp only [chunkTypes, List.mem_cons, List.not_mem_nil, or_false] at member
      rcases member with rfl | rfl | rfl <;> simp [eventShape, attributable, baseEvent]
    have plain := fun key field member => chunkTypes_plain type isChunk (key, field) member
    have raw := enforceEvent_field done recognised (shape type isChunk).1 (plain "rawEvent")
    have tag := enforceEvent_field done recognised (shape type isChunk).2 (plain "subagentRunId")
    constructor
    · intro null
      rw [null] at raw
      cases raw
    · intro null
      unfold tagField at null
      split at null
      · cases null
      · rename_i found
        rw [found] at tag
        cases tag
      · cases null
  cases type with
  | textMessageChunk | toolCallChunk | reasoningMessageChunk =>
    cases chunk
    exact ⟨rfl, (fields (by decide)).1, (fields (by decide)).2⟩
  | _ => cases chunk

end Enforced

/-! ## One event -/

/-- A content event whose text is empty. -/
def isEmptyContent (event : Properties) : Bool :=
  (match recognisedType event with
    | some .textMessageContent => true
    | some .toolCallArgs => true
    | some .reasoningMessageContent => true
    | _ => false) && stringField event "delta" == some ""

/-- Two streams with the same objects, up to content events without text. -/
def Agree (events others : List Properties) : Prop :=
  List.Forall₂ Same (events.filter fun event => !isEmptyContent event)
    (others.filter fun event => !isEmptyContent event)

theorem isEmptyContent_congr {event other : Properties} (same : Same event other) :
    isEmptyContent event = isEmptyContent other := by
  rw [isEmptyContent, isEmptyContent, recognisedType_congr (same "type"), stringField_congr (same "delta")]

namespace Agree

theorem nil : Agree [] [] := List.Forall₂.nil

theorem cons {event other : Properties} {events others : List Properties} (same : Same event other)
    (agree : Agree events others) : Agree (event :: events) (other :: others) := by
  unfold Agree at agree ⊢
  rw [List.filter_cons, List.filter_cons, isEmptyContent_congr same]
  split
  · exact .cons same agree
  · exact agree

theorem append {events others later rest : List Properties} (first : Agree events others)
    (second : Agree later rest) : Agree (events ++ later) (others ++ rest) := by
  unfold Agree at first second ⊢
  rw [List.filter_append, List.filter_append]
  exact List.rel_append first second

theorem of_forall {events others : List Properties} (each : List.Forall₂ Same events others) :
    Agree events others := by
  induction each with
  | nil => exact nil
  | cons same _ ih => exact cons same ih

end Agree

/-- What enforcement passes on of an object. -/
def PassedOn (event : Properties) (enforced : Option Properties) : Prop :=
  ∃ deviations, enforceEvent event = .ok (enforced, deviations)

theorem run_enforceEvents {events : List Properties} {passed : List (Option Properties)}
    (each : List.Forall₂ PassedOn events passed) (reported : List Deviation) :
    ∃ after, (enforceEvents suppressed).run reported events = (passed.flatMap Option.toList, .ok after) := by
  induction each generalizing reported with
  | nil => exact ⟨reported, rfl⟩
  | @cons event enforced _ _ passed _ ih =>
    rcases passed with ⟨deviations, done⟩
    have step : enforceEvents suppressed reported event =
        .ok (if suppressed then reported else reported ++ deviations, enforced.toList) := by
      rw [enforceEvents, done]
    rcases ih (if suppressed then reported else reported ++ deviations) with ⟨after, later⟩
    exact ⟨after, by rw [Stage.run_cons_ok step, later]; rfl⟩

theorem run_single {S A B E : Type} {stage : Stage S A B E} {state next : S} {input : A} {output : List B}
    (step : stage state input = .ok (next, output)) : stage.run state [input] = (output, .ok next) := by
  simp only [Stage.run, step, List.append_nil]

/-- What the pipelines make of one event: nothing but an error, or objects that
agree, and the same lanes. -/
inductive Alike (suppressed : Bool) (early late : TransformState) (event : Properties) (enforced : Option Properties) :
    Prop
  | failed {error : ChunkError}
      (first : (transformObjects suppressed).run early enforced.toList = ([], .error error))
      (second : transformObjects suppressed late event = .error error)
  | passed {afterEarly afterLate : TransformState} {firstOut secondOut : List Properties}
      {kept : List (Option Properties)}
      (first : (transformObjects suppressed).run early enforced.toList = (firstOut, .ok afterEarly))
      (second : transformObjects suppressed late event = .ok (afterLate, secondOut))
      (lanes : afterEarly.lanes = afterLate.lanes) (owners : NoNullOwner afterLate)
      (each : List.Forall₂ PassedOn secondOut kept) (agree : Agree firstOut (kept.flatMap Option.toList))

theorem same_write_expansions (read : Read arm) {events others : List Event}
    (expansions : Expansions arm events others) : ∃ kept, List.Forall₂ PassedOn (events.map write) kept ∧
      Agree (others.map write) (kept.flatMap Option.toList) := by
  cases expansions with
  | alike each =>
    induction each with
    | nil => exact ⟨[], .nil, Agree.nil⟩
    | cons bared _ ih =>
      rcases ih with ⟨kept, passed, agree⟩
      rcases enforce_bared read bared with ⟨enforced, deviations, done, same⟩
      exact ⟨some enforced :: kept, .cons ⟨deviations, done⟩ passed, agree.cons fun key => (same key).symm⟩
  | remainder pending tagged own =>
    rcases enforce_bared read (.content pending tagged own "") with ⟨enforced, deviations, done, same⟩
    refine ⟨[some enforced], .cons ⟨deviations, done⟩ .nil, ?_⟩
    have empty : isEmptyContent enforced = true := by
      rw [isEmptyContent_congr same, isEmptyContent]
      have delta : stringField (write ((bare arm).content pending "")) "delta" = some "" := by
        rw [stringField, get?_write]
        cases pending <;> rfl
      have type : (write ((bare arm).content pending "")).get? "type" =
          some (.string ((bare arm).content pending "").type.name) := by
        rw [get?_write]
        cases pending <;> rfl
      rw [delta, recognisedType, type]
      cases pending <;> rfl
    unfold Agree
    simp [empty]

/-- The END events of lanes that are closed on the way of another event. -/
theorem passedOn_ended {pendings : List PendingStream}
    (owned : ∀ pending ∈ pendings, pending.subagentRunId ≠ .null) :
    ∃ kept, List.Forall₂ PassedOn ((pendings.map PendingStream.endEvent).map write) kept ∧
      Agree ((pendings.map PendingStream.endEvent).map write) (kept.flatMap Option.toList) := by
  induction pendings with
  | nil => exact ⟨[], .nil, Agree.nil⟩
  | cons pending rest ih =>
    rcases ih (List.forall_mem_cons.mp owned).2 with
      ⟨kept, passed, agree⟩
    have apart : ∀ key ∈ describedFields pending.endEvent.type,
        ((ownFields pending.endEvent).lookup key).join = none -> pending.endEvent.extra.get? key = none := by
      intro key _ _
      rw [extra_endEvent]
      rfl
    rcases enforce_write (writes_end pending (owned pending List.mem_cons_self)) apart rfl
      (extra_endEvent pending) with ⟨enforced, deviations, done, same⟩
    exact ⟨some enforced :: kept, .cons ⟨deviations, done⟩ passed, agree.cons fun key => (same key).symm⟩

theorem NoNullOwner.closeLane {state : TransformState} (owners : NoNullOwner state) (owner : Lane) :
    NoNullOwner { state with lanes := (closeLane state.lanes owner).1 } := by
  intro lane pending held
  unfold Chunks.closeLane at held
  split at held
  · exact owners lane pending held
  · exact owners lane pending (OrderedMap.get?_of_erase _ held)

variable {early late : TransformState} {deviations : List Deviation}

/-- An object that is not a chunk goes through both pipelines. -/
theorem alike_plain (lanes : early.lanes = late.lanes)
    (owners : NoNullOwner late) {event enforced : Properties}
    (done : enforceEvent event = .ok (some enforced, deviations)) {type : EventType}
    (recognised : recognisedType event = some type) (plain : type ∉ chunkTypes) :
    Alike suppressed early late event (some enforced) := by
  have noChunk : ∀ object, recognisedType object = some type -> readChunk object = none := by
    intro object known
    rw [readChunk, known]
    cases type <;> first | rfl | exact absurd (by decide) plain
  have known := recognisedType_enforced done recognised
  have closes : closingOf (recognisedType enforced) (tagField enforced) =
      closingOf (recognisedType event) (tagField event) := by
    rw [known, recognised]
    exact closingOf_enforced done recognised
  have finish : ∀ (pendings : List PendingStream) (after : OrderedMap Lane PendingStream),
      (∀ pending ∈ pendings, pending.subagentRunId ≠ .null) ->
      NoNullOwner { late with lanes := after } ->
      transformObjects suppressed early enforced =
        .ok ({ early with lanes := after }, (pendings.map PendingStream.endEvent).map write ++ [enforced]) ->
      transformObjects suppressed late event =
        .ok ({ late with lanes := after }, (pendings.map PendingStream.endEvent).map write ++ [event]) ->
      Alike suppressed early late event (some enforced) := by
    intro pendings after owned kept first second
    rcases passedOn_ended owned with ⟨passed, each, agree⟩
    refine .passed (run_single first) second rfl kept
      (List.rel_append each (.cons ⟨deviations, done⟩ .nil)) ?_
    rw [List.flatMap_append]
    exact agree.append (Agree.of_forall (.cons (Same.refl enforced) .nil))
  cases closing : closingOf (recognisedType event) (tagField event) with
  | lane owner =>
    refine finish (late.lanes.get? owner).toList (closeLane late.lanes owner).1 ?_ (owners.closeLane owner) ?_ ?_
    · intro pending member
      exact owners owner pending (Option.mem_toList.mp member)
    · rw [transformObjects, noChunk enforced known, closes, closing, lanes]
      simp only [Chunks.closeLane]
      cases late.lanes.get? owner <;> rfl
    · rw [transformObjects, noChunk event recognised, closing]
      simp only [Chunks.closeLane]
      cases late.lanes.get? owner <;> rfl
  | allLanes =>
    have ended : (late.lanes.entries.map Prod.snd).map PendingStream.endEvent = (closeAllLanes late.lanes).2 :=
      List.map_map
    refine finish (late.lanes.entries.map Prod.snd) (closeAllLanes late.lanes).1 ?_ ?_ ?_ ?_
    · intro pending member
      rcases List.mem_map.mp member with ⟨⟨lane, held⟩, inside, rfl⟩
      exact owners lane held ((late.lanes.mem_entries_iff lane held).mp inside)
    · intro lane pending held
      cases held
    · rw [transformObjects, noChunk enforced known, closes, closing, lanes, ended]
    · rw [transformObjects, noChunk event recognised, closing, ended]
  | nothing =>
    refine finish [] late.lanes (fun pending member => absurd member List.not_mem_nil) owners ?_ ?_
    · rw [transformObjects, noChunk enforced known, closes, closing, ← lanes]
      rfl
    · rw [transformObjects, noChunk event recognised, closing]
      rfl

/-- A chunk goes through both pipelines, or neither. -/
theorem alike_chunk (lanes : early.lanes = late.lanes)
    (owners : NoNullOwner late) {event enforced : Properties}
    (done : enforceEvent event = .ok (some enforced, deviations)) {type : EventType}
    (recognised : recognisedType event = some type) (chunk : readChunk event = some arm) :
    Alike suppressed early late event (some enforced) := by
  have read := read_of_done done recognised chunk
  have bareChunk := readChunk_enforced done recognised chunk
  have lane_eq : resolveLane late.lanes (bare arm).kind (bare arm).entityId (bare arm).event.subagentRunId.toOption =
      resolveLane late.lanes arm.kind arm.entityId arm.event.subagentRunId.toOption := rfl
  cases resolution : resolveLane late.lanes arm.kind arm.entityId arm.event.subagentRunId.toOption with
  | error error =>
    have first : transformObjects suppressed early enforced = .error error := by
      rw [transformObjects, bareChunk]
      simp only [expandChunk, lanes, lane_eq, resolution]
    have second : transformObjects suppressed late event = .error error := by
      rw [transformObjects, chunk]
      simp only [expandChunk, resolution]
    exact .failed (by simp only [Option.toList_some, Stage.run, first]) second
  | ok lane =>
    cases assembled : assemble suppressed arm (late.lanes.get? lane) with
    | error error =>
      have failed := assemble_eq_error.mp assembled
      rw [← openStream_bare] at failed
      have bareFailed : assemble suppressed (bare arm) (late.lanes.get? lane) = .error error :=
        assemble_eq_error.mpr failed
      have first : transformObjects suppressed early enforced = .error error := by
        rw [transformObjects, bareChunk]
        simp only [expandChunk, lanes, lane_eq, resolution, bareFailed]
      have second : transformObjects suppressed late event = .error error := by
        rw [transformObjects, chunk]
        simp only [expandChunk, resolution, assembled]
      exact .failed (by simp only [Option.toList_some, Stage.run, first]) second
    | ok assembly =>
      rcases assemble_bare suppressed read.tagged (owners lane) assembled with
        ⟨other, bareDone, pending, opened, expansions⟩
      rcases same_write_expansions read expansions with ⟨kept, each, agree⟩
      have second : transformObjects suppressed late event =
          .ok ({ lanes := if assembly.opened then (late.lanes.erase lane).set lane assembly.pending else late.lanes
                 warnings := late.warnings ++ assembly.warnings }, assembly.events.map write) := by
        rw [transformObjects, chunk]
        simp only [expandChunk, resolution, assembled]
      have first : transformObjects suppressed early enforced =
          .ok ({ lanes := if assembly.opened then (late.lanes.erase lane).set lane assembly.pending else late.lanes
                 warnings := early.warnings ++ other.warnings }, other.events.map write) := by
        rw [transformObjects, bareChunk]
        simp only [expandChunk, lanes, lane_eq, resolution, bareDone, pending, opened]
      refine .passed (run_single first) second rfl ?_ each agree
      intro owner held found
      simp only at found
      split at found
      · rename_i isOpened
        rw [OrderedMap.get?_set] at found
        split at found
        · cases found
          cases assemble_assembled assembled with
          | continues _ _ _ => cases isOpened
          | opens _ opener _ => exact (arm.opens _ opener).2.2 ▸ read.tagged
        · exact owners owner held (OrderedMap.get?_of_erase _ found)
      · exact owners owner held found

/-- Every well-formed object is treated alike. -/
theorem alike (lanes : early.lanes = late.lanes)
    (owners : NoNullOwner late) {event : Properties} {enforced : Option Properties}
    (done : enforceEvent event = .ok (enforced, deviations)) : Alike suppressed early late event enforced := by
  cases recognised : recognisedType event with
  | none =>
    rw [enforceEvent_unrecognised recognised] at done
    cases done
    have second : transformObjects suppressed late event = .ok (late, [event]) := by
      rw [transformObjects, readChunk, recognised]
      rfl
    exact .passed rfl second lanes owners (.cons ⟨_, enforceEvent_unrecognised recognised⟩ .nil) Agree.nil
  | some type =>
    rcases enforceEvent_some done recognised with ⟨passed, rfl⟩
    cases chunk : readChunk event with
    | some arm => exact alike_chunk suppressed lanes owners done recognised chunk
    | none =>
      refine alike_plain suppressed lanes owners done recognised ?_
      intro isChunk
      rw [readChunk, recognised] at chunk
      simp only [chunkTypes, List.mem_cons, List.not_mem_nil, or_false] at isChunk
      rcases isChunk with rfl | rfl | rfl <;> cases chunk

/-! ## Whole streams -/

section Through

variable {S T A B C E F : Type} {first : Stage S A B E} {second : Stage T B C F} {state next : S} {other after : T}
  {input : A} {output : List B} {passed : List C} (rest : List A)

theorem through_cons (step : first state input = .ok (next, output))
    (run : second.run other output = (passed, .ok after)) :
    through first second state other (input :: rest) =
      (passed ++ (through first second next after rest).1, (through first second next after rest).2) := by
  simp only [through, Stage.run_cons_ok step, Stage.run_append, run]

theorem through_cons_stopped {error : E} (step : first state input = .error error) :
    through first second state other (input :: rest) = ([], false) := by
  have run : first.run state (input :: rest) = ([], .error error) := by
    rw [Stage.run, step]
  rw [through, run]
  rfl

theorem through_cons_refused {error : F} (step : first state input = .ok (next, output))
    (run : second.run other output = (passed, .error error)) :
    through first second state other (input :: rest) = (passed, false) := by
  have stops : second.run other (first.run state (input :: rest)).1 = (passed, .error error) := by
    rw [Stage.run_cons_ok step, Stage.run_append, run]
  simp only [through, stops]
  exact congrArg (Prod.mk passed) (Bool.and_false _)

end Through

/-- Enforcement then expansion, and expansion then enforcement, reach the same
verdict on every well-formed stream and pass on the same objects, up to
content events without text. -/
theorem enforcement_commutes (suppressed : Bool) (events : List Properties)
    (wellFormed : ∀ event ∈ events, WellFormed event) :
    (enforceThenExpand suppressed events).2 = (expandThenEnforce suppressed events).2 ∧
      Agree (enforceThenExpand suppressed events).1 (expandThenEnforce suppressed events).1 := by
  have runs : ∀ (events : List Properties) (early late : TransformState) (reported : List Deviation)
      (noted : List Deviation), (∀ event ∈ events, WellFormed event) -> early.lanes = late.lanes ->
      NoNullOwner late ->
      (through (enforceEvents suppressed) (transformObjects suppressed) reported early events).2 =
          (through (transformObjects suppressed) (enforceEvents suppressed) late noted events).2 ∧
        Agree (through (enforceEvents suppressed) (transformObjects suppressed) reported early events).1
          (through (transformObjects suppressed) (enforceEvents suppressed) late noted events).1 := by
    intro events
    induction events with
    | nil => exact fun _ _ _ _ _ _ _ => ⟨rfl, Agree.nil⟩
    | cons event rest ih =>
      intro early late reported noted wellFormed lanes owners
      have formed := wellFormed event List.mem_cons_self
      unfold WellFormed at formed
      cases done : enforceEvent event with
      | error error =>
        rw [done] at formed
        cases formed
      | ok pair =>
        rcases pair with ⟨enforced, deviations⟩
        have step : enforceEvents suppressed reported event =
            .ok (if suppressed then reported else reported ++ deviations, enforced.toList) := by
          rw [enforceEvents, done]
        cases alike suppressed lanes owners done with
        | failed first second =>
          rw [through_cons_refused rest step first, through_cons_stopped rest second]
          exact ⟨rfl, Agree.nil⟩
        | passed first second sameLanes keeps each agree =>
          rcases run_enforceEvents suppressed each noted with ⟨after, run⟩
          have later := ih _ _
            (if suppressed then reported else reported ++ deviations) after
            (fun other member => wellFormed other (List.mem_cons_of_mem _ member)) sameLanes keeps
          rw [through_cons rest step first, through_cons rest second run]
          exact ⟨later.1, agree.append later.2⟩
  exact runs events {} {} [] [] wellFormed rfl fun lane pending held => by cases held

/-- An opener and a continuation with a property of a later protocol version,
an event of a retired type, and a run terminal. -/
def vendorStream : List Properties :=
  [OrderedMap.ofList
      [("type", .string "TEXT_MESSAGE_CHUNK"), ("messageId", .string "m1"), ("delta", .string "Hi"),
        ("subagentRunId", .string "s1"), ("vendor", .object [("trace", .array [.null, .bool true])])],
    OrderedMap.ofList [("type", .string "TEXT_MESSAGE_CHUNK"), ("vendor", .string "late")],
    OrderedMap.ofList [("type", .string "THINKING_START"), ("title", .string "plan")],
    OrderedMap.ofList [("type", .string "RUN_ERROR"), ("message", .string "stopped"), ("vendor", .null)]]

theorem enforcement_commutes_vendor :
    (enforceThenExpand true vendorStream).2 = (expandThenEnforce true vendorStream).2 ∧
      Agree (enforceThenExpand true vendorStream).1 (expandThenEnforce true vendorStream).1 :=
  enforcement_commutes true vendorStream (by decide)

end Enforce
end AgUi
