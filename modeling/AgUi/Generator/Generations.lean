import AgUi.Generator.Reaching

namespace AgUi
namespace Generator

open Library Library.Building

/-!
# Generations

A generation reads the text the one before it wrote, the first an empty text.
What a generation leaves behind is a freeze whose groups number their slots
apart, whose slots can all be written, and which says what the generation's
messages and enums say.  Each generation adds to the freeze of the one before,
so every number ever given stays where it is.
-/

section

variable [Casing]

def WireModel.blocks (wire : WireModel) : List Block :=
  blocksOf wire.enums wire.messages

/-- The names the slots of a generation are made of consist of identifier characters. -/
def WireModel.Identified (wire : WireModel) : Prop :=
  ∀ block ∈ wire.blocks, block.Identified

/-- The generations from a text on: each reads what the one before emitted. -/
inductive Generations : Text -> List WireModel -> Prop where
  | nil (text : Text) : Generations text []
  | cons {text : Text} {depth : Nat} {model : ProtocolModel} {wire : WireModel} {rest : List WireModel}
      (built : buildWireModel depth model text = .ok wire) (identified : wire.Identified)
      (oneLine : '\n' ∉ model.schemaId) (later : Generations (emitFreeze wire) rest) :
      Generations text (wire :: rest)

/-- What a later generation owes to an earlier one. -/
structure NeverRenumbers (early late : WireModel) : Prop where
  /-- Every slot of the earlier generation is in its text, under its number. -/
  emitted : ∀ block ∈ early.blocks, ∀ entry ∈ block.slots,
    WireFreeze.Lists (emitFreeze early) entry.1 entry.2
  /-- A pair once emitted is in the later text. -/
  kept : ∀ slot number, WireFreeze.Lists (emitFreeze early) slot number ->
    WireFreeze.Lists (emitFreeze late) slot number
  /-- Two slots of one message or enum have different numbers. -/
  apart : ∀ block ∈ late.blocks, ∀ one ∈ block.slots, ∀ other ∈ block.slots,
    one.2 = other.2 -> one.1 = other.1
  /-- A number is given to no other slot of its group. -/
  withheld : ∀ slot other number, WireFreeze.Lists (emitFreeze early) slot number ->
    WireFreeze.Lists (emitFreeze late) other number -> groupOf other = groupOf slot -> other = slot
  /-- A message or enum that is written without a slot of its group reserves the slot's number. -/
  reserved : ∀ slot number, WireFreeze.Lists (emitFreeze early) slot number ->
    (∀ block ∈ late.blocks, slot ∉ block.slots.map Prod.fst) ->
    ∀ block ∈ late.blocks, block.group = groupOf slot -> number ∈ block.reserved
  /-- A slot that is written again has its old number. -/
  returned : ∀ slot number, WireFreeze.Lists (emitFreeze early) slot number ->
    ∀ block ∈ late.blocks, ∀ entry ∈ block.slots, entry.1 = slot -> entry.2 = number

/-! ## One generation -/

/-- A text reads as a freeze that a generation can start from. -/
structure Reads (text : Text) (freeze : WireFreeze) : Prop where
  read : WireFreeze.ofText text = .ok freeze
  unused : freeze.live = .empty
  apart : freeze.Apart
  written : freeze.Written

/-- What a generation leaves behind. -/
structure Frozen (wire : WireModel) : Prop where
  apart : wire.freeze.Apart
  written : wire.freeze.Written
  sound : ∀ block ∈ wire.blocks, Sound wire.freeze block
  used : ∀ key, wire.freeze.live.has key = true ->
    ∃ block ∈ wire.blocks, key ∈ block.slots.map Prod.fst
  identified : wire.Identified

variable {freeze : WireFreeze} {depth : Nat}

theorem draws_wireModel {model : ProtocolModel} {wire : WireModel}
    (built : wireModel depth model freeze = .ok wire) : wire.model = model ∧ ∃ wired : Wiring,
      Draws { freeze } wired [] ∧ wired.freeze = wire.freeze ∧ wired.blocks = wire.blocks := by
  rcases outcome_bind_ok_iff.mp built with ⟨event, -, rest⟩
  cases event with
  | object definition | enum definition | «alias» definition => exact absurd rest refuse_ne_ok
  | union eventUnion =>
    dsimp only at rest
    cases mixin : model.mixinShapes.find? fun shape => shape.name == ("BaseEvent" : Text) with
    | none =>
      rw [mixin] at rest
      exact absurd rest refuse_ne_ok
    | some baseMixin =>
      rw [mixin] at rest
      rcases outcome_bind_ok_iff.mp rest with ⟨eventType, -, rest⟩
      cases eventType with
      | object definition | union definition | «alias» definition => exact absurd rest refuse_ne_ok
      | enum definition =>
        rcases outcome_bind_ok_iff.mp rest with ⟨wired, wiring, last⟩
        cases last
        exact ⟨rfl, wired.2, draws_wire wiring, rfl, rfl⟩

theorem buildWireModel_ok_iff {model : ProtocolModel} {text : Text} {wire : WireModel}
    (read : WireFreeze.ofText text = .ok freeze) :
    buildWireModel depth model text = .ok wire ↔
      assertTables model = .ok () ∧ wireModel depth model freeze = .ok wire := by
  unfold buildWireModel
  rw [outcome_bind_ok_iff, read]
  constructor
  · rintro ⟨done, tables, built⟩
    exact ⟨tables, built⟩
  · rintro ⟨tables, built⟩
    exact ⟨(), tables, built⟩

theorem frozen_of_build {model : ProtocolModel} {text : Text} {wire : WireModel}
    (reads : Reads text freeze) (built : buildWireModel depth model text = .ok wire)
    (identified : wire.Identified) :
    Frozen wire ∧ wire.model = model ∧ ∀ key number, freeze.numbers.get? key = some number ->
      wire.freeze.numbers.get? key = some number := by
  rcases draws_wireModel ((buildWireModel_ok_iff reads.read).mp built).2 with
    ⟨sameModel, wired, draws, sameFreeze, sameBlocks⟩
  have grows : Numbering.Grows freeze wire.freeze := sameFreeze ▸ draws.grows
  have used : ∀ key, wire.freeze.live.has key = true ->
      ∃ block ∈ wire.blocks, key ∈ block.slots.map Prod.fst := by
    intro key live
    rw [← sameFreeze] at live
    rcases draws.used key live with before | handed | inBlock
    · change freeze.live.has key = true at before
      rw [reads.unused] at before
      cases before
    · exact absurd handed List.not_mem_nil
    · rwa [sameBlocks] at inBlock
  have sound : ∀ block ∈ wire.blocks, Sound wire.freeze block := by
    intro block member
    rw [← sameBlocks] at member
    rcases draws.sound block member with older | sound
    · exact absurd older List.not_mem_nil
    · rwa [sameFreeze] at sound
  refine ⟨⟨grows.apart reads.apart, ?_, sound, used, identified⟩, sameModel, grows.keeps⟩
  intro key present
  rcases grows.drawn key present with older | live
  · exact reads.written key older
  · rcases used key live with ⟨block, member, listed⟩
    rcases List.mem_map.mp listed with ⟨entry, inSlots, rfl⟩
    exact ((sound block member).shaped (identified block member) entry inSlots).2

/-! ## The text between generations -/

omit [Casing] in
theorem hashed_banner :
    (∀ line ∈ bannerLines [], line.head? = some '#' ∧ '\n' ∉ line) ∧
      ((bannerLines []).getLast?.bind List.getLast?) = some 'e' := by
  decide +kernel

omit [Casing] in
theorem trimEnd_banner (schemaId : Text) :
    trimEnd (['\n'].intercalate (bannerLines schemaId)) = ['\n'].intercalate (bannerLines schemaId) := by
  have lastLine : ("# Regenerate: pnpm --filter @ag-ui/spec generate" : Text).getLast? = some 'e' := hashed_banner.2
  rcases List.getLast?_eq_some_iff.mp lastLine with ⟨start, last⟩
  have ends : ∃ front : Text, ['\n'].intercalate (bannerLines schemaId) = front ++ ['e'] := by
    unfold bannerLines
    simp only [List.intercalate_cons_cons, List.intercalate_singleton]
    rw [last]
    simp only [← List.append_assoc]
    exact ⟨_, rfl⟩
  rcases ends with ⟨front, equal⟩
  rw [equal]
  exact List.rdropWhile_concat_neg _ _ _ (by decide)

omit [Casing] in
theorem isComment_hash (rest : Text) : isComment (trim ('#' :: rest)) = true := by
  have kept : trim ('#' :: rest) = '#' :: trimEnd rest := by
    unfold trim trimEnd List.rdropWhile
    rw [List.dropWhile_cons, show isSpace '#' = false from by decide]
    simp only [Bool.false_eq_true, if_false, List.reverse_cons, List.dropWhile_append]
    split
    · rename_i nothing
      rw [List.isEmpty_iff.mp nothing]
      rfl
    · simp
  rw [kept]
  unfold isComment
  rw [show ("#" : Text) = ['#'] from rfl]
  simp [List.isPrefixOf]

omit [Casing] in
theorem comments_banner {schemaId : Text} (oneLine : '\n' ∉ schemaId) :
    ∀ line ∈ bannerLines schemaId, '\n' ∉ line ∧ isComment (trim line) = true := by
  have hashed : ∀ line ∈ bannerLines schemaId, line.head? = some '#' ∧ '\n' ∉ line := by
    intro line member
    unfold bannerLines at member
    rcases List.mem_cons.mp member with first | later
    · exact hashed_banner.1 line (first ▸ List.mem_cons_self)
    · rcases List.mem_cons.mp later with source | rest
      · have blank := hashed_banner.1 _ (List.mem_cons_of_mem _ List.mem_cons_self)
        rw [List.append_nil] at blank
        rw [source, List.head?_append, blank.1, List.mem_append, not_or]
        exact ⟨rfl, blank.2, oneLine⟩
      · exact hashed_banner.1 line (List.mem_cons_of_mem _ (List.mem_cons_of_mem _ rest))
  intro line member
  rcases hashed line member with ⟨starts, plain⟩
  refine ⟨plain, ?_⟩
  cases line with
  | nil => cases starts
  | cons char rest =>
    cases starts
    exact isComment_hash rest

omit [Casing] in
theorem lists_emitFreeze_iff {wire : WireModel} (frozen : Frozen wire) (oneLine : '\n' ∉ wire.model.schemaId)
    (slot : Text) (number : Nat) :
    WireFreeze.Lists (emitFreeze wire) slot number ↔ wire.freeze.numbers.get? slot = some number :=
  WireFreeze.lists_emit_iff frozen.written (trimEnd_banner wire.model.schemaId) (List.cons_ne_nil _ _)
    (comments_banner oneLine) slot number

omit [Casing] in
theorem ofText_emitFreeze {wire : WireModel} (frozen : Frozen wire) (oneLine : '\n' ∉ wire.model.schemaId) :
    WireFreeze.ofText (emitFreeze wire) = .ok (wire.freeze.recorded Numbering.empty) :=
  WireFreeze.ofText_emit frozen.written (trimEnd_banner wire.model.schemaId) (List.cons_ne_nil _ _)
    (fun line member => (comments_banner oneLine line member).1)
    (WireFreeze.readLines_comments _ fun line member => (comments_banner oneLine line member).2)

omit [Casing] in
/-- The next generation starts from the numbers of this one. -/
theorem reads_emitFreeze {wire : WireModel} (frozen : Frozen wire) (oneLine : '\n' ∉ wire.model.schemaId) :
    ∃ freeze, Reads (emitFreeze wire) freeze ∧
      ∀ key, freeze.numbers.get? key = wire.freeze.numbers.get? key := by
  have same := WireFreeze.get?_recorded wire.freeze
  refine ⟨wire.freeze.recorded Numbering.empty, ⟨ofText_emitFreeze frozen oneLine, ?_, ?_, ?_⟩, same⟩
  · exact WireFreeze.live_recorded wire.freeze Numbering.empty
  · intro left right number sameGroup leftNumber rightNumber
    rw [same] at leftNumber rightNumber
    exact frozen.apart left right number sameGroup leftNumber rightNumber
  · intro key present
    rw [OrderedMap.has_eq_true_iff] at present
    rcases present with ⟨number, numbered⟩
    rw [same] at numbered
    exact frozen.written key ((OrderedMap.has_eq_true_iff _ _).mpr ⟨number, numbered⟩)

omit [Casing] in
theorem reads_nothing : Reads [] Numbering.empty where
  read := rfl
  unused := rfl
  apart := fun _ _ _ _ found => nomatch found
  written := fun _ present => nomatch present

/-! ## A history of generations -/

/-- A generation whose text can be read back. -/
structure Left (wire : WireModel) : Prop where
  frozen : Frozen wire
  oneLine : '\n' ∉ wire.model.schemaId

theorem left_of_build {model : ProtocolModel} {text : Text} {wire : WireModel}
    (reads : Reads text freeze) (built : buildWireModel depth model text = .ok wire)
    (identified : wire.Identified) (oneLine : '\n' ∉ model.schemaId) :
    Left wire ∧ ∀ key number, freeze.numbers.get? key = some number ->
      wire.freeze.numbers.get? key = some number := by
  have frozen := frozen_of_build reads built identified
  exact ⟨⟨frozen.1, by rwa [frozen.2.1]⟩, frozen.2.2⟩

/-- Every generation of a history can be read back, and has every number the history started with. -/
theorem left_of_generations {text : Text} {wires : List WireModel} (generated : Generations text wires)
    (reads : Reads text freeze) : ∀ wire ∈ wires, Left wire ∧
      ∀ key number, freeze.numbers.get? key = some number -> wire.freeze.numbers.get? key = some number := by
  induction generated generalizing freeze with
  | nil text => exact fun wire member => absurd member List.not_mem_nil
  | cons built identified oneLine later ih =>
    have first := left_of_build reads built identified oneLine
    rcases reads_emitFreeze first.1.frozen first.1.oneLine with ⟨next, nextReads, same⟩
    intro wire member
    rcases List.mem_cons.mp member with equal | inRest
    · rw [equal]
      exact first
    · have left := ih nextReads wire inRest
      refine ⟨left.1, fun key number found => left.2 key number ?_⟩
      rw [same]
      exact first.2 key number found

theorem Generations.split {text : Text} {before after : List WireModel} {wire : WireModel}
    (generated : Generations text (before ++ wire :: after)) (reads : Reads text freeze) :
    Left wire ∧ Generations (emitFreeze wire) after := by
  induction before generalizing text freeze with
  | nil =>
    cases generated with
    | cons built identified oneLine later => exact ⟨(left_of_build reads built identified oneLine).1, later⟩
  | cons first rest ih =>
    cases generated with
    | cons built identified oneLine later =>
      have left := (left_of_build reads built identified oneLine).1
      rcases reads_emitFreeze left.frozen left.oneLine with ⟨next, nextReads, -⟩
      exact ih later nextReads

omit [Casing] in
/-- A generation that keeps the numbers of an earlier one owes it nothing. -/
theorem neverRenumbers_of_keeps {early late : WireModel} (earlyLeft : Left early) (lateLeft : Left late)
    (keeps : ∀ key number, early.freeze.numbers.get? key = some number ->
      late.freeze.numbers.get? key = some number) : NeverRenumbers early late where
  emitted := by
    intro block member entry inSlots
    exact (lists_emitFreeze_iff earlyLeft.frozen earlyLeft.oneLine _ _).mpr
      ((earlyLeft.frozen.sound block member).numbered entry inSlots)
  kept := by
    intro slot number listed
    exact (lists_emitFreeze_iff lateLeft.frozen lateLeft.oneLine _ _).mpr
      (keeps slot number ((lists_emitFreeze_iff earlyLeft.frozen earlyLeft.oneLine _ _).mp listed))
  apart := by
    intro block member one oneIn other otherIn sameNumber
    have sound := lateLeft.frozen.sound block member
    have oneGroup := (sound.shaped (lateLeft.frozen.identified block member) one oneIn).1
    have otherGroup := (sound.shaped (lateLeft.frozen.identified block member) other otherIn).1
    apply lateLeft.frozen.apart one.1 other.1 one.2 (oneGroup.trans otherGroup.symm) (sound.numbered one oneIn)
    rw [sameNumber]
    exact sound.numbered other otherIn
  withheld := by
    intro slot other number listed otherListed sameGroup
    have numbered := keeps slot number ((lists_emitFreeze_iff earlyLeft.frozen earlyLeft.oneLine _ _).mp listed)
    exact lateLeft.frozen.apart other slot number sameGroup
      ((lists_emitFreeze_iff lateLeft.frozen lateLeft.oneLine _ _).mp otherListed) numbered
  reserved := by
    intro slot number listed absent block member inGroup
    have numbered := keeps slot number ((lists_emitFreeze_iff earlyLeft.frozen earlyLeft.oneLine _ _).mp listed)
    apply (lateLeft.frozen.sound block member).withheld slot number inGroup.symm numbered
    cases live : late.freeze.live.has slot with
    | false => rfl
    | true =>
      rcases lateLeft.frozen.used slot live with ⟨other, otherMember, inSlots⟩
      exact absurd inSlots (absent other otherMember)
  returned := by
    intro slot number listed block member entry inSlots same
    have numbered := keeps slot number ((lists_emitFreeze_iff earlyLeft.frozen earlyLeft.oneLine _ _).mp listed)
    have now := (lateLeft.frozen.sound block member).numbered entry inSlots
    rw [same, numbered] at now
    exact (Option.some.inj now).symm

/-- In a history that starts from an empty text, no generation renumbers what one before it emitted. -/
theorem generations_neverRenumber (before after : List WireModel) (early : WireModel)
    (generated : Generations [] (before ++ early :: after)) :
    ∀ late, late ∈ early :: after -> NeverRenumbers early late := by
  rcases generated.split reads_nothing with ⟨earlyLeft, rest⟩
  rcases reads_emitFreeze earlyLeft.frozen earlyLeft.oneLine with ⟨next, nextReads, same⟩
  intro late member
  rcases List.mem_cons.mp member with equal | inAfter
  · rw [equal]
    exact neverRenumbers_of_keeps earlyLeft earlyLeft fun _ _ found => found
  · have lateLeft := left_of_generations rest nextReads late inAfter
    apply neverRenumbers_of_keeps earlyLeft lateLeft.1
    intro key number found
    apply lateLeft.2
    rw [same]
    exact found

end

/-! ## A small schema -/

namespace Sample

scoped instance : Casing where
  toLowerCase := List.map Char.toLower
  toUpperCase := List.map Char.toUpper

instance (block : Block) : Decidable block.Identified :=
  List.decidableBAll Identifier block.names

instance (wire : WireModel) : Decidable wire.Identified :=
  List.decidableBAll Block.Identified wire.blocks

def field (name : Text) (type : TypeExpr) : Field where
  name := name
  description := []
  required := true
  type := type

def object (name : Text) (fields : List Field) : Definition :=
  .object { name, description := [], fields }

def union (name discriminator : Text) (members : List Text) : Definition :=
  .union { name, description := [], members, discriminator }

def part (name tag : Text) : Definition :=
  object name [field "type" (.literal tag)]

/-- A schema with every definition the tables name; `usage` are the fields of TokenUsage. -/
def model (schemaId : Text) (usage : List Field) : ProtocolModel where
  schemaId := schemaId
  definitions :=
    [.enum { name := "EventType", description := [], values := ["RUN_FINISHED"] },
      object "TokenUsage" usage,
      object "Interrupt" [field "responseSchema" .any, field "metadata" .any],
      object "InterruptOutcome" [field "type" (.literal "interrupt"), field "interrupts" (.array (.ref "Interrupt"))],
      union "RunFinishedOutcome" "type" ["InterruptOutcome"],
      object "ResultOutcome" [field "type" (.literal "result"), field "result" .any],
      union "SubagentFinishedOutcome" "type" ["ResultOutcome"],
      object "AddOperation" [field "op" (.literal "add"), field "path" .string],
      union "JsonPatchOperation" "op" ["AddOperation"],
      part "DataSource" "data", part "UrlSource" "url", part "FileSource" "file",
      union "PartSource" "type" ["DataSource", "UrlSource", "FileSource"],
      part "TextPart" "text", part "AudioPart" "audio", part "VideoPart" "video", part "DocumentPart" "document",
      object "ImagePart" [field "type" (.literal "image"), field "source" (.ref "PartSource")],
      union "ContentPart" "type" ["TextPart", "ImagePart", "AudioPart", "VideoPart", "DocumentPart"],
      object "UserMessage"
        [field "role" (.literal "user"), field "content" (.union [.string, .array (.ref "ContentPart")])],
      union "Message" "role" ["UserMessage"],
      object "RunFinishedEvent"
        [field "type" (.literal "RUN_FINISHED"), field "outcome" (.ref "RunFinishedOutcome"),
          field "ending" (.ref "SubagentFinishedOutcome"), field "usage" (.ref "TokenUsage"),
          field "delta" (.array (.ref "JsonPatchOperation")), field "messages" (.array (.ref "Message"))],
      union "Event" "type" ["RunFinishedEvent"]]
  mixinShapes := [{ name := "BaseEvent", description := [], fields := [field "type" (.ref "EventType")] }]

def schemaId : Text :=
  "https://ag-ui.com/spec/1.0/schema.json"

/-- A schema, and after it one in which a slot is gone and another is new. -/
def first (schemaId : Text) : ProtocolModel :=
  model schemaId [field "inputTokens" .integer, field "outputTokens" .integer]

def second (schemaId : Text) : ProtocolModel :=
  model schemaId [field "outputTokens" .integer, field "total" .integer]

/-- The generation after a freeze, where there is one. -/
def generated (model : ProtocolModel) (freeze : WireFreeze) : Option WireModel :=
  match assertTables model with
  | .ok _ => (wireModel 8 model freeze).toOption
  | .error _ => none

theorem built_of_generated {model : ProtocolModel} {text : Text} {freeze : WireFreeze} {wire : WireModel}
    (read : WireFreeze.ofText text = .ok freeze) (found : generated model freeze = some wire) :
    buildWireModel 8 model text = .ok wire := by
  rw [buildWireModel_ok_iff read]
  unfold generated at found
  cases tables : assertTables model with
  | error cause =>
    rw [tables] at found
    cases found
  | ok done =>
    rw [tables] at found
    cases built : wireModel 8 model freeze with
    | error cause =>
      rw [built] at found
      cases found
    | ok other =>
      rw [built] at found
      cases found
      exact ⟨rfl, rfl⟩

/-- In one block no two slots have one number. -/
def Apart (wire : WireModel) : Prop :=
  ∀ block ∈ wire.blocks, ∀ one ∈ block.slots, ∀ other ∈ block.slots,
    one.2 = other.2 -> one.1 = other.1

instance (wire : WireModel) : Decidable (Apart wire) :=
  inferInstanceAs (Decidable (∀ block ∈ wire.blocks, ∀ one ∈ block.slots,
    ∀ other ∈ block.slots, one.2 = other.2 -> one.1 = other.1))

/-- Both generations; `start` is what the second finds in the banner of the first. -/
def history (schemaId : Text) (start : WireFreeze) : Option (WireModel × WireModel) :=
  match generated (first schemaId) Numbering.empty with
  | some early =>
    match generated (second schemaId) (early.freeze.recorded start) with
    | some late => some (early, late)
    | none => none
  | none => none

theorem of_history {schemaId : Text} {start : WireFreeze} {early late : WireModel}
    (found : history schemaId start = some (early, late)) :
    generated (first schemaId) Numbering.empty = some early ∧
      generated (second schemaId) (early.freeze.recorded start) = some late := by
  unfold history at found
  split at found
  · rename_i one oneFound
    split at found
    · rename_i other otherFound
      cases found
      exact ⟨oneFound, otherFound⟩
    · cases found
  · cases found

/-- A schema id of three lines; the second is a line of a freeze. -/
def broken : Text :=
  "https:" ++ '\n' :: (slotLine ("Usage.total", 2) ++ '\n' :: ("//ag-ui.com/spec/1.0/schema.json" : Text))

/-- The lines of the banner it is written in, before its own and after it. -/
def brokenLines : List Text :=
  (bannerLines "https:").take 2 ++ slotLine ("Usage.total", 2) :: "//ag-ui.com/spec/1.0/schema.json" ::
    (bannerLines "https:").drop 2

theorem banner_broken : ['\n'].intercalate (bannerLines broken) = ['\n'].intercalate brokenLines := by
  unfold broken brokenLines bannerLines
  simp only [List.take_succ_cons, List.take_zero, List.drop_succ_cons, List.drop_zero, List.cons_append,
    List.nil_append, List.intercalate_cons_cons, List.intercalate_singleton, List.append_assoc]

theorem ofText_broken {wire : WireModel} (written : wire.freeze.Written) (same : wire.model.schemaId = broken) :
    WireFreeze.ofText (emitFreeze wire) = .ok (wire.freeze.recorded (Numbering.empty.record "Usage.total" 2)) := by
  have readable : Readable ("Usage.total" : Text) := ⟨by decide, List.all_eq_true.mp (by decide)⟩
  have oneLine : '\n' ∉ ("https:" : Text) := by decide
  have slashes : isComment (trim "//ag-ui.com/spec/1.0/schema.json") = true := by decide
  have comments := comments_banner oneLine
  unfold emitFreeze
  rw [same]
  refine WireFreeze.ofText_emit written ((trimEnd_banner broken).trans banner_broken) (by simp [brokenLines]) ?_ ?_
  · intro line member
    rcases List.mem_append.mp member with before | later
    · exact (comments line (List.mem_of_mem_take before)).1
    · rcases List.mem_cons.mp later with slot | later
      · rw [slot]
        exact WireFreeze.lineFeed_notMem_slotLine readable 2
      · rcases List.mem_cons.mp later with rest | after
        · rw [rest]
          decide
        · exact (comments line (List.mem_of_mem_drop after)).1
  · unfold brokenLines
    rw [WireFreeze.readLines_append (WireFreeze.readLines_comments _ fun line member =>
      (comments line (List.mem_of_mem_take member)).2),
      WireFreeze.readLines_cons (WireFreeze.readLine_slotLine _ readable 2),
      WireFreeze.readLines_cons (WireFreeze.readLine_comment _ slashes)]
    exact WireFreeze.readLines_comments _ fun line member => (comments line (List.mem_of_mem_drop member)).2

/-- Both histories evaluated: the one of a plain schema id, and the one of a broken one. -/
theorem evaluated :
    ((history Sample.schemaId Numbering.empty).any
      fun wires => decide (wires.1.Identified ∧ wires.2.Identified)) = true ∧
    ((history broken (Numbering.empty.record "Usage.total" 2)).any
      fun wires => decide (wires.1.Identified ∧ wires.2.Identified ∧ ¬ Apart wires.2)) = true := by
  decide +kernel

end Sample

open Sample in
/-- Two generations of a small schema; the second has a slot less and a slot more. -/
theorem generations_neverRenumber_twice :
    ∃ early late, Generations [] [early, late] ∧ NeverRenumbers early late := by
  have evaluated := Sample.evaluated.1
  cases found : history Sample.schemaId Numbering.empty with
  | none =>
    rw [found] at evaluated
    cases evaluated
  | some wires =>
    rcases wires with ⟨early, late⟩
    rw [found] at evaluated
    have identified : early.Identified ∧ late.Identified := of_decide_eq_true evaluated
    have parts := of_history found
    have oneLine : '\n' ∉ Sample.schemaId := by decide
    have one := built_of_generated reads_nothing.read parts.1
    have left := (left_of_build reads_nothing one identified.1 oneLine).1
    have other := built_of_generated (ofText_emitFreeze left.frozen left.oneLine) parts.2
    have generated : Generations [] ([] ++ early :: [late]) :=
      .cons one identified.1 oneLine (.cons other identified.2 oneLine (.nil _))
    exact ⟨early, late, generated,
      generations_neverRenumber [] [late] early generated late (List.mem_cons_of_mem _ List.mem_cons_self)⟩

open Sample in
/-- A schema id with a line break can carry a slot of its own into the freeze. -/
theorem lineBreak_renumbers :
    ∃ early late,
      buildWireModel 8 (first broken) [] = .ok early ∧ buildWireModel 8 (second broken) (emitFreeze early) = .ok late ∧
        early.Identified ∧ late.Identified ∧ ¬ NeverRenumbers early late := by
  have evaluated := Sample.evaluated.2
  cases found : history broken (Numbering.empty.record "Usage.total" 2) with
  | none =>
    rw [found] at evaluated
    cases evaluated
  | some wires =>
    rcases wires with ⟨early, late⟩
    rw [found] at evaluated
    have facts : early.Identified ∧ late.Identified ∧ ¬ Apart late := of_decide_eq_true evaluated
    have parts := of_history found
    have one := built_of_generated reads_nothing.read parts.1
    have frozen := frozen_of_build reads_nothing one facts.1
    have same : early.model.schemaId = broken := by
      rw [frozen.2.1]
      rfl
    have other := built_of_generated (ofText_broken frozen.1.written same) parts.2
    exact ⟨early, late, one, other, facts.1, facts.2.1, fun never => facts.2.2 never.apart⟩

end Generator
end AgUi
