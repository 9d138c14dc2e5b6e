import AgUi.Generator.Slots

namespace AgUi
namespace Generator

open Library Library.Building

/-!
# Every part of the generator draws for what it makes

One lemma for each function of the wire model, under the function's name.  A
function that makes fields hands their slots on; a function that makes a
message hands on the slots of its blocks, which are sound; a function that
pushes what it makes hands on nothing.
-/

/-! ## Lists of slots -/

@[simp] theorem fieldSlots_nil (scope : Text) : fieldSlots scope [] = [] := rfl

@[simp] theorem fieldSlots_append (scope : Text) (first second : List WireField) :
    fieldSlots scope (first ++ second) = fieldSlots scope first ++ fieldSlots scope second :=
  List.map_append

theorem mem_fieldSlots_sortFields (scope : Text) (fields : List WireField) (entry : Text × Nat) :
    entry ∈ fieldSlots scope (sortFields fields) ↔ entry ∈ fieldSlots scope fields := by
  simp only [fieldSlots, sortFields, List.mem_map, List.mem_insertionSort]

theorem mem_valueSlots_sortValues (scope : Text) (values : List EnumValue) (entry : Text × Nat) :
    entry ∈ valueSlots scope (sortValues values) ↔ entry ∈ valueSlots scope values := by
  simp only [valueSlots, sortValues, List.mem_map, List.mem_insertionSort]

theorem fieldSlots_map {settle : WireField -> WireField} (sameName : ∀ field, (settle field).name = field.name)
    (sameNumber : ∀ field, (settle field).number = field.number) (scope : Text) (fields : List WireField) :
    fieldSlots scope (fields.map settle) = fieldSlots scope fields := by
  simp only [fieldSlots, List.map_map, Function.comp_def, sameName, sameNumber]

def mapSlots (scope : Text) (fields : OrderedMap Text WireField) : List (Text × Nat) :=
  fieldSlots scope (fields.entries.map Prod.snd)

variable {scope : Text}

theorem mapSlots_set {fields : OrderedMap Text WireField} {name : Text} (absent : fields.has name = false)
    (made : WireField) : mapSlots scope (fields.set name made) = mapSlots scope fields ++ fieldSlots scope [made] := by
  unfold mapSlots
  rw [OrderedMap.entries_set_of_absent fields name made ((OrderedMap.has_eq_false_iff fields name).mp absent),
    List.map_append, fieldSlots_append]
  rfl

theorem Merging.settle_name (merging : Merging) (field : WireField) : (merging.settle field).name = field.name := rfl

theorem Merging.settle_number (merging : Merging) (field : WireField) :
    (merging.settle field).number = field.number := rfl

/-! ## The shape of a block -/

theorem identifier_oneof (name : OneofName) : Identifier name.text ∧ startsLower name.text = true := by
  cases name <;> decide

theorem identifier_function : Identifier ("Function" : Text) ∧ startsLower ("Function" : Text) = false := by
  decide

/-- The slots of a message are numbered in the message. -/
theorem shaped_message (body : MessageBody) (identified : (body.block body.name []).Identified)
    (entry : Text × Nat) (member : entry ∈ (body.block body.name []).slots) :
    groupOf entry.1 = body.name ∧ Readable entry.1 := by
  have plain : Identifier body.name := identified _ List.mem_cons_self
  have plainSlots : ∀ char ∈ body.name, isSlotChar char = true := fun char member =>
    plain.isSlotChar member
  rcases List.mem_append.mp member with inFields | inArms
  · rcases List.mem_map.mp inFields with ⟨field, listed, rfl⟩
    have named : Identifier field.name := by
      apply identified
      exact List.mem_cons_of_mem _ (List.mem_append_left _ (List.mem_map.mpr ⟨field, listed, rfl⟩))
    exact ⟨groupOf_field plain named, readable_slot plainSlots named⟩
  · cases arms : body.oneof with
    | none =>
      rw [arms] at inArms
      exact absurd inArms List.not_mem_nil
    | some oneof =>
      rw [arms] at inArms
      rcases List.mem_map.mp inArms with ⟨field, listed, rfl⟩
      have named : Identifier field.name := by
        apply identified
        apply List.mem_cons_of_mem _ (List.mem_append_right _ _)
        rw [arms]
        exact List.mem_map.mpr ⟨field, listed, rfl⟩
      have lower := identifier_oneof oneof.name
      refine ⟨groupOf_arm plain lower.1 lower.2 named, readable_slot ?_ named⟩
      exact (readable_slot plainSlots lower.1).2

/-- The slots of a nested message are numbered in it. -/
theorem shaped_nested (scope : Text) (body : MessageBody) (isFunction : body.name = "Function")
    (noArms : body.oneof = none)
    (identified : (body.block (slot scope body.name) [scope]).Identified)
    (entry : Text × Nat) (member : entry ∈ (body.block (slot scope body.name) [scope]).slots) :
    groupOf entry.1 = slot scope body.name ∧ Readable entry.1 := by
  have plain : Identifier scope := identified _ List.mem_cons_self
  have plainSlots : ∀ char ∈ scope, isSlotChar char = true := fun char member => plain.isSlotChar member
  rcases List.mem_append.mp member with inFields | inArms
  · rcases List.mem_map.mp inFields with ⟨field, listed, rfl⟩
    have named : Identifier field.name := by
      apply identified
      apply List.mem_cons_of_mem _ (List.mem_cons_of_mem _ (List.mem_append_left _ _))
      exact List.mem_map.mpr ⟨field, listed, rfl⟩
    rw [isFunction]
    refine ⟨groupOf_nested plain identifier_function.1 identifier_function.2 named, readable_slot ?_ named⟩
    exact (readable_slot plainSlots identifier_function.1).2
  · rw [noArms] at inArms
    exact absurd inArms List.not_mem_nil

/-- The values of an enum are numbered in it. -/
theorem shaped_enum (wireEnum : WireEnum) (identified : wireEnum.block.Identified) (entry : Text × Nat)
    (member : entry ∈ wireEnum.block.slots) : groupOf entry.1 = wireEnum.name ∧ Readable entry.1 := by
  have plain : Identifier wireEnum.name := identified _ List.mem_cons_self
  rcases List.mem_map.mp member with ⟨value, listed, rfl⟩
  have named : Identifier value.name :=
    identified _ (List.mem_cons_of_mem _ (List.mem_map.mpr ⟨value, listed, rfl⟩))
  exact ⟨groupOf_field plain named, readable_slot (fun char member => plain.isSlotChar member) named⟩

/-! ## Making a message -/

theorem draws_makeField {scope name type : Text} {label : Label} {comment jsonName : Option Text} {before : Wiring}
    {result : WireField × Wiring} (done : makeField scope name type label comment jsonName before = .ok result) :
    Draws before result.2 (fieldSlots scope [result.1]) ∧ result.1.name = name := by
  rcases bind_ok_iff.mp done with ⟨drawn, numbered, rest⟩
  cases rest
  exact ⟨draws_numberFor numbered, rfl⟩

/-- A message was made: its slots are drawn, and its blocks are sound. -/
structure Makes (before after : Wiring) (message : WireMessage) : Prop where
  draws : Draws before after (message.blocks.flatMap Block.slots)
  sound : ∀ block ∈ message.blocks, Sound after.freeze block

theorem Makes.push {before middle : Wiring} {message : WireMessage} {result : Unit × Wiring}
    (makes : Makes before middle message) (done : pushMessage message middle = .ok result) :
    Draws before result.2 [] :=
  draws_pushMessage makes.draws (fun _ member => List.mem_flatMap.mp member) makes.sound done

/-- A message without nested messages is made of the slots at hand. -/
theorem makes_plain {before after : Wiring} {body : MessageBody} {handed : List (Text × Nat)}
    (draws : Draws before after handed)
    (carried : ∀ entry, entry ∈ (body.block body.name []).slots ↔ entry ∈ handed)
    (withheld : after.freeze.Withholds body.name body.reserved) :
    Makes before after { body with nested := [] } where
  draws := by
    apply draws.congr
    intro entry
    rw [← carried]
    simp [WireMessage.blocks]
  sound := by
    intro block member
    have equal : block = body.block body.name [] := by
      simpa [WireMessage.blocks] using member
    rw [equal]
    exact {
      numbered := fun entry listed => draws.numbered entry ((carried entry).mp listed)
      withheld := withheld
      shaped := shaped_message body }

/-! ## Fields -/

variable [Casing]

variable {depth : Nat}

omit [Casing] in
theorem draws_variantField {defs : Definitions} {field : Field}
    {variant : Text × TypeExpr} {before : Wiring} {result : WireField × Wiring}
    (done : variantField defs depth scope field variant before = .ok result) :
    Draws before result.2 (fieldSlots scope [result.1]) := by
  rcases bind_ok_iff.mp done with ⟨typed, lifted, rest⟩
  rcases lift_ok_iff.mp lifted with ⟨wire, -, rfl⟩
  cases wire with
  | flatten union => exact absurd rest lift_refuse_ne_ok
  | plain type repeated => exact (draws_makeField rest).1

theorem draws_flattenField {defs : Definitions} {discriminator : Option Text}
    {flat : List Text × List WireField} {field : Field} {start before : Wiring}
    {result : (List Text × List WireField) × Wiring} (draws : Draws start before (fieldSlots scope flat.2))
    (done : flattenField defs depth scope discriminator flat field before = .ok result) :
    Draws start result.2 (fieldSlots scope result.1.2) := by
  unfold flattenField at done
  split at done
  · cases done
    exact draws
  · rcases bind_ok_iff.mp done with ⟨typed, lifted, rest⟩
    rcases lift_ok_iff.mp lifted with ⟨wire, -, rfl⟩
    cases wire with
    | flatten union => exact absurd rest lift_refuse_ne_ok
    | plain type repeated =>
      rcases bind_ok_iff.mp rest with ⟨made, making, last⟩
      cases last
      rw [fieldSlots_append]
      exact draws.append (draws_makeField making).1

theorem draws_flattenMember {defs : Definitions} {discriminator : Option Text}
    {flat : List Text × List WireField} {memberName : Text} {start before : Wiring}
    {result : (List Text × List WireField) × Wiring} (draws : Draws start before (fieldSlots scope flat.2))
    (done : flattenMember defs depth scope discriminator flat memberName before = .ok result) :
    Draws start result.2 (fieldSlots scope result.1.2) := by
  rcases bind_ok_iff.mp done with ⟨found, lifted, rest⟩
  rcases lift_ok_iff.mp lifted with ⟨member, -, rfl⟩
  exact foldlM_invariant (fun state made => Draws start state (fieldSlots scope made.2))
    (fun _ _ _ _ held round => draws_flattenField held round) draws rest

omit [Casing] in
/-- A loop whose rounds draw for what they make draws for all of it. -/
theorem draws_mapM {X B : Type} {round : X -> Build B} {slots : List B -> List (Text × Nat)} (none : slots [] = [])
    (append : ∀ first second, slots (first ++ second) = slots first ++ slots second)
    (each : ∀ {item state result}, round item state = .ok result -> Draws state result.2 (slots [result.1]))
    {items : List X} {before : Wiring} {made : List B × Wiring} (making : items.mapM round before = .ok made) :
    Draws before made.2 (slots made.1) := by
  refine mapM_invariant (fun state values => Draws before state (slots values)) ?_ (none ▸ Draws.refl before) making
  intro values item state result held done
  rw [append]
  exact held.append (each done)

theorem draws_messageField {defs : Definitions} {field : Field} {before : Wiring}
    {result : List WireField × Wiring} (done : messageField defs depth scope field before = .ok result) :
    Draws before result.2 (fieldSlots scope result.1) := by
  unfold messageField at done
  split at done
  · rcases bind_ok_iff.mp done with ⟨found, lifted, rest⟩
    rcases lift_ok_iff.mp lifted with ⟨variants, -, rfl⟩
    exact draws_mapM rfl (fieldSlots_append scope) draws_variantField rest
  · rcases bind_ok_iff.mp done with ⟨typed, lifted, rest⟩
    rcases lift_ok_iff.mp lifted with ⟨wire, -, rfl⟩
    cases wire with
    | flatten union =>
      rcases bind_ok_iff.mp rest with ⟨tag, tagging, more⟩
      rcases bind_ok_iff.mp more with ⟨flat, flattening, last⟩
      cases last
      have flattened := foldlM_invariant (fun state made => Draws tag.2 state (fieldSlots scope made.2))
        (fun _ _ _ _ held round => draws_flattenMember held round) (Draws.refl tag.2) flattening
      exact (draws_makeField tagging).1.append flattened
    | plain type repeated =>
      rcases bind_ok_iff.mp rest with ⟨made, making, last⟩
      cases last
      exact (draws_makeField making).1

theorem draws_messageFields {defs : Definitions} {fields : List Field}
    {exclude : List Text} {before : Wiring} {result : List WireField × Wiring}
    (done : messageFields defs depth scope fields exclude before = .ok result) :
    Draws before result.2 (fieldSlots scope result.1) := by
  rcases bind_ok_iff.mp done with ⟨made, making, last⟩
  cases last
  refine @draws_mapM _ _ _ (fun made => fieldSlots scope made.flatten) rfl ?_ ?_ _ _ _ making
  · intro first second
    rw [List.flatten_append, fieldSlots_append]
  · intro field state outcome round
    rw [List.flatten_singleton]
    exact draws_messageField round

/-! ## A merged message -/

omit [Casing] in
theorem draws_mergeVariant {defs : Definitions} {field : Field} {alone : Bool}
    {merging : OrderedMap Text WireField × OrderedMap Text Bool} {variant : Text × TypeExpr} {start before : Wiring}
    {result : (OrderedMap Text WireField × OrderedMap Text Bool) × Wiring}
    (draws : Draws start before (mapSlots scope merging.1))
    (done : mergeVariant defs depth scope field alone merging variant before = .ok result) :
    Draws start result.2 (mapSlots scope result.1.1) := by
  rcases bind_ok_iff.mp done with ⟨typed, lifted, rest⟩
  rcases lift_ok_iff.mp lifted with ⟨wire, -, rfl⟩
  cases wire with
  | flatten union => exact absurd rest lift_refuse_ne_ok
  | plain type repeated =>
    dsimp only at rest
    split at rest
    · cases rest
      exact draws
    · rename_i absent
      rcases bind_ok_iff.mp rest with ⟨made, making, last⟩
      cases last
      rw [mapSlots_set (Bool.eq_false_iff.mpr absent)]
      exact draws.append (draws_makeField making).1

theorem draws_mergeField {defs : Definitions}
    {merging : OrderedMap Text WireField × OrderedMap Text Bool} {field : Field} {start before : Wiring}
    {result : (OrderedMap Text WireField × OrderedMap Text Bool) × Wiring}
    (draws : Draws start before (mapSlots scope merging.1))
    (done : mergeField defs depth scope merging field before = .ok result) :
    Draws start result.2 (mapSlots scope result.1.1) := by
  rcases bind_ok_iff.mp done with ⟨found, lifted, rest⟩
  rcases lift_ok_iff.mp lifted with ⟨variants, -, rfl⟩
  exact foldlM_invariant (fun state merged => Draws start state (mapSlots scope merged.1))
    (fun _ _ _ _ held round => draws_mergeVariant held round) draws rest

theorem draws_mergeMember {defs : Definitions} {merging : Merging} {memberName : Text}
    {start before : Wiring} {result : Merging × Wiring} (draws : Draws start before (mapSlots scope merging.fields))
    (done : mergeMember defs depth scope merging memberName before = .ok result) :
    Draws start result.2 (mapSlots scope result.1.fields) := by
  rcases bind_ok_iff.mp done with ⟨found, lifted, rest⟩
  rcases lift_ok_iff.mp lifted with ⟨member, -, rfl⟩
  rcases bind_ok_iff.mp rest with ⟨read, reading, last⟩
  cases last
  exact foldlM_invariant (fun state merged => Draws start state (mapSlots scope merged.1))
    (fun _ _ _ _ held round => draws_mergeField held round) draws reading

theorem makes_mergeUnion {defs : Definitions} {union : UnionDefinition} {before : Wiring}
    {result : WireMessage × Wiring} (done : mergeUnion defs depth union before = .ok result) :
    Makes before result.2 result.1 := by
  rcases bind_ok_iff.mp done with ⟨merging, folded, rest⟩
  rcases bind_ok_iff.mp rest with ⟨reserved, reserving, last⟩
  cases last
  have reserved' := reservedIn_ok reserving
  have draws := foldlM_invariant
    (fun state merged => Draws before state (mapSlots (protoName union.name) merged.fields))
    (fun _ _ _ _ held round => draws_mergeMember held round) (Draws.refl before) folded
  dsimp only
  rw [reserved'.1]
  refine makes_plain draws ?_ reserved'.2
  intro entry
  simp only [MessageBody.block, oneofSlots, List.append_nil]
  rw [mem_fieldSlots_sortFields, fieldSlots_map merging.1.settle_name merging.1.settle_number]
  rfl

/-! ## Messages -/

variable {definition : ObjectDefinition}

/-- The nested message is made: a block of its own, at a path of its own. -/
theorem makes_functionMessage {defs : Definitions} {before : Wiring}
    {result : MessageBody × Wiring} (done : functionMessage defs depth definition before = .ok result) :
    Draws before result.2
        (result.1.block (slot (protoName definition.name) result.1.name) [protoName definition.name]).slots ∧
      Sound result.2.freeze
        (result.1.block (slot (protoName definition.name) result.1.name) [protoName definition.name]) := by
  rcases bind_ok_iff.mp done with ⟨found, lifted, rest⟩
  rcases lift_ok_iff.mp lifted with ⟨functionDef, -, rfl⟩
  rcases bind_ok_iff.mp rest with ⟨fields, making, more⟩
  rcases bind_ok_iff.mp more with ⟨reserved, reserving, last⟩
  cases last
  have reserved' := reservedIn_ok reserving
  have draws := draws_messageFields making
  dsimp only
  rw [reserved'.1]
  have slots := draws.congr fun entry => mem_fieldSlots_sortFields (slot (protoName definition.name) "Function")
    fields.1 entry
  constructor
  · simp only [MessageBody.block, oneofSlots, List.append_nil]
    exact slots
  · exact {
      numbered := by
        simp only [MessageBody.block, oneofSlots, List.append_nil]
        exact slots.numbered
      withheld := reserved'.2
      shaped := shaped_nested (protoName definition.name) _ rfl rfl }

/-- The slots of the nested messages and of the fields made so far. -/
def partSlots (scope : Text) (parts : List MessageBody × List WireField) : List (Text × Nat) :=
  (parts.1.flatMap fun nested => (nested.block (slot scope nested.name) [scope]).slots) ++ fieldSlots scope parts.2

def NestedSound (freeze : WireFreeze) (scope : Text) (nested : List MessageBody) : Prop :=
  ∀ body ∈ nested, Sound freeze (body.block (slot scope body.name) [scope])

theorem draws_objectField {defs : Definitions} {exclude : List Text}
    {parts : List MessageBody × List WireField} {field : Field} {start before : Wiring}
    {result : (List MessageBody × List WireField) × Wiring}
    (held : Draws start before (partSlots (protoName definition.name) parts) ∧
      NestedSound before.freeze (protoName definition.name) parts.1)
    (done : objectField defs depth definition exclude parts field before = .ok result) :
    Draws start result.2 (partSlots (protoName definition.name) result.1) ∧
      NestedSound result.2.freeze (protoName definition.name) result.1.1 := by
  unfold objectField at done
  split at done
  · cases done
    exact held
  · split at done
    · rcases bind_ok_iff.mp done with ⟨nested, nesting, rest⟩
      rcases bind_ok_iff.mp rest with ⟨made, making, more⟩
      rcases bind_ok_iff.mp more with ⟨marked, marking, last⟩
      cases last
      have function := makes_functionMessage nesting
      have field' := (draws_makeField making).1.then_silent (draws_addEmitted marking)
      constructor
      · apply ((held.1.append function.1).append field').congr
        intro entry
        simp only [partSlots, List.flatMap_append, List.flatMap_singleton, fieldSlots_append, List.mem_append]
        tauto
      · intro body member
        rcases List.mem_append.mp member with older | new
        · exact (held.2 body older).grows (function.1.grows.trans field'.grows)
        · rw [List.mem_singleton.mp new]
          exact function.2.grows field'.grows
    · rcases bind_ok_iff.mp done with ⟨made, making, last⟩
      cases last
      have fields := draws_messageFields making
      constructor
      · unfold partSlots
        rw [fieldSlots_append, ← List.append_assoc]
        exact held.1.append fields
      · exact fun body member => (held.2 body member).grows fields.grows

omit [Casing] in
theorem draws_baseEventFields {isEvent : Bool} {before : Wiring} {result : List WireField × Wiring}
    (done : baseEventFields scope isEvent before = .ok result) :
    Draws before result.2 (fieldSlots scope result.1) := by
  unfold baseEventFields at done
  split at done
  · rcases bind_ok_iff.mp done with ⟨made, making, last⟩
    cases last
    exact (draws_makeField making).1
  · cases done
    exact .refl before

theorem makes_emitObjectMessage {defs : Definitions} {baseFieldNames : List Text}
    {dropDiscriminator : Option Text} {isEvent : Bool} {before : Wiring} {result : WireMessage × Wiring}
    (done : emitObjectMessage defs depth baseFieldNames definition dropDiscriminator isEvent before = .ok result) :
    Makes before result.2 result.1 := by
  rcases bind_ok_iff.mp done with ⟨base, basing, rest⟩
  rcases bind_ok_iff.mp rest with ⟨parts, folded, more⟩
  rcases bind_ok_iff.mp more with ⟨reserved, reserving, last⟩
  cases last
  have reserved' := reservedIn_ok reserving
  have held := foldlM_invariant
    (fun state made => Draws before state (partSlots (protoName definition.name) made) ∧
      NestedSound state.freeze (protoName definition.name) made.1)
    (fun _ _ _ _ held round => draws_objectField held round)
    ⟨draws_baseEventFields basing, fun _ member => absurd member List.not_mem_nil⟩ folded
  dsimp only
  rw [reserved'.1]
  constructor
  · apply held.1.congr
    intro entry
    simp only [WireMessage.blocks, List.flatMap_cons, List.flatMap_map, partSlots, MessageBody.block, oneofSlots,
      List.append_nil, List.mem_append, mem_fieldSlots_sortFields]
    exact or_comm
  · intro block member
    rcases List.mem_cons.mp member with own | nested
    · rw [own]
      exact {
        numbered := by
          intro entry listed
          simp only [MessageBody.block, oneofSlots, List.append_nil, mem_fieldSlots_sortFields] at listed
          exact held.1.numbered entry (List.mem_append_right _ listed)
        withheld := reserved'.2
        shaped := shaped_message _ }
    · rcases List.mem_map.mp nested with ⟨body, listed, rfl⟩
      exact held.2 body listed

end Generator
end AgUi
