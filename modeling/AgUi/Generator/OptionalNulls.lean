import AgUi.Generator.NullWalk

namespace AgUi
namespace Generator

open Library Protocol
open Enforce (DistinctKeys)

/-!
# The optional nulls of a model

What `omitOptionalNulls` is to remove, said of the schema model without its
shapes: a null under an optional field of an object that the model reaches
from its root.  The table of shapes names the same positions as the model,
if no name of it is `__proto__`, which the emitted table cannot spell.
-/

/-! ## Positions a model describes -/

/-- A member of a union pins the discriminator to the literal. -/
def Pins (definitions : Definitions) (discriminator member tag : Text) : Prop :=
  ∃ object field, definitions.get? member = some (.object object) ∧
    field ∈ object.fields ∧ field.name = discriminator ∧ field.type = .literal tag

/-- A null under an optional field of an object, reached through described
fields, items, aliases, arms and the member of a union that the value's
discriminator recognises. -/
inductive OptionalNull (definitions : Definitions) : TypeExpr -> Json -> Position -> Prop where
  | aliased {name : Text} {definition : AliasDefinition} {value : Json} {position : Position}
      (defined : definitions.get? name = some (.alias definition))
      (inside : OptionalNull definitions definition.type value position) :
      OptionalNull definitions (.ref name) value position
  | null {name : Text} {definition : ObjectDefinition} {members : List (String × Json)} {field : Field}
      (defined : definitions.get? name = some (.object definition)) (described : field ∈ definition.fields)
      (optional : field.required = false) (isNull : members.lookup (spelled field.name) = some .null) :
      OptionalNull definitions (.ref name) (.object members) [.key (spelled field.name)]
  | field {name : Text} {definition : ObjectDefinition} {members : List (String × Json)} {field : Field} {value : Json}
      {position : Position} (defined : definitions.get? name = some (.object definition))
      (described : field ∈ definition.fields) (present : members.lookup (spelled field.name) = some value)
      (inside : OptionalNull definitions field.type value position) :
      OptionalNull definitions (.ref name) (.object members) (.key (spelled field.name) :: position)
  | variant {name : Text} {definition : UnionDefinition} {discriminator member tag : Text}
      {members : List (String × Json)} {position : Position}
      (defined : definitions.get? name = some (.union definition))
      (discriminated : definition.discriminator = some discriminator) (listed : member ∈ definition.members)
      (pinned : Pins definitions discriminator member tag)
      (tagged : members.lookup (spelled discriminator) = some (.string (spelled tag)))
      (inside : OptionalNull definitions (.ref member) (.object members) position) :
      OptionalNull definitions (.ref name) (.object members) position
  | item {type : TypeExpr} {items : List Json} {place : Nat} {item : Json} {position : Position}
      (placed : items[place]? = some item) (inside : OptionalNull definitions type item position) :
      OptionalNull definitions (.array type) (.array items) (.index place :: position)
  | arm {types : List TypeExpr} {type : TypeExpr} {value : Json} {position : Position} (member : type ∈ types)
      (inside : OptionalNull definitions type value position) :
      OptionalNull definitions (.union types) value position

open Classical in
/-- The positions to remove, as a test. -/
noncomputable def optionalNulls (definitions : Definitions) (type : TypeExpr) (value : Json) : Position -> Bool :=
  fun position => decide (OptionalNull definitions type value position)

open Classical in
theorem optionalNulls_eq_true_iff {definitions : Definitions} {type : TypeExpr} {value : Json} {position : Position} :
    optionalNulls definitions type value position = true ↔ OptionalNull definitions type value position := by
  rw [optionalNulls, decide_eq_true_iff]

/-- What the model's own declarations say of it: names occur once, and the
members of a union pin its discriminator to distinct literals. -/
structure ProtocolModel.Declared (model : ProtocolModel) : Prop where
  names : (model.definitions.map Definition.name).Nodup
  fields : ∀ definition, Definition.object definition ∈ model.definitions ->
    (definition.fields.map Field.name).Nodup
  pins : ∀ definition discriminator, Definition.union definition ∈ model.definitions ->
    definition.discriminator = some discriminator -> ∀ first second tag,
      first ∈ definition.members -> second ∈ definition.members ->
        Pins model.defs discriminator first tag -> Pins model.defs discriminator second tag -> first = second

def protoKey : Text := "__proto__"

/-- No field and no literal of a discriminator is called `__proto__`. -/
structure ProtocolModel.Spellable (model : ProtocolModel) : Prop where
  fields : ∀ definition, Definition.object definition ∈ model.definitions ->
    ∀ field ∈ definition.fields, field.name ≠ protoKey
  pins : ∀ definition discriminator, Definition.union definition ∈ model.definitions ->
    definition.discriminator = some discriminator -> ∀ member tag, member ∈ definition.members ->
      Pins model.defs discriminator member tag -> tag ≠ protoKey

/-- A definition whose values are walked: an object or a union. -/
def Definition.Structured (definition : Definition) : Prop :=
  (∃ object, definition = .object object) ∨ ∃ union, definition = .union union

/-- The model defines the root as an object or as a union. -/
def ProtocolModel.Defines (model : ProtocolModel) (root : Root) : Prop :=
  ∃ definition, model.defs.get? root.name = some definition ∧ definition.Structured

/-- The walk of a value from a root ends, returns the value without exactly
the optional nulls of the model, returns the argument itself where there are
none, and hands back what it returned when it is walked again. -/
structure OmitsExactly (model : ProtocolModel) (shapes : Shapes) (root : Root) (value : Json) (returned : Returned) :
    Prop where
  ends : ∃ bound, ∀ depth, bound ≤ depth -> omitOptionalNulls shapes depth value root = .ok returned
  removes : returned.value value = value.without (optionalNulls model.defs (.ref root.name) value)
  keeps : returned = .argument ↔ ∀ position, ¬ OptionalNull model.defs (.ref root.name) value position
  again : ∃ bound, ∀ depth, bound ≤ depth ->
    omitOptionalNulls shapes depth (returned.value value) root = .ok .argument

/-! ## Names -/

theorem spelled_injective {first second : Text} (same : spelled first = spelled second) : first = second :=
  String.ofList_injective same

theorem nodup_spelled {A : Type} {items : List A} {name : A -> Text} (distinct : (items.map name).Nodup) :
    (items.map fun item => spelled (name item)).Nodup := by
  have pairs : (items.map name).map spelled = items.map fun item => spelled (name item) := by
    rw [List.map_map]
    rfl
  rw [← pairs]
  exact distinct.map fun _ _ => spelled_injective

theorem lookup_literalEntries {A : Type} {entries : List (String × A)} (distinct : (entries.map Prod.fst).Nodup)
    {key : String} (plain : key ≠ "__proto__") : (literalEntries entries).lookup key = entries.lookup key := by
  rw [literalEntries, OrderedMap.lookup_filter_key fun key => key != "__proto__", if_pos (by simpa using plain)]
  exact OrderedMap.get?_ofList distinct key

theorem mem_of_lookup_literalEntries {A : Type} {entries : List (String × A)} {key : String} {value : A}
    (found : (literalEntries entries).lookup key = some value) : (key, value) ∈ entries := by
  have member := List.mem_of_mem_filter (OrderedMap.mem_of_lookup_eq_some found)
  exact OrderedMap.mem_of_get?_ofList ((OrderedMap.mem_entries_iff _ _ _).mp member)

theorem nodup_literalEntries {A : Type} (entries : List (String × A)) :
    ((literalEntries entries).map Prod.fst).Nodup :=
  (OrderedMap.ofList entries).nodup.sublist (List.filter_sublist.map Prod.fst)

/-! ## The table -/

section Table

variable {model : ProtocolModel} {shapes : Shapes} {bound : Nat}

variable {definition : Definition}

theorem definition_of_get? {name : Text} (found : model.defs.get? name = some definition) :
    definition ∈ model.definitions ∧ definition.name = name := by
  have member := OrderedMap.mem_of_get?_ofList found
  rcases List.mem_map.mp member with ⟨own, listed, same⟩
  cases same
  exact ⟨listed, rfl⟩

theorem get?_of_definition (declared : model.Declared)
    (listed : definition ∈ model.definitions) : model.defs.get? definition.name = some definition := by
  have distinct : ((model.definitions.map fun definition => (definition.name, definition)).map Prod.fst).Nodup := by
    rw [List.map_map]
    exact declared.names
  rw [ProtocolModel.defs, OrderedMap.get?_ofList distinct]
  exact OrderedMap.lookup_eq_some_of_mem distinct (List.mem_map_of_mem listed)

/-- What the table has, it has from the definition of that name. -/
structure Tabulates (model : ProtocolModel) (bound : Nat) (shapes : Shapes) : Prop where
  succeeds : ∀ definition ∈ model.definitions,
    ∃ shape, shapeOfDefinition model.defs bound definition = .ok shape ∧
      ∀ found, shape = some found -> shapes.get? (spelled definition.name) = some found
  only : ∀ key shape, shapes.get? key = some shape -> ∃ definition,
    definition ∈ model.definitions ∧ key = spelled definition.name ∧
      shapeOfDefinition model.defs bound definition = .ok (some shape)

theorem Tabulates.finds (table : Tabulates model bound shapes) {name : Text}
    (defined : model.defs.get? name = some definition) :
    definition ∈ model.definitions ∧ ∃ shape, shapeOfDefinition model.defs bound definition = .ok shape ∧
      ∀ found, shape = some found -> shapes.get? (spelled name) = some found := by
  rcases definition_of_get? defined with ⟨listed, rfl⟩
  exact ⟨listed, table.succeeds _ listed⟩

def namedShape (name : Text) (shape : Option Shape) : Option (String × Shape) :=
  shape.map fun shape => (spelled name, shape)

theorem bind_ok_namedShape {name : Text} {shape : Except GenerateError (Option Shape)}
    {entry : Option (String × Shape)} :
    (shape >>= fun shape => .ok (namedShape name shape)) = (.ok entry : Except GenerateError _) ↔
      ∃ found, shape = .ok found ∧ entry = namedShape name found := by
  cases shape with
  | error failure => simp [bind, Except.bind]
  | ok found => simp [bind, Except.bind, eq_comm]

theorem emitted_entries (emitted : emitSerialization bound model = .ok shapes) :
    ∃ entries, shapes = OrderedMap.ofList (entries.filterMap id) ∧
      List.Forall₂ (fun definition entry => ∃ shape,
        shapeOfDefinition model.defs bound definition = .ok shape ∧ entry = namedShape definition.name shape)
        model.definitions entries := by
  rw [emitSerialization] at emitted
  cases mapped : model.definitions.mapM fun definition => do
      let shape <- shapeOfDefinition model.defs bound definition
      (.ok (namedShape definition.name shape) : Except GenerateError _) with
  | error failure =>
    change (Except.bind (model.definitions.mapM _) _) = _ at emitted
    erw [mapped] at emitted
    cases emitted
  | ok entries =>
    change (Except.bind (model.definitions.mapM _) _) = _ at emitted
    erw [mapped] at emitted
    refine ⟨entries, (Except.ok.inj emitted).symm, ?_⟩
    refine (mapM_eq_ok_iff.mp mapped).imp fun definition entry own => ?_
    exact bind_ok_namedShape.mp own

theorem keys_filterMap_sublist {items : List Definition} {entries : List (Option (String × Shape))}
    (each : List.Forall₂ (fun definition entry => ∃ shape,
      shapeOfDefinition model.defs bound definition = .ok shape ∧
        entry = namedShape definition.name shape) items entries) :
    ((entries.filterMap id).map Prod.fst).Sublist (items.map fun definition => spelled definition.name) := by
  induction each with
  | nil => exact .slnil
  | cons first _ ih =>
    rcases first with ⟨shape, _, rfl⟩
    cases shape with
    | none => exact ih.cons _
    | some shape => exact ih.cons_cons _

theorem tabulates_of_emitted (declared : model.Declared) (emitted : emitSerialization bound model = .ok shapes) :
    Tabulates model bound shapes := by
  rcases emitted_entries emitted with ⟨entries, rfl, each⟩
  have distinct : ((entries.filterMap id).map Prod.fst).Nodup :=
    (nodup_spelled declared.names).sublist (keys_filterMap_sublist each)
  constructor
  · intro definition listed
    rcases List.forall₂_iff_get.mp each with ⟨lengths, pairs⟩
    rcases List.mem_iff_get.mp listed with ⟨place, rfl⟩
    rcases pairs place.1 place.2 (lengths ▸ place.2) with ⟨shape, own, entry⟩
    refine ⟨shape, own, fun found same => ?_⟩
    rw [OrderedMap.get?_ofList distinct]
    apply OrderedMap.lookup_eq_some_of_mem distinct
    refine List.mem_filterMap.mpr ⟨_, List.get_mem _ ⟨place.1, lengths ▸ place.2⟩, ?_⟩
    rw [entry, same]
    rfl
  · intro key shape found
    have member := OrderedMap.mem_of_get?_ofList found
    rcases List.mem_filterMap.mp member with ⟨entry, listed, same⟩
    rcases List.forall₂_iff_get.mp each with ⟨lengths, pairs⟩
    rcases List.mem_iff_get.mp listed with ⟨place, rfl⟩
    have inside := Nat.lt_of_lt_of_eq place.2 lengths.symm
    rcases pairs place.1 inside place.2 with ⟨own, made, entry⟩
    refine ⟨_, List.get_mem _ ⟨place.1, inside⟩, ?_⟩
    rw [id, entry] at same
    rcases Option.map_eq_some_iff.mp same with ⟨inner, rfl, pair⟩
    cases pair
    exact ⟨rfl, made⟩

/-! ## Shapes of definitions -/

theorem mem_zipped {A B : Type} {Related : A -> B -> Prop} {items : List A} {results : List B}
    (each : List.Forall₂ Related items results) {item : A} (member : item ∈ items) :
    ∃ result ∈ results, Related item result := by
  induction each with
  | nil => cases member
  | cons first _ ih =>
    rcases List.mem_cons.mp member with rfl | later
    · exact ⟨_, List.mem_cons_self, first⟩
    · rcases ih later with ⟨result, listed, related⟩
      exact ⟨result, List.mem_cons_of_mem _ listed, related⟩

theorem mem_zipped' {A B : Type} {Related : A -> B -> Prop} {items : List A} {results : List B}
    (each : List.Forall₂ Related items results) {result : B} (member : result ∈ results) :
    ∃ item ∈ items, Related item result :=
  mem_zipped each.flip member

theorem shapeOfField_eq_ok {defs : Definitions} {field : Field} {entry : Option (String × Shape)} :
    shapeOfField defs bound field = .ok entry ↔
      ∃ shape, shapeOfType defs bound field.type = .ok shape ∧ entry = namedShape field.name shape := by
  rw [shapeOfField]
  cases shapeOfType defs bound field.type with
  | error failure => simp [Except.map]
  | ok shape => simp [Except.map, namedShape, eq_comm]

variable {shape : Option Shape}

/-- The shape of an object: its optional names, and the shapes of its fields. -/
theorem shapeOfDefinition_object {defs : Definitions} {definition : ObjectDefinition}
    (made : shapeOfDefinition defs bound (.object definition) = .ok shape) :
    ∃ entries, List.Forall₂ (fun field entry => shapeOfField defs bound field = .ok entry)
        definition.fields entries ∧
      shape = some (.object
        ((definition.fields.filter fun field => !field.required).map fun field => spelled field.name)
        (literalEntries (entries.filterMap id))) := by
  rw [shapeOfDefinition] at made
  cases mapped : definition.fields.mapM (shapeOfField defs bound) with
  | error failure =>
    rw [mapped] at made
    cases made
  | ok entries =>
    rw [mapped] at made
    exact ⟨entries, mapM_eq_ok_iff.mp mapped, (Except.ok.inj made).symm⟩

theorem shapeOfDefinition_union {defs : Definitions} {definition : UnionDefinition}
    (made : shapeOfDefinition defs bound (.union definition) = .ok shape) :
    ∃ discriminator variants, definition.discriminator = some discriminator ∧
      List.Forall₂ (fun member variant => variantOf defs discriminator member = .ok variant)
        definition.members variants ∧
      shape = some (.variants (spelled discriminator) (literalEntries variants)) := by
  rw [shapeOfDefinition] at made
  split at made
  · cases made
  · cases made
  next discriminator _ found =>
    cases mapped : definition.members.mapM (variantOf defs discriminator) with
    | error failure =>
      rw [mapped] at made
      cases made
    | ok variants =>
      rw [mapped] at made
      exact ⟨discriminator, variants, found, mapM_eq_ok_iff.mp mapped, (Except.ok.inj made).symm⟩

variable {fields : List Field}

theorem keys_fields_sublist {defs : Definitions} {entries : List (Option (String × Shape))}
    (each : List.Forall₂ (fun field entry => shapeOfField defs bound field = .ok entry) fields entries) :
    ((entries.filterMap id).map Prod.fst).Sublist (fields.map fun field => spelled field.name) := by
  induction each with
  | nil => exact .slnil
  | cons first _ ih =>
    rcases shapeOfField_eq_ok.mp first with ⟨shape, _, rfl⟩
    cases shape with
    | none => exact ih.cons _
    | some shape => exact ih.cons_cons _

/-- A field that can be walked is in the shape, if its name can be spelled. -/
theorem lookup_of_field {defs : Definitions} {entries : List (Option (String × Shape))}
    (each : List.Forall₂ (fun field entry => shapeOfField defs bound field = .ok entry) fields entries)
    (distinct : (fields.map Field.name).Nodup) {field : Field} (listed : field ∈ fields) (plain : field.name ≠ protoKey)
    {shape : Shape} (made : shapeOfType defs bound field.type = .ok (some shape)) :
    (literalEntries (entries.filterMap id)).lookup (spelled field.name) = some shape := by
  have keys : ((entries.filterMap id).map Prod.fst).Nodup := (nodup_spelled distinct).sublist (keys_fields_sublist each)
  rw [lookup_literalEntries keys fun same => plain (spelled_injective (same.trans (by rfl)))]
  apply OrderedMap.lookup_eq_some_of_mem keys
  rcases mem_zipped each listed with ⟨entry, member, own⟩
  rcases shapeOfField_eq_ok.mp own with ⟨other, same, rfl⟩
  rw [made] at same
  cases same
  exact List.mem_filterMap.mpr ⟨_, member, rfl⟩

theorem field_of_lookup {defs : Definitions} {entries : List (Option (String × Shape))}
    (each : List.Forall₂ (fun field entry => shapeOfField defs bound field = .ok entry) fields entries)
    {key : String} {child : Shape} (found : (key, child) ∈ entries.filterMap id) :
    ∃ field ∈ fields, key = spelled field.name ∧
      shapeOfType defs bound field.type = .ok (some child) := by
  rcases List.mem_filterMap.mp found with ⟨entry, listed, same⟩
  rcases mem_zipped' each listed with ⟨field, member, own⟩
  rcases shapeOfField_eq_ok.mp own with ⟨shape, made, rfl⟩
  rcases Option.map_eq_some_iff.mp same with ⟨inner, rfl, pair⟩
  cases pair
  exact ⟨field, member, rfl, made⟩

theorem variantOf_eq_ok {defs : Definitions} {discriminator member : Text} {variant : String × String}
    (made : variantOf defs discriminator member = .ok variant) :
    ∃ tag, Pins defs discriminator member tag ∧ variant = (spelled tag, spelled member) := by
  rw [variantOf] at made
  split at made
  · cases made
  next object defined =>
    split at made
    next value found =>
      rcases Option.map_eq_some_iff.mp found with ⟨field, first, type⟩
      have named := List.find?_some first
      refine ⟨value, ⟨object, field, defined, List.mem_of_find?_eq_some first, of_decide_eq_true named, type⟩, ?_⟩
      exact (Except.ok.inj made).symm
    · cases made
  · cases made

theorem eq_of_mem_of_name (distinct : (fields.map Field.name).Nodup) {first second : Field}
    (one : first ∈ fields) (other : second ∈ fields) (same : first.name = second.name) : first = second :=
  List.inj_on_of_nodup_map distinct one other same

theorem variantOf_of_pins (declared : model.Declared) {discriminator member tag : Text} {variant : String × String}
    (pins : Pins model.defs discriminator member tag) (made : variantOf model.defs discriminator member = .ok variant) :
    variant = (spelled tag, spelled member) := by
  rcases variantOf_eq_ok made with ⟨other, ⟨object, field, defined, listed, named, type⟩, rfl⟩
  rcases pins with ⟨object', field', defined', listed', named', type'⟩
  rw [defined] at defined'
  cases defined'
  have distinct := declared.fields object (definition_of_get? defined).1
  have same := eq_of_mem_of_name distinct listed listed' (named.trans named'.symm)
  rw [same, type'] at type
  cases type
  rfl

/-- A literal that can be spelled is recognised as the member that pins it. -/
theorem lookup_of_pins (declared : model.Declared) (spellable : model.Spellable) {definition : UnionDefinition}
    {discriminator : Text} {variants : List (String × String)}
    (listed : Definition.union definition ∈ model.definitions)
    (discriminated : definition.discriminator = some discriminator)
    (each : List.Forall₂ (fun member variant => variantOf model.defs discriminator member = .ok variant)
      definition.members variants) {member tag : Text} (among : member ∈ definition.members)
    (pins : Pins model.defs discriminator member tag) :
    (literalEntries variants).lookup (spelled tag) = some (spelled member) := by
  rcases mem_zipped each among with ⟨variant, made, own⟩
  have same := variantOf_of_pins declared pins own
  have plain : spelled tag ≠ "__proto__" := by
    intro impossible
    have tagSame : spelled tag = spelled protoKey := impossible.trans (by rfl)
    exact spellable.pins definition discriminator listed discriminated member tag among pins (spelled_injective tagSame)
  have present : (OrderedMap.ofList variants).has (spelled tag) = true := by
    rw [OrderedMap.has_ofList_iff]
    exact List.mem_map.mpr ⟨variant, made, by rw [same]⟩
  rcases (OrderedMap.has_eq_true_iff _ _).mp present with ⟨name, found⟩
  have looked : (literalEntries variants).lookup (spelled tag) = some name := by
    rw [literalEntries, OrderedMap.lookup_filter_key fun key => key != "__proto__", if_pos (by simpa using plain)]
    exact found
  rcases mem_zipped' each (mem_of_lookup_literalEntries looked) with ⟨other, otherAmong, otherMade⟩
  rcases variantOf_eq_ok otherMade with ⟨otherTag, otherPins, pair⟩
  cases spelled_injective (congrArg Prod.fst pair)
  have one :=
    declared.pins definition discriminator listed discriminated member other tag among otherAmong pins otherPins
  rw [looked, one]
  exact congrArg some (congrArg Prod.snd pair)

/-! ## The same positions -/

variable {depth : Nat}

/-- An inline union has the shape of its one arm that can be walked. -/
theorem armOf_eq_ok {defs : Definitions} {members : List (TypeExpr × Option Shape)}
    (chosen : armOf defs depth members = .ok shape) : members.filterMap Prod.snd = shape.toList := by
  rw [armOf] at chosen
  split at chosen
  next nothing =>
    cases chosen
    exact nothing
  · cases chosen
  next arm _ single =>
    cases guessed : members.anyM fun member =>
      if member.2.isNone then (isScalar defs depth member.1).map not else .ok false with
    | error failure =>
      rw [guessed] at chosen
      cases chosen
    | ok found =>
      rw [guessed] at chosen
      cases found with
      | true => cases chosen
      | false =>
        cases chosen
        exact single
  · cases chosen

theorem zip_filterMap {A B : Type} {items : List A} {shapes : List (Option B)}
    (lengths : items.length = shapes.length) :
    (items.zip shapes).filterMap Prod.snd = shapes.filterMap id := by
  have seconds : (items.zip shapes).map Prod.snd = shapes := List.map_snd_zip (Nat.le_of_eq lengths.symm)
  calc
    (items.zip shapes).filterMap Prod.snd = ((items.zip shapes).map Prod.snd).filterMap id := by
      rw [List.filterMap_map]
      rfl
    _ = shapes.filterMap id := by rw [seconds]

theorem shapeOfType_union {defs : Definitions} {members : List TypeExpr}
    (made : shapeOfType defs (depth + 1) (.union members) = .ok shape) :
    ∃ arms, List.Forall₂ (fun member arm => shapeOfType defs depth member = .ok arm) members arms ∧
      arms.filterMap id = shape.toList := by
  rw [shapeOfType] at made
  cases mapped : members.mapM fun member => shapeOfType defs depth member with
  | error failure =>
    rw [mapped] at made
    cases made
  | ok arms =>
    rw [mapped] at made
    have each := mapM_eq_ok_iff.mp mapped
    have single := armOf_eq_ok made
    rw [zip_filterMap each.length_eq] at single
    exact ⟨arms, each, single⟩

/-- What a type that can be walked comes down to: a name, or an array. -/
theorem shapeOfType_eq_some {defs : Definitions} {type : TypeExpr} {shape : Shape}
    (made : shapeOfType defs depth type = .ok (some shape)) :
    (∃ name definition, shape = .named (spelled name) ∧ defs.get? name = some definition ∧
      definition.Structured ∧ ∀ value position, OptionalNull defs (.ref name) value position ->
        OptionalNull defs type value position) ∨
    (∃ items below inner, below < depth ∧ shape = .array inner ∧
      shapeOfType defs below items = .ok (some inner) ∧
      ∀ value position, OptionalNull defs (.array items) value position ->
        OptionalNull defs type value position) := by
  induction depth generalizing type shape with
  | zero => cases made
  | succ depth ih =>
    cases type with
    | ref name =>
      rw [shapeOfType] at made
      split at made
      · cases made
      next definition defined =>
        rcases ih made with ⟨target, own, same, found, structured, carries⟩ |
          ⟨items, below, inner, less, same, found, carries⟩
        · exact Or.inl ⟨target, own, same, found, structured,
            fun value position null => .aliased defined (carries value position null)⟩
        · exact Or.inr ⟨items, below, inner, Nat.lt_succ_of_lt less, same, found,
            fun value position null => .aliased defined (carries value position null)⟩
      · cases made
      next definition notAlias notEnum defined =>
        cases made
        have structured : definition.Structured := by
          cases definition with
          | object object => exact Or.inl ⟨object, rfl⟩
          | union union => exact Or.inr ⟨union, rfl⟩
          | enum enum => exact absurd rfl (notEnum enum)
          | «alias» target => exact absurd rfl (notAlias target)
        exact Or.inl ⟨name, definition, rfl, defined, structured, fun _ _ null => null⟩
    | array items =>
      rw [shapeOfType] at made
      cases inside : shapeOfType defs depth items with
      | error failure =>
        rw [inside] at made
        cases made
      | ok inner =>
        rw [inside] at made
        rcases Option.map_eq_some_iff.mp (Except.ok.inj made) with ⟨shape', rfl, rfl⟩
        exact Or.inr ⟨items, depth, shape', Nat.lt_succ_self depth, rfl, inside, fun _ _ null => null⟩
    | union members =>
      rcases shapeOfType_union made with ⟨arms, each, single⟩
      have arm : some shape ∈ arms := by
        have listed : shape ∈ arms.filterMap id := by
          rw [single]
          exact List.mem_singleton_self shape
        rcases List.mem_filterMap.mp listed with ⟨entry, member, rfl⟩
        exact member
      rcases mem_zipped' each arm with ⟨member, listed, own⟩
      rcases ih own with ⟨target, definition, same, found, structured, carries⟩ |
        ⟨items, below, inner, less, same, found, carries⟩
      · exact Or.inl ⟨target, definition, same, found, structured,
            fun value position null => .arm listed (carries value position null)⟩
      · exact Or.inr ⟨items, below, inner, Nat.lt_succ_of_lt less, same, found,
          fun value position null => .arm listed (carries value position null)⟩
    | string | integer | boolean | literal | any | openMap | stringEnum => cases made

theorem mem_optional {key : String} :
    key ∈ (fields.filter fun field => !field.required).map (fun field => spelled field.name) ↔
      ∃ field ∈ fields, field.required = false ∧ key = spelled field.name := by
  rw [List.mem_map]
  constructor
  · rintro ⟨field, member, rfl⟩
    rcases List.mem_filter.mp member with ⟨listed, optional⟩
    exact ⟨field, listed, (Bool.not_eq_true' _).mp optional, rfl⟩
  · rintro ⟨field, listed, optional, rfl⟩
    exact ⟨field, List.mem_filter.mpr ⟨listed, (Bool.not_eq_true' _).mpr optional⟩, rfl⟩

/-- The table finds what the model describes. -/
theorem nullAt_of_optionalNull (declared : model.Declared) (spellable : model.Spellable)
    (table : Tabulates model bound shapes) {type : TypeExpr} {value : Json} {position : Position}
    (null : OptionalNull model.defs type value position)
    (made : shapeOfType model.defs depth type = .ok shape) :
    ∃ found, shape = some found ∧ NullAt shapes found value position := by
  induction null generalizing depth shape with
  | @aliased name definition value position defined _ ih =>
    cases depth with
    | zero => cases made
    | succ depth =>
      rw [shapeOfType, defined] at made
      exact ih made
  | @null name definition members field defined listed optional isNull =>
    cases depth with
    | zero => cases made
    | succ depth =>
      rw [shapeOfType, defined] at made
      cases made
      rcases table.finds defined with ⟨member, other, shaped, found⟩
      rcases shapeOfDefinition_object shaped with ⟨entries, each, rfl⟩
      exact ⟨_, rfl, .named (found _ rfl) (.null (mem_optional.mpr ⟨field, listed, optional, rfl⟩) isNull)⟩
  | @field name definition members field value position defined listed present _ ih =>
    cases depth with
    | zero => cases made
    | succ depth =>
      rw [shapeOfType, defined] at made
      cases made
      rcases table.finds defined with ⟨member, other, shaped, found⟩
      rcases shapeOfDefinition_object shaped with ⟨entries, each, rfl⟩
      rcases mem_zipped each listed with ⟨entry, _, inner⟩
      rcases shapeOfField_eq_ok.mp inner with ⟨child, typed, _⟩
      rcases ih typed with ⟨walked, rfl, inside⟩
      have described := lookup_of_field each (declared.fields _ member) listed
        (spellable.fields _ member field listed) typed
      exact ⟨_, rfl, .named (found _ rfl) (.field described present inside)⟩
  | @variant name definition discriminator target tag members position defined discriminated listed pinned tagged _
      ih =>
      cases depth with
      | zero => cases made
      | succ depth =>
        rw [shapeOfType, defined] at made
        cases made
        rcases table.finds defined with ⟨member, other, shaped, found⟩
        rcases shapeOfDefinition_union shaped with ⟨disc, variants, same, each, rfl⟩
        rw [discriminated] at same
        cases same
        have isObject : shapeOfType model.defs 1 (.ref target) = .ok (some (.named (spelled target))) := by
          rcases pinned with ⟨object, _, targeted, _⟩
          rw [shapeOfType, targeted]
        rcases ih isObject with ⟨walked, same, inside⟩
        cases same
        have recognised := lookup_of_pins declared spellable member discriminated each listed pinned
        exact ⟨_, rfl, .named (found _ rfl) (.variant tagged recognised inside)⟩
  | @item type items place item position placed _ ih =>
    cases depth with
    | zero => cases made
    | succ depth =>
      rw [shapeOfType] at made
      cases inner : shapeOfType model.defs depth type with
      | error failure =>
        rw [inner] at made
        cases made
      | ok child =>
        rw [inner] at made
        cases made
        rcases ih inner with ⟨walked, rfl, inside⟩
        exact ⟨_, rfl, .item placed inside⟩
  | @arm types type value position member _ ih =>
    cases depth with
    | zero => cases made
    | succ depth =>
      rcases shapeOfType_union made with ⟨arms, each, single⟩
      rcases mem_zipped each member with ⟨arm, listed, typed⟩
      rcases ih typed with ⟨walked, rfl, inside⟩
      have among : walked ∈ arms.filterMap id := List.mem_filterMap.mpr ⟨_, listed, rfl⟩
      rw [single] at among
      exact ⟨walked, Option.mem_toList.mp among, inside⟩

theorem shapeOfDefinition_structured {defs : Definitions} {shape : Shape}
    (made : shapeOfDefinition defs bound definition = .ok (some shape)) : ∀ name, shape ≠ .named name := by
  intro name same
  cases definition with
  | object definition =>
    rcases shapeOfDefinition_object made with ⟨_, _, own⟩
    rw [same] at own
    cases own
  | union definition =>
    rcases shapeOfDefinition_union made with ⟨_, _, _, _, own⟩
    rw [same] at own
    cases own
  | enum | «alias» => cases made

/-- The model describes what the table finds: below a type with a shape, and below the definition of a shape. -/
theorem optionalNull_of_nullAt (declared : model.Declared) (table : Tabulates model bound shapes) {shape : Shape}
    {value : Json} {position : Position} (null : NullAt shapes shape value position) :
    (∀ depth type, shapeOfType model.defs depth type = .ok (some shape) ->
      OptionalNull model.defs type value position) ∧
    ∀ name definition, model.defs.get? name = some definition ->
      shapeOfDefinition model.defs bound definition = .ok (some shape) ->
        OptionalNull model.defs (.ref name) value position := by
  induction null with
  | @named name shape value position found _ ih =>
    constructor
    · intro depth type made
      rcases shapeOfType_eq_some made with ⟨target, _, same, _, _, carries⟩ | ⟨_, _, _, _, same, _⟩
      · rcases table.only name shape found with ⟨definition, listed, own, shaped⟩
        cases same
        rw [spelled_injective own] at carries
        exact carries value position (ih.2 _ definition (get?_of_definition declared listed) shaped)
      · cases same
    · intro target definition _ made
      exact absurd rfl (shapeOfDefinition_structured made name)
  | @item shape items place item position placed _ ih =>
    constructor
    · intro depth type made
      rcases shapeOfType_eq_some made with ⟨_, _, same, _⟩ | ⟨target, below, inner, _, same, shaped, carries⟩
      · cases same
      · cases same
        exact carries _ _ (.item placed (ih.1 below target shaped))
    · intro target definition _ made
      cases definition with
      | object definition =>
        rcases shapeOfDefinition_object made with ⟨_, _, impossible⟩
        cases impossible
      | union definition =>
        rcases shapeOfDefinition_union made with ⟨_, _, _, _, impossible⟩
        cases impossible
      | enum | «alias» => cases made
  | @variant discriminator tag name variants members position tagged recognised _ ih =>
    constructor
    · intro depth type made
      rcases shapeOfType_eq_some made with ⟨_, _, same, _⟩ | ⟨_, _, _, _, same, _⟩
      · cases same
      · cases same
    · intro target definition defined made
      cases definition with
      | object definition =>
        rcases shapeOfDefinition_object made with ⟨_, _, impossible⟩
        cases impossible
      | union definition =>
        rcases shapeOfDefinition_union made with ⟨disc, entries, discriminated, each, same⟩
        cases same
        rcases mem_zipped' each (mem_of_lookup_literalEntries recognised) with ⟨member, listed, own⟩
        rcases variantOf_eq_ok own with ⟨literal, pins, pair⟩
        cases pair
        have isObject : shapeOfType model.defs 1 (.ref member) = .ok (some (.named (spelled member))) := by
          rcases pins with ⟨object, _, targeted, _⟩
          rw [shapeOfType, targeted]
        exact .variant defined discriminated listed pins tagged (ih.1 1 _ isObject)
      | enum | «alias» => cases made
  | @null optional fields members key listed isNull =>
    constructor
    · intro depth type made
      rcases shapeOfType_eq_some made with ⟨_, _, same, _⟩ | ⟨_, _, _, _, same, _⟩
      · cases same
      · cases same
    · intro target definition defined made
      cases definition with
      | object definition =>
        rcases shapeOfDefinition_object made with ⟨entries, each, same⟩
        cases same
        rcases mem_optional.mp listed with ⟨field, member, notRequired, rfl⟩
        exact .null defined member notRequired isNull
      | union definition =>
        rcases shapeOfDefinition_union made with ⟨_, _, _, _, impossible⟩
        cases impossible
      | enum | «alias» => cases made
  | @field optional fields members key child value position described present _ ih =>
    constructor
    · intro depth type made
      rcases shapeOfType_eq_some made with ⟨_, _, same, _⟩ | ⟨_, _, _, _, same, _⟩
      · cases same
      · cases same
    · intro target definition defined made
      cases definition with
      | object definition =>
        rcases shapeOfDefinition_object made with ⟨entries, each, same⟩
        cases same
        rcases field_of_lookup each (mem_of_lookup_literalEntries described) with ⟨field, member, rfl, typed⟩
        exact .field defined member present (ih.1 bound _ typed)
      | union definition =>
        rcases shapeOfDefinition_union made with ⟨_, _, _, _, impossible⟩
        cases impossible
      | enum | «alias» => cases made

/-! ## The table is closed -/

theorem resolves_of_structured (table : Tabulates model bound shapes) {name : Text}
    (defined : model.defs.get? name = some definition) (structured : definition.Structured) :
    Resolves shapes (.named (spelled name)) := by
  rcases table.finds defined with ⟨_, shape, shaped, found⟩
  rcases structured with ⟨object, rfl⟩ | ⟨union, rfl⟩
  · rcases shapeOfDefinition_object shaped with ⟨entries, _, rfl⟩
    exact .object (found _ rfl)
  · rcases shapeOfDefinition_union shaped with ⟨discriminator, variants, _, _, rfl⟩
    exact .variants (found _ rfl)

theorem resolves_of_type (table : Tabulates model bound shapes) (depth : Nat) {shape : Shape} {type : TypeExpr}
    (made : shapeOfType model.defs depth type = .ok (some shape)) : Resolves shapes shape := by
  induction depth using Nat.strong_induction_on generalizing shape type with
  | _ depth ih =>
    rcases shapeOfType_eq_some made with
      ⟨name, definition, rfl, defined, structured, _⟩ | ⟨items, below, inner, less, rfl, inside, _⟩
    · exact resolves_of_structured table defined structured
    · exact .array (ih below less inside)

theorem closed_of_tabulates (table : Tabulates model bound shapes) : Closed shapes := by
  constructor
  · intro name optional fields found
    rcases table.only name _ found with ⟨definition, _, rfl, shaped⟩
    cases definition with
    | object definition =>
      rcases shapeOfDefinition_object shaped with ⟨entries, _, same⟩
      cases same
      exact nodup_literalEntries _
    | union definition =>
      rcases shapeOfDefinition_union shaped with ⟨_, _, _, _, impossible⟩
      cases impossible
    | enum | «alias» => cases shaped
  · intro name optional fields found key child member
    rcases table.only name _ found with ⟨definition, _, rfl, shaped⟩
    cases definition with
    | object definition =>
      rcases shapeOfDefinition_object shaped with ⟨entries, each, same⟩
      cases same
      have looked := OrderedMap.lookup_eq_some_of_mem (nodup_literalEntries _) member
      rcases field_of_lookup each (mem_of_lookup_literalEntries looked) with ⟨field, _, _, typed⟩
      exact resolves_of_type table bound typed
    | union definition =>
      rcases shapeOfDefinition_union shaped with ⟨_, _, _, _, impossible⟩
      cases impossible
    | enum | «alias» => cases shaped
  · intro name discriminator variants found tag member recognised
    rcases table.only name _ found with ⟨definition, _, rfl, shaped⟩
    cases definition with
    | object definition =>
      rcases shapeOfDefinition_object shaped with ⟨_, _, impossible⟩
      cases impossible
    | union definition =>
      rcases shapeOfDefinition_union shaped with ⟨disc, entries, discriminated, each, same⟩
      cases same
      rcases mem_zipped' each (mem_of_lookup_literalEntries recognised) with ⟨target, _, own⟩
      rcases variantOf_eq_ok own with ⟨literal, ⟨object, _, targeted, _⟩, pair⟩
      cases pair
      rcases table.finds targeted with ⟨_, shape, made, kept⟩
      rcases shapeOfDefinition_object made with ⟨fields, _, rfl⟩
      exact ⟨_, _, kept _ rfl⟩
    | enum | «alias» => cases shaped

/-! ## Exactness -/

theorem nullAt_iff_optionalNull (declared : model.Declared) (spellable : model.Spellable)
    (table : Tabulates model bound shapes) {name : Text}
    (defined : model.defs.get? name = some definition) (structured : definition.Structured) (value : Json)
    (position : Position) :
    NullAt shapes (.named (spelled name)) value position ↔ OptionalNull model.defs (.ref name) value position := by
  have made : shapeOfType model.defs 1 (.ref name) = .ok (some (.named (spelled name))) := by
    rw [shapeOfType, defined]
    rcases structured with ⟨object, rfl⟩ | ⟨union, rfl⟩
    · rfl
    · rfl
  constructor
  · exact fun null => (optionalNull_of_nullAt declared table null).1 1 _ made
  · intro null
    rcases nullAt_of_optionalNull declared spellable table null made with ⟨found, same, inside⟩
    cases same
    exact inside

end Table

/-- Where the root is defined and every name can be spelled, a walk omits exactly the optional nulls. -/
theorem omitOptionalNulls_exact (model : ProtocolModel) (declared : model.Declared) (spellable : model.Spellable)
    (bound : Nat) (shapes : Shapes) (emitted : emitSerialization bound model = .ok shapes) (root : Root)
    (defines : model.Defines root) (value : Json) (distinct : DistinctKeys value) :
    ∃ returned, OmitsExactly model shapes root value returned := by
  rcases defines with ⟨definition, defined, structured⟩
  have table := tabulates_of_emitted declared emitted
  have resolves := resolves_of_structured table defined structured
  have closed := closed_of_tabulates table
  have same := nullAt_iff_optionalNull declared spellable table defined structured
  rcases walks_of_resolves closed value distinct resolves with ⟨returned, ends, walked⟩
  have tests : nullsAt shapes (.named (spelled root.name)) value = optionalNulls model.defs (.ref root.name) value := by
    funext position
    rw [Bool.eq_iff_iff, nullsAt_eq_true_iff, optionalNulls_eq_true_iff]
    exact same value position
  refine ⟨returned, ends, ?_, ?_, ?_⟩
  · rw [← tests]
    exact walked.removes
  · exact walked.keeps.trans (forall_congr' fun position => not_congr (same value position))
  · have left : DistinctKeys (returned.value value) := by
      rw [walked.removes]
      exact distinctKeys_without value distinct _
    rcases walks_of_resolves closed _ left resolves with ⟨again, endsAgain, walkedAgain⟩
    have none := walkedAgain.keeps.mpr walked.again
    rw [none] at endsAgain
    exact endsAgain

def thread : ObjectDefinition :=
  { name := "RunAgentInput", description := "", fields := [⟨"parentRunId", "", false, .string⟩] }

def threadModel : ProtocolModel :=
  { schemaId := "", definitions := [.object thread], mixinShapes := [] }

def threadValue : Json :=
  .object [("parentRunId", .null), ("threadId", .null)]

/-- An input whose optional field is null. -/
theorem omitOptionalNulls_exact_thread :
    ∃ shapes returned,
      emitSerialization 2 threadModel = .ok shapes ∧
        OmitsExactly threadModel shapes .runAgentInput threadValue returned := by
  have only : ∀ definition, Definition.object definition ∈ threadModel.definitions -> definition = thread := by
    intro definition listed
    cases List.mem_singleton.mp listed
    rfl
  have noUnion : ∀ definition, Definition.union definition ∉ threadModel.definitions := by
    intro definition listed
    cases List.mem_singleton.mp listed
  have declared : threadModel.Declared := by
    refine ⟨List.nodup_singleton _, fun definition listed => ?_, fun definition _ listed => absurd listed (noUnion _)⟩
    rw [only definition listed]
    exact List.nodup_singleton _
  have spellable : threadModel.Spellable := by
    refine ⟨fun definition listed field member => ?_, fun definition _ listed => absurd listed (noUnion _)⟩
    rw [only definition listed] at member
    rw [List.mem_singleton.mp member]
    decide
  have distinct : DistinctKeys threadValue := by
    apply Enforce.distinctKeys_object (by decide)
    intro member listed position members place
    rcases List.mem_cons.mp listed with rfl | later
    · cases position with
      | nil => cases place
      | cons step rest => cases step <;> cases place
    · rw [List.mem_singleton.mp later] at place
      cases position with
      | nil => cases place
      | cons step rest => cases step <;> cases place
  rcases omitOptionalNulls_exact threadModel declared spellable 2 _ rfl .runAgentInput
    ⟨.object thread, rfl, Or.inl ⟨thread, rfl⟩⟩ threadValue distinct with ⟨returned, exact_⟩
  exact ⟨_, returned, rfl, exact_⟩

/-- A model without definitions. -/
def emptyModel : ProtocolModel :=
  { schemaId := "", definitions := [], mixinShapes := [] }

def listed : ObjectDefinition :=
  { name := "Listed", description := "", fields := [⟨"note", "", false, .string⟩] }

/-- An object whose field cannot be spelled, with described objects below it. -/
def protoInput : ObjectDefinition :=
  { name := "RunAgentInput", description := "", fields := [⟨protoKey, "", true, .array (.ref listed.name)⟩] }

def protoModel : ProtocolModel :=
  { schemaId := "", definitions := [.object listed, .object protoInput], mixinShapes := [] }

def protoValue : Json :=
  .object [("__proto__", .array [.object [("note", .null)]])]

def protoShapes : Shapes :=
  OrderedMap.ofList [(spelled listed.name, .object ["note"] []), (spelled protoInput.name, .object [] [])]

/-- A root that is not defined makes the walk fail, and below a key `__proto__` nothing is omitted. -/
theorem omitOptionalNulls_not_exact :
    emitSerialization 3 emptyModel = .ok .empty ∧
    (∀ returned, ¬ OmitsExactly emptyModel .empty .event .null returned) ∧
    emitSerialization 3 protoModel = .ok protoShapes ∧
    ∀ returned, ¬ OmitsExactly protoModel protoShapes .runAgentInput protoValue returned := by
  refine ⟨rfl, fun returned exact_ => ?_, rfl, fun returned exact_ => ?_⟩
  · rcases exact_.ends with ⟨bound, ends⟩
    have fails := ends (bound + 1) (Nat.le_succ bound)
    cases fails
  · rcases exact_.ends with ⟨bound, ends⟩
    have answered : Except.ok .argument = Except.ok returned := ends (bound + 2) (Nat.le_add_right bound 2)
    cases answered
    refine exact_.keeps.mp rfl [.key "__proto__", .index 0, .key "note"] ?_
    have below : protoModel.defs.get? listed.name = some (.object listed) := rfl
    have above : protoModel.defs.get? protoInput.name = some (.object protoInput) := rfl
    have note : OptionalNull protoModel.defs (.ref listed.name) (.object [("note", .null)]) [.key "note"] :=
      .null below List.mem_cons_self rfl rfl
    exact .field above List.mem_cons_self rfl (.item rfl note)

end Generator
end AgUi
