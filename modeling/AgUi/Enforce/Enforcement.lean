import AgUi.Library.Stage
import AgUi.Enforce.Schemas

namespace AgUi
namespace Enforce

open Library Protocol

/-!
# The enforcement stage

Events are the objects they are on the wire.  An event of an unknown type is
dropped; any other is stripped of what its schema does not describe, and must
then satisfy that schema.

A field is *plain* if its schema is a leaf, optional or not.  Enforcement does
not touch the value of a plain field (`enforceEvent_plain`), and events whose
fields are all plain are accepted as soon as each of their fields is
(`enforceEvent_accepts`).
-/

/-- `event.type`, if it is a value of the `EventType` enumeration. -/
def recognisedType (event : Properties) : Option EventType :=
  match event.get? "type" with
  | some (.string name) => knownEventTypes.find? fun type => type.name == name
  | _ => none

/-- `EVENT_SCHEMA_BY_TYPE`. -/
def eventSchemaByType : List (Option String × Schema) :=
  match eventSchema with
  | .discriminatedUnion _ options => options.map fun option => (option.tag? "type", option)
  | _ => []

/-- What a deviation is reported as. -/
inductive Deviation where
  | unrecognisedEvent (type : Option Json)
  | removed (path : String) (type : EventType)

/-- Why an event is not let through. -/
inductive EnforceError where
  /-- The schema of the event rejects it. -/
  | malformed (type : EventType)
  | noValidator (type : EventType)
  /-- The stripper found the whole event unrecognisable. -/
  | mismatch (type : EventType)

/-- What is passed on for an event, and what is reported. -/
def enforceEvent (event : Properties) : Except EnforceError (Option Properties × List Deviation) :=
  match recognisedType event with
  | none => .ok (none, [.unrecognisedEvent (event.get? "type")])
  | some type =>
    match eventSchemaByType.lookup (some type.name) with
    | none => .error (.noValidator type)
    | some schema =>
      match stripUnknown (.object event.entries) schema with
      | none => .error (.mismatch type)
      | some (value, stripped) =>
        match schema.parse (some value) with
        | some (some (.object members)) =>
          .ok (some (OrderedMap.ofList members), stripped.map fun path => .removed path type)
        | _ => .error (.malformed type)

/-- The stage; its state is what was reported so far. -/
def enforceEvents (suppressed : Bool) : Stage (List Deviation) Properties Properties EnforceError :=
  fun reported event =>
    match enforceEvent event with
    | .error error => .error error
    | .ok (enforced, deviations) =>
      .ok (if suppressed then reported else reported ++ deviations, enforced.toList)

/-- Every field the protocol describes holds a value of its type, once what
the protocol does not describe is gone. -/
def WellFormed (event : Properties) : Prop :=
  (enforceEvent event).isOk = true

instance (event : Properties) : Decidable (WellFormed event) :=
  inferInstanceAs (Decidable (_ = true))

/-! ## The schema of a type -/

theorem recognisedType_mem {event : Properties} {type : EventType} (recognised : recognisedType event = some type) :
    type ∈ knownEventTypes ∧ event.get? "type" = some (.string type.name) := by
  unfold recognisedType at recognised
  split at recognised
  · rename_i name spelled
    have named := List.find?_some recognised
    rw [spelled, beq_iff_eq.mp named]
    exact ⟨List.mem_of_find?_eq_some recognised, rfl⟩
  · cases recognised

theorem recognisedType_congr {event other : Properties} (same : event.get? "type" = other.get? "type") :
    recognisedType event = recognisedType other := by
  rw [recognisedType, recognisedType, same]

theorem find_name {type : EventType} (known : type ∈ knownEventTypes) :
    (knownEventTypes.find? fun other => other.name == type.name) = some type := by
  revert known
  revert type
  decide

theorem lookup_map_name {V : Type} (types : List EventType) (value : EventType -> V) (name : String) :
    (types.map fun type => (some type.name, value type)).lookup (some name) =
      (types.find? fun type => type.name == name).map value := by
  induction types with
  | nil => rfl
  | cons type rest ih =>
    rw [List.map_cons, List.lookup_cons, List.find?_cons, ih]
    by_cases same : type.name = name
    · simp [same]
    · have apart : (type.name == name) = false := beq_eq_false_iff_ne.mpr same
      have other : (some name == some type.name) = false := by simpa using Ne.symm same
      rw [apart, other]

/-- No known type lacks a validator. -/
theorem eventSchemaByType_lookup {type : EventType} (known : type ∈ knownEventTypes) :
    eventSchemaByType.lookup (some type.name) = some (looseObject (eventShape type)) := by
  have table : eventSchemaByType =
      knownEventTypes.map fun type => (some type.name, looseObject (eventShape type)) := rfl
  rw [table, lookup_map_name, find_name known]
  rfl

/-! ## Plain fields -/

/-- A leaf, optional or not. -/
def Schema.isPlain : Schema -> Bool
  | .leaf _ => true
  | .optional inner => inner.isPlain
  | _ => false

theorem unwrap_of_plain {schema : Schema} (plain : schema.isPlain = true) :
    ∃ only, schema.unwrap = .leaf only := by
  induction schema using Schema.isPlain.induct with
  | case1 kind => cases kind <;> exact ⟨_, rfl⟩
  | case2 inner ih => exact ih plain
  | case3 schema notLeaf notOptional => cases schema <;> 
      first
      | exact (notLeaf _ rfl).elim
      | exact (notOptional _ rfl).elim
      | cases plain

/-- Nothing is stripped inside a plain field. -/
theorem stripAgainst_of_plain (path : String) (value : Json) {schema : Schema} (plain : schema.isPlain = true) :
    stripAgainst path value schema = some (value, []) := by
  rcases unwrap_of_plain plain with ⟨only, leaf⟩
  have taken : Schematic.unwrap schema = .leaf only := leaf
  cases value <;> simp [stripAgainst, taken, descendObject, descendArray]

/-- A plain field is parsed to the value it has. -/
theorem parse_of_plain {schema : Schema} (plain : schema.isPlain = true) {value parsed : Option Json}
    (accepted : schema.parse value = some parsed) : parsed = value := by
  induction schema using Schema.isPlain.induct with
  | case1 kind =>
    rw [Schema.parse] at accepted
    split at accepted
    · exact (Option.some.inj accepted).symm
    · cases accepted
  | case2 inner ih =>
    cases value with
    | none =>
      rw [Schema.parse] at accepted
      exact (Option.some.inj accepted).symm
    | some value =>
      rw [Schema.parse] at accepted
      · exact ih plain accepted
      · rintro ⟨⟩
  | case3 schema notLeaf notOptional => cases schema <;> 
      first
      | exact (notLeaf _ rfl).elim
      | exact (notOptional _ rfl).elim
      | cases plain

/-! ## What enforcement keeps -/

theorem lookup_assign (key : String) (value : Json) (rest : List (String × Json)) (other : String) :
    (assign key value rest).lookup other =
      if other = key ∧ key ≠ "__proto__" then some value else rest.lookup other := by
  unfold assign
  split
  · rename_i special
    simp [special]
  · rename_i ordinary
    rw [OrderedMap.lookup_cons_ite]
    simp [ordinary]

variable {shape : List (String × Schema)}

/-- What one property of a closed object adds to what is kept of the others. -/
theorem stripFields_cons {path : String} {name : String} {value : Json}
    {rest kept : List (String × Json)} {removed : List String}
    (done : stripFields path shape false ((name, value) :: rest) = some (kept, removed)) :
    ∃ later reports, stripFields path shape false rest = some (later, reports) ∧
      ((shape.lookup name = none ∧ kept = later) ∨
        (∃ field, shape.lookup name = some field ∧
          ((∃ child inside,
              stripAgainst (path ++ "/" ++ name) value field = some (child, inside) ∧ kept = assign name child later) ∨
            (stripAgainst (path ++ "/" ++ name) value field = none ∧ kept = later)))) := by
  rw [stripFields] at done
  cases stripped : stripFields path shape false rest with
  | none =>
    rw [stripped] at done
    cases done
  | some pair =>
    rcases pair with ⟨later, reports⟩
    refine ⟨later, reports, rfl, ?_⟩
    simp only [stripped] at done
    cases described : shape.lookup name with
    | none =>
      simp only [described, Bool.false_eq_true, if_false, Option.some.injEq, Prod.mk.injEq] at done
      exact Or.inl ⟨rfl, done.1.symm⟩
    | some field =>
      refine Or.inr ⟨field, rfl, ?_⟩
      simp only [described] at done
      split at done
      · rename_i child inside descended
        simp only [Option.some.injEq, Prod.mk.injEq] at done
        exact Or.inl ⟨child, inside, descended, done.1.symm⟩
      · rename_i descended
        split at done
        · simp only [Option.some.injEq, Prod.mk.injEq] at done
          exact Or.inr ⟨descended, done.1.symm⟩
        · cases done

/-- Of a closed object, stripping keeps the plain fields and nothing undescribed. -/
theorem lookup_stripFields {path : String} {members kept : List (String × Json)}
    {removed : List String} (done : stripFields path shape false members = some (kept, removed)) {key : String}
    (ordinary : shape.lookup "__proto__" = none)
    (plain : ∀ field, shape.lookup key = some field -> field.isPlain = true) :
    kept.lookup key = if (shape.lookup key).isSome then members.lookup key else none := by
  induction members generalizing kept removed with
  | nil =>
    cases done
    cases (shape.lookup key).isSome <;> rfl
  | cons member rest ih =>
    rcases member with ⟨name, value⟩
    rcases stripFields_cons done with ⟨later, reports, stripped, ⟨absent, rfl⟩ | ⟨field, described, descended⟩⟩
    · rw [ih stripped, OrderedMap.lookup_cons_ite]
      by_cases same : key = name
      · rw [same, absent]
        rfl
      · rw [if_neg same]
    · have special : name ≠ "__proto__" := by
        rintro rfl
        rw [ordinary] at described
        cases described
      rw [OrderedMap.lookup_cons_ite]
      by_cases same : key = name
      · subst same
        rw [stripAgainst_of_plain _ _ (plain field described)] at descended
        rcases descended with ⟨child, inside, same, rfl⟩ | ⟨impossible, _⟩
        · cases same
          rw [lookup_assign, if_pos ⟨rfl, special⟩, described, if_pos rfl, Option.isSome_some, if_pos rfl]
        · cases impossible
      · rw [if_neg same, ← ih stripped]
        rcases descended with ⟨child, _, _, rfl⟩ | ⟨_, rfl⟩
        · rw [lookup_assign, if_neg fun both => same both.1]
        · rfl

theorem described_of_mem_stripFields {path : String}
    {members kept : List (String × Json)} {removed : List String}
    (done : stripFields path shape false members = some (kept, removed)) {entry : String × Json}
    (member : entry ∈ kept) : (shape.lookup entry.1).isNone = false := by
  induction members generalizing kept removed with
  | nil =>
    cases done
    cases member
  | cons head rest ih =>
    rcases head with ⟨name, value⟩
    rcases stripFields_cons done with ⟨later, reports, stripped, ⟨_, rfl⟩ | ⟨field, described, descended⟩⟩
    · exact ih stripped member
    · rcases descended with ⟨child, _, _, rfl⟩ | ⟨_, rfl⟩
      · unfold assign at member
        split at member
        · exact ih stripped member
        · rcases List.mem_cons.mp member with rfl | earlier
          · rw [described]
            rfl
          · exact ih stripped earlier
      · exact ih stripped member

/-- Parsing keeps the plain fields as they are. -/
theorem lookup_parseFields {members described : List (String × Json)}
    (done : Schema.parseFields shape members = some described) {key : String}
    (plain : ∀ field, (key, field) ∈ shape -> field.isPlain = true) :
    described.lookup key = if key ∈ shape.map Prod.fst then members.lookup key else none := by
  induction shape generalizing described with
  | nil =>
    cases done
    rfl
  | cons entry rest ih =>
    rcases entry with ⟨name, field⟩
    have plainLater : ∀ field, (key, field) ∈ rest -> field.isPlain = true := fun field member =>
      plain field (List.mem_cons_of_mem _ member)
    rw [Schema.parseFields] at done
    cases parsed : field.parse (members.lookup name) with
    | none =>
      rw [parsed] at done
      cases done
    | some result =>
      rw [parsed] at done
      have value : key = name -> result = members.lookup key := by
        rintro rfl
        exact parse_of_plain (plain field List.mem_cons_self) parsed
      cases result with
      | none =>
        rw [ih done plainLater]
        by_cases same : key = name
        · rw [← value same, ite_self, ite_self]
        · simp only [List.map_cons, List.mem_cons, same, false_or]
      | some result =>
        simp only [Option.map_eq_some_iff] at done
        rcases done with ⟨later, finished, rfl⟩
        rw [OrderedMap.lookup_cons_ite, ih finished plainLater]
        by_cases same : key = name
        · have listed : key ∈ ((name, field) :: rest).map Prod.fst := List.mem_cons.mpr (Or.inl same)
          rw [if_pos same, if_pos listed, value same]
        · simp only [List.map_cons, List.mem_cons, same, false_or, if_false]

theorem keys_parseFields {members described : List (String × Json)}
    (done : Schema.parseFields shape members = some described) :
    (described.map Prod.fst).Sublist (shape.map Prod.fst) := by
  induction shape generalizing described with
  | nil =>
    cases done
    exact List.Sublist.slnil
  | cons entry rest ih =>
    rcases entry with ⟨name, field⟩
    rw [Schema.parseFields] at done
    split at done
    · cases done
    · exact (ih done).cons name
    · rw [Option.map_eq_some_iff] at done
      rcases done with ⟨later, finished, rfl⟩
      exact (ih finished).cons_cons name

/-! ## Enforcement of one event -/

theorem lookup_proto (type : EventType) : (eventShape type).lookup "__proto__" = none := by
  cases type <;> rfl

theorem nodup_eventShape (type : EventType) : ((eventShape type).map Prod.fst).Nodup := by
  cases type with
  | other name => exact List.nodup_nil
  | _ => decide

theorem isSome_lookup (shape : List (String × Schema)) (key : String) :
    (shape.lookup key).isSome = true ↔ key ∈ shape.map Prod.fst := by
  constructor
  · intro found
    rcases Option.isSome_iff_exists.mp found with ⟨field, found⟩
    exact List.mem_map.mpr ⟨(key, field), OrderedMap.mem_of_lookup_eq_some found, rfl⟩
  · intro member
    by_contra absent
    rw [Option.not_isSome_iff_eq_none] at absent
    induction shape with
    | nil => cases member
    | cons entry rest ih =>
      rcases entry with ⟨name, field⟩
      rw [OrderedMap.lookup_cons_ite] at absent
      split at absent
      · cases absent
      · rename_i different
        rcases List.mem_cons.mp member with same | later
        · exact different same
        · exact ih later absent

theorem parse_looseObject {members : List (String × Json)}
    (closed : ∀ member ∈ members, (shape.lookup member.1).isNone = false) :
    (looseObject shape).parse (some (.object members)) =
      (Schema.parseFields shape members).map fun described => some (.object described) := by
  have nothing : (members.filter fun member => (shape.lookup member.1).isNone) = [] :=
    List.filter_eq_nil_iff.mpr fun member inside => by
      rw [closed member inside]
      exact Bool.false_ne_true
  rw [looseObject, Schema.parse, nothing]
  simp only [List.append_nil]

theorem enforceEvent_unrecognised {event : Properties} (unknown : recognisedType event = none) :
    enforceEvent event = .ok (none, [.unrecognisedEvent (event.get? "type")]) := by
  rw [enforceEvent, unknown]

/-- An event of a known type is stripped of its undescribed properties, then parsed. -/
theorem enforceEvent_recognised {event : Properties} {type : EventType} (recognised : recognisedType event = some type)
    {kept : List (String × Json)} {removed : List String}
    (stripped : stripFields "" (eventShape type) false event.entries = some (kept, removed)) :
    enforceEvent event =
      (Schema.parseFields (eventShape type) kept).elim (.error (.malformed type)) fun described =>
        .ok (some (OrderedMap.ofList described), removed.map fun path => .removed path type) := by
  have stripsTo : stripUnknown (.object event.entries) (looseObject (eventShape type)) =
      some (.object kept, removed) := by
    have shape : Schematic.unwrap (looseObject (eventShape type)) = .object (eventShape type) false := rfl
    rw [stripUnknown, stripAgainst, shape]
    simp only [descendObject, stripped, Option.map_some]
  rw [enforceEvent, recognised]
  simp only [eventSchemaByType_lookup (recognisedType_mem recognised).1, stripsTo]
  rw [parse_looseObject fun member inside => described_of_mem_stripFields stripped inside]
  cases Schema.parseFields (eventShape type) kept <;> rfl

variable {event : Properties} {type : EventType} {deviations : List Deviation} {enforced : Option Properties}

theorem enforceEvent_eq_ok (done : enforceEvent event = .ok (enforced, deviations))
    (recognised : recognisedType event = some type) : ∃ kept removed described,
      stripFields "" (eventShape type) false event.entries = some (kept, removed) ∧
      Schema.parseFields (eventShape type) kept = some described ∧ enforced = some (OrderedMap.ofList described) := by
  cases stripped : stripFields "" (eventShape type) false event.entries with
  | none =>
    have shape : Schematic.unwrap (looseObject (eventShape type)) = .object (eventShape type) false := rfl
    rw [enforceEvent, recognised] at done
    simp only [eventSchemaByType_lookup (recognisedType_mem recognised).1, stripUnknown, stripAgainst, shape,
      descendObject, stripped, Option.map_none] at done
    cases done
  | some pair =>
    rcases pair with ⟨kept, removed⟩
    rw [enforceEvent_recognised recognised stripped] at done
    cases parsed : Schema.parseFields (eventShape type) kept with
    | none =>
      rw [parsed] at done
      cases done
    | some described =>
      rw [parsed] at done
      cases done
      exact ⟨kept, removed, described, rfl, parsed, rfl⟩

/-- Enforcement keeps the plain fields of a known event and nothing undescribed. -/
theorem enforceEvent_plain {enforced : Properties} (done : enforceEvent event = .ok (some enforced, deviations))
    (recognised : recognisedType event = some type) {key : String}
    (plain : ∀ field, (key, field) ∈ eventShape type -> field.isPlain = true) :
    enforced.get? key = if key ∈ describedFields type then event.get? key else none := by
  rcases enforceEvent_eq_ok done recognised with ⟨kept, removed, described, stripped, parsed, same⟩
  cases same
  have nodup : (described.map Prod.fst).Nodup := (nodup_eventShape type).sublist (keys_parseFields parsed)
  rw [OrderedMap.get?_ofList nodup, lookup_parseFields parsed plain,
    lookup_stripFields stripped (lookup_proto type) fun field found =>
      plain field (OrderedMap.mem_of_lookup_eq_some found)]
  by_cases member : key ∈ (eventShape type).map Prod.fst
  · rw [if_pos member, if_pos ((isSome_lookup _ key).mpr member)]
    exact (if_pos member).symm
  · rw [if_neg member]
    exact (if_neg member).symm

/-- A known event is passed on. -/
theorem enforceEvent_some (done : enforceEvent event = .ok (enforced, deviations))
    (recognised : recognisedType event = some type) : ∃ passed, enforced = some passed := by
  rcases enforceEvent_eq_ok done recognised with ⟨_, _, described, _, _, same⟩
  exact ⟨_, same⟩

theorem stripFields_of_plain
    (plain : ∀ entry ∈ shape, entry.2.isPlain = true) (path : String) (members : List (String × Json)) :
    ∃ kept removed, stripFields path shape false members = some (kept, removed) := by
  induction members with
  | nil => exact ⟨[], [], by rw [stripFields]⟩
  | cons member rest ih =>
    rcases member with ⟨name, value⟩
    rcases ih with ⟨later, reports, stripped⟩
    rw [stripFields, stripped]
    cases described : shape.lookup name with
    | none => exact ⟨_, _, rfl⟩
    | some field =>
      have leaf := plain (name, field) (OrderedMap.mem_of_lookup_eq_some described)
      simp only [stripAgainst_of_plain _ value leaf]
      exact ⟨_, _, rfl⟩

theorem parseFields_of_accepts {members : List (String × Json)}
    (accepts : ∀ entry ∈ shape, (entry.2.parse (members.lookup entry.1)).isSome = true) :
    ∃ described, Schema.parseFields shape members = some described := by
  induction shape with
  | nil => exact ⟨[], by rw [Schema.parseFields]⟩
  | cons entry rest ih =>
    rcases entry with ⟨name, field⟩
    rcases ih (List.forall_mem_cons.mp accepts).2 with
      ⟨later, finished⟩
    rcases Option.isSome_iff_exists.mp (accepts (name, field) List.mem_cons_self) with ⟨result, parsed⟩
    rw [Schema.parseFields, parsed]
    cases result with
    | none => exact ⟨later, finished⟩
    | some value => exact ⟨(name, value) :: later, by simp only [finished, Option.map_some]⟩

theorem accepts_of_parseFields {members described : List (String × Json)}
    (done : Schema.parseFields shape members = some described) (entry : String × Schema) (member : entry ∈ shape) :
    (entry.2.parse (members.lookup entry.1)).isSome = true := by
  induction shape generalizing described with
  | nil => cases member
  | cons head rest ih =>
    rcases head with ⟨name, field⟩
    rw [Schema.parseFields] at done
    cases parsed : field.parse (members.lookup name) with
    | none =>
      rw [parsed] at done
      cases done
    | some result =>
      rcases List.mem_cons.mp member with rfl | later
      · rw [parsed]
        rfl
      · rw [parsed] at done
        cases result with
        | none => exact ih done later
        | some value =>
          rcases Option.map_eq_some_iff.mp done with ⟨_, finished, _⟩
          exact ih finished later

/-- An accepted event has values of their type in its plain fields. -/
theorem enforceEvent_field (done : enforceEvent event = .ok (enforced, deviations))
    (recognised : recognisedType event = some type) {key : String} {field : Schema}
    (member : (key, field) ∈ eventShape type)
    (plain : ∀ field, (key, field) ∈ eventShape type -> field.isPlain = true) :
    (field.parse (event.get? key)).isSome = true := by
  rcases enforceEvent_eq_ok done recognised with ⟨kept, removed, described, stripped, parsed, _⟩
  have accepted := accepts_of_parseFields parsed (key, field) member
  have found : ((eventShape type).lookup key).isSome = true :=
    (isSome_lookup _ _).mpr (List.mem_map.mpr ⟨(key, field), member, rfl⟩)
  rw [lookup_stripFields stripped (lookup_proto type) fun field found =>
    plain field (OrderedMap.mem_of_lookup_eq_some found), if_pos found] at accepted
  exact accepted

/-- An event whose fields are all plain is accepted as soon as each of its fields is. -/
theorem enforceEvent_accepts (recognised : recognisedType event = some type)
    (plain : ∀ entry ∈ eventShape type, entry.2.isPlain = true)
    (accepts : ∀ entry ∈ eventShape type, (entry.2.parse (event.get? entry.1)).isSome = true) :
    ∃ enforced deviations, enforceEvent event = .ok (some enforced, deviations) := by
  rcases stripFields_of_plain plain "" event.entries with ⟨kept, removed, stripped⟩
  have kept_fields : ∀ entry ∈ eventShape type,
      (entry.2.parse (kept.lookup entry.1)).isSome = true := by
    intro entry member
    have found : ((eventShape type).lookup entry.1).isSome = true :=
      (isSome_lookup _ _).mpr (List.mem_map.mpr ⟨entry, member, rfl⟩)
    have known : kept.lookup entry.1 = _ := lookup_stripFields stripped (lookup_proto type) fun field described =>
      plain (entry.1, field) (OrderedMap.mem_of_lookup_eq_some described)
    rw [known, if_pos found]
    exact accepts entry member
  rcases parseFields_of_accepts kept_fields with ⟨described, parsed⟩
  rw [enforceEvent_recognised recognised stripped, parsed]
  exact ⟨_, _, rfl⟩

end Enforce
end AgUi
