import AgUi.Enforce.Enforcement
import AgUi.Enforce.Stability
import AgUi.Library.Attempts

namespace AgUi
namespace Enforce

open Library Protocol Schematic

/-!
# Stripping what was accepted

The validator tries the options of a structural union one by one, and the
stripper takes the option whose basic kind is the value's.  Where the two agree
in every such union, a value that is accepted is stripped of undescribed keys
only, and what is left is accepted.
-/

/-- The tolerant validation accepts the value, or its absence. -/
def Accepts (schema : Schema) (value : Option Json) : Prop :=
  (schema.parse value).isSome = true

/-! ## The schemas -/

def objectOptions (options : List Schema) : List Schema :=
  options.filter fun option => (unwrap option).isObject

def isArrayDescription : Description Schema -> Bool
  | .array _ => true
  | _ => false

def arrayOption? (options : List Schema) : Option Schema :=
  options.find? fun option => isArrayDescription (unwrap option)

/-- An object the union accepts is accepted by its object option, if there is just one. -/
def ObjectsByKind (options : List Schema) : Prop :=
  ∀ option members, objectOptions options = [option] ->
    Accepts (.union options) (some (.object members)) -> Accepts option (some (.object members))

/-- An array the union accepts is accepted by its array option, if there is one. -/
def ArraysByKind (options : List Schema) : Prop :=
  ∀ option items, arrayOption? options = some option ->
    Accepts (.union options) (some (.array items)) -> Accepts option (some (.array items))

/-- An object with a literal tag. -/
def TaggedObject (discriminator : String) (option : Schema) (tag : String) : Prop :=
  ∃ shape specOpen, option = .object shape specOpen ∧
    shape.lookup discriminator = some (.leaf (.literal tag))

/-- The descriptions the stripper agrees with: unions tell their alternatives apart by tag or by kind. -/
inductive WellMade : Schema -> Prop where
  | leaf (kind : Leaf) : WellMade (.leaf kind)
  | object {shape : List (String × Schema)} (specOpen : Bool) (names : (shape.map Prod.fst).Nodup)
      (fields : ∀ field ∈ shape, WellMade field.2) : WellMade (.object shape specOpen)
  | array {element : Schema} (atLeast : Nat) (items : WellMade element) : WellMade (.array element atLeast)
  | record {valueType : Schema} (entries : WellMade valueType) : WellMade (.record valueType)
  | discriminatedUnion {discriminator : String} {options : List Schema} (tags : List String) (distinct : tags.Nodup)
      (tagged : List.Forall₂ (TaggedObject discriminator) options tags)
      (each : ∀ option ∈ options, WellMade option) :
      WellMade (.discriminatedUnion discriminator options)
  | union {options : List Schema} (each : ∀ option ∈ options, WellMade option)
      (objects : ObjectsByKind options) (arrays : ArraysByKind options) : WellMade (.union options)
  | optional {inner : Schema} (made : WellMade inner) : WellMade (.optional inner)
  | nullable {inner : Schema} (made : WellMade inner) : WellMade (.nullable inner)

/-! ## What is accepted -/

variable {shape : List (String × Schema)} {specOpen : Bool}

theorem accepts_object_iff {members : List (String × Json)} :
    Accepts (.object shape specOpen) (some (.object members)) ↔
      ∀ field ∈ shape, Accepts field.2 (members.lookup field.1) := by
  unfold Accepts
  rw [Schema.parse, Option.isSome_map]
  constructor
  · intro accepted
    rcases Option.isSome_iff_exists.mp accepted with ⟨described, done⟩
    exact accepts_of_parseFields done
  · intro each
    rcases parseFields_of_accepts each with ⟨described, done⟩
    rw [done]
    rfl

theorem accepts_union_iff {options : List Schema} {value : Option Json} :
    Accepts (.union options) value ↔ ∃ option ∈ options, Accepts option value := by
  unfold Accepts
  rw [Schema.parse]
  induction options with
  | nil =>
    rw [Schema.parseFirst]
    simp
  | cons option rest ih =>
    rw [Schema.parseFirst]
    cases parsed : option.parse value with
    | some result => simp [parsed]
    | none =>
      dsimp only
      rw [ih]
      simp [parsed]

theorem parse_optional_some (inner : Schema) (value : Json) :
    (Schema.optional inner).parse (some value) = inner.parse (some value) := by
  rw [Schema.parse]
  intro impossible
  cases impossible

theorem parse_nullable_some (inner : Schema) {value : Json} (given : value ≠ .null) :
    (Schema.nullable inner).parse (some value) = inner.parse (some value) := by
  rw [Schema.parse]
  intro same
  exact given (Option.some.inj same)

variable {schema : Schema}

/-- A value that is accepted stays a value. -/
theorem WellMade.parse_some (made : WellMade schema) {value : Json} {result : Option Json}
    (parsed : schema.parse (some value) = some result) : result.isSome = true := by
  induction made generalizing result with
  | leaf kind =>
    rw [Schema.parse] at parsed
    split at parsed
    · cases parsed
      rfl
    · cases parsed
  | object specOpen names fields _ =>
    cases value with
    | object members =>
      rw [Schema.parse] at parsed
      rcases Option.map_eq_some_iff.mp parsed with ⟨_, _, rfl⟩
      rfl
    | _ => cases parsed
  | array atLeast items _ =>
    cases value with
    | array items =>
      rw [Schema.parse] at parsed
      split at parsed
      · cases parsed
      · rcases Option.map_eq_some_iff.mp parsed with ⟨_, _, rfl⟩
        rfl
    | _ => cases parsed
  | record entries _ =>
    cases value with
    | object members =>
      rw [Schema.parse] at parsed
      rcases Option.map_eq_some_iff.mp parsed with ⟨_, _, rfl⟩
      rfl
    | _ => cases parsed
  | @discriminatedUnion discriminator options tags distinct tagged each ih =>
    cases value with
    | object members =>
      rw [Schema.parse] at parsed
      clear distinct tagged each
      induction options with
      | nil => cases parsed
      | cons option rest later =>
        rw [Schema.parseTagged] at parsed
        split at parsed
        · exact ih option List.mem_cons_self parsed
        · exact later (List.forall_mem_cons.mp ih).2 parsed
    | _ => cases parsed
  | @union options each objects arrays ih =>
    rw [Schema.parse] at parsed
    clear each objects arrays
    induction options with
    | nil => cases parsed
    | cons option rest later =>
      rw [Schema.parseFirst] at parsed
      split at parsed
      · rename_i first
        cases parsed
        exact ih option List.mem_cons_self first
      · exact later (List.forall_mem_cons.mp ih).2 parsed
  | optional made ih =>
    rw [parse_optional_some] at parsed
    exact ih parsed
  | nullable made ih =>
    by_cases null : value = .null
    · subst null
      cases parsed
      rfl
    · rw [parse_nullable_some _ null] at parsed
      exact ih parsed

theorem WellMade.isSome_parse (made : WellMade schema) (value : Json) :
    ((schema.parse (some value)).bind id).isSome = true ↔ Accepts schema (some value) := by
  unfold Accepts
  cases parsed : schema.parse (some value) with
  | none => exact Iff.rfl
  | some result => exact iff_of_true (made.parse_some parsed) rfl

theorem accepts_array_iff {element : Schema} (made : WellMade element) {atLeast : Nat} {items : List Json} :
    Accepts (.array element atLeast) (some (.array items)) ↔
      atLeast ≤ items.length ∧ ∀ item ∈ items, Accepts element (some item) := by
  have each : (items.mapM fun item => (element.parse (some item)).bind id).isSome = true ↔
      ∀ item ∈ items, Accepts element (some item) := by
    rw [isSome_mapM]
    exact forall₂_congr fun item _ => made.isSome_parse item
  unfold Accepts
  rw [Schema.parse]
  split
  · rename_i short
    exact iff_of_false Bool.false_ne_true fun both => Nat.not_le_of_lt short both.1
  · rename_i enough
    rw [Option.isSome_map, each]
    exact (and_iff_right (Nat.le_of_not_lt enough)).symm

theorem accepts_record_iff {valueType : Schema} (made : WellMade valueType) {members : List (String × Json)} :
    Accepts (.record valueType) (some (.object members)) ↔
      ∀ member ∈ members, Accepts valueType (some member.2) := by
  unfold Accepts
  rw [Schema.parse, Option.isSome_map, isSome_mapM]
  refine forall₂_congr fun member _ => ?_
  rw [Option.isSome_map]
  exact made.isSome_parse member.2

/-! ## What is removed -/

/-- The position is an undescribed key of an object that is closed. -/
inductive Undescribed {S : Type} [Schematic S] : Json -> S -> Position -> Prop where
  | here {members : List (String × Json)} {schema : S} {treatment : String -> Treatment S} {key : String} {value : Json}
      (read : readObject schema members = .members treatment) (present : (key, value) ∈ members)
      (closed : treatment key = .remove) : Undescribed (.object members) schema [.key key]
  | member {members : List (String × Json)} {schema field : S} {treatment : String -> Treatment S} {removable : Bool}
      {key : String} {value : Json} {rest : Position} (read : readObject schema members = .members treatment)
      (present : (key, value) ∈ members) (described : treatment key = .strip field removable)
      (below : Undescribed value field rest) : Undescribed (.object members) schema (.key key :: rest)
  | item {items : List Json} {schema element : S} {place : Nat} {item : Json} {rest : Position}
      (read : readArray schema = some element) (present : items[place]? = some item)
      (below : Undescribed item element rest) : Undescribed (.array items) schema (.index place :: rest)

/-- The value is stripped of undescribed keys, and what is left is accepted. -/
def StaysAccepted (value : Json) (schema : Schema) : Prop :=
  ∃ out removed, trim value schema = some (out, removed) ∧
    Accepts schema (some out) ∧ ∀ position ∈ removed, Undescribed value schema position

variable {treatment : String -> Treatment Schema}

theorem trimMembers_accepted {members : List (String × Json)}
    (each : ∀ member ∈ members, ∀ field removable, treatment member.1 = .strip field removable ->
      StaysAccepted member.2 field) (keeps : losesMember treatment members = false) :
    ∃ kept removed, trimMembers treatment members = some (kept, removed) ∧
      (∀ name field removable, treatment name = .strip field removable ->
        Accepts field (members.lookup name) -> Accepts field (kept.lookup name)) ∧
      (∀ member ∈ kept, ∀ field removable, treatment member.1 = .strip field removable ->
        Accepts field (some member.2)) ∧
      (∀ position ∈ removed, ∃ key value, (key, value) ∈ members ∧
        ((treatment key = .remove ∧ position = [.key key]) ∨
          (∃ field removable rest,
            treatment key = .strip field removable ∧ position = .key key :: rest ∧
              Undescribed value field rest))) := by
  induction members with
  | nil =>
    refine ⟨[], [], rfl, fun _ _ _ _ accepted => accepted, ?_, ?_⟩
    · exact fun _ impossible => absurd impossible List.not_mem_nil
    · exact fun _ impossible => absurd impossible List.not_mem_nil
  | cons member rest ih =>
    rcases member with ⟨key, value⟩
    rw [losesMember] at keeps
    rcases Bool.or_eq_false_iff.mp keeps with ⟨own, others⟩
    rcases ih (List.forall_mem_cons.mp each).2 others with
      ⟨later, reports, behind, lookups, accepted, undescribed⟩
    have behindUndescribed : ∀ position ∈ reports, ∃ other child,
        (other, child) ∈ (key, value) :: rest ∧
          ((treatment other = .remove ∧ position = [.key other]) ∨
            (∃ field removable below,
              treatment other = .strip field removable ∧ position = .key other :: below ∧
                Undescribed child field below)) := by
      intro position member
      rcases undescribed position member with ⟨other, child, present, reason⟩
      exact ⟨other, child, .tail _ present, reason⟩
    cases treated : treatment key with
    | keep =>
      rw [treated] at own
      have ordinary := of_decide_eq_false own
      refine ⟨(key, value) :: later, reports, ?_, ?_, ?_, behindUndescribed⟩
      · rw [trimMembers, behind, treated, ← assign_of_ne ordinary]
      · intro name field removable described accepts
        have different : name ≠ key := by
          rintro rfl
          rw [treated] at described
          cases described
        rw [OrderedMap.lookup_cons_ite, if_neg different] at accepts ⊢
        exact lookups name field removable described accepts
      · intro member listed field removable described
        rcases List.mem_cons.mp listed with rfl | listed
        · rw [treated] at described
          cases described
        · exact accepted member listed field removable described
    | remove =>
      refine ⟨later, [.key key] :: reports, ?_, ?_, accepted, ?_⟩
      · rw [trimMembers, behind, treated]
      · intro name field removable described accepts
        have different : name ≠ key := by
          rintro rfl
          rw [treated] at described
          cases described
        rw [OrderedMap.lookup_cons_ite, if_neg different] at accepts
        exact lookups name field removable described accepts
      · intro position member
        rcases List.mem_cons.mp member with rfl | listed
        · exact ⟨key, value, List.mem_cons_self, .inl ⟨treated, rfl⟩⟩
        · exact behindUndescribed position listed
    | strip field removable =>
      rcases each _ List.mem_cons_self field removable treated with
        ⟨child, inside, trimmed, childAccepted, below⟩
      rw [treated] at own
      dsimp only at own
      rw [recognised_of_trim trimmed, Bool.true_and] at own
      have ordinary := of_decide_eq_false (Bool.or_eq_false_iff.mp own).1
      refine ⟨(key, child) :: later, inside.map (.key key :: ·) ++ reports, ?_, ?_, ?_, ?_⟩
      · rw [trimMembers, behind, treated]
        dsimp only
        rw [trimmed, ← assign_of_ne ordinary]
      · intro name other otherwise described accepts
        rw [OrderedMap.lookup_cons_ite] at accepts ⊢
        by_cases same : name = key
        · subst same
          rw [treated] at described
          cases described
          rw [if_pos rfl]
          exact childAccepted
        · rw [if_neg same] at accepts ⊢
          exact lookups name other otherwise described accepts
      · intro member listed other otherwise described
        rcases List.mem_cons.mp listed with rfl | listed
        · rw [treated] at described
          cases described
          exact childAccepted
        · exact accepted member listed other otherwise described
      · intro position member
        rcases List.mem_append.mp member with own | listed
        · rcases List.mem_map.mp own with ⟨rest, place, rfl⟩
          exact ⟨key, value, List.mem_cons_self, .inr ⟨field, removable, rest, treated, rfl, below rest place⟩⟩
        · exact behindUndescribed position listed

theorem trimItems_accepted {element : Schema} {items : List Json}
    (each : ∀ item ∈ items, StaysAccepted item element) (index : Nat) :
    (trimItems element index items).1.length = items.length ∧
      (∀ item ∈ (trimItems element index items).1, Accepts element (some item)) ∧
      ∀ position ∈ (trimItems element index items).2,
        ∃ place item rest,
          items[place]? = some item ∧ position = .index (index + place) :: rest ∧ Undescribed item element rest := by
  induction items generalizing index with
  | nil =>
    refine ⟨rfl, ?_, ?_⟩
    · exact fun _ impossible => absurd impossible List.not_mem_nil
    · exact fun _ impossible => absurd impossible List.not_mem_nil
  | cons item rest ih =>
    rcases each item List.mem_cons_self with ⟨child, inside, trimmed, accepted, below⟩
    rcases ih (List.forall_mem_cons.mp each).2 (index + 1) with
      ⟨length, others, undescribed⟩
    rw [trimItems_cons_some rest trimmed]
    refine ⟨congrArg Nat.succ length, List.forall_mem_cons.mpr ⟨accepted, others⟩, ?_⟩
    intro position member
    rcases List.mem_append.mp member with own | listed
    · rcases List.mem_map.mp own with ⟨rest, place, rfl⟩
      exact ⟨0, item, rest, rfl, rfl, below rest place⟩
    · rcases undescribed position listed with ⟨place, other, rest, present, same, reason⟩
      refine ⟨place + 1, other, rest, present, ?_, reason⟩
      rw [same, Nat.add_right_comm]
      rfl

/-! ## The option that is chosen -/

theorem literalIs_self (tag : String) : literalIs (some tag) (some (.string tag)) = true :=
  beq_self_eq_true tag

theorem literalIs_other {tag other : String} (different : tag ≠ other) :
    literalIs (some tag) (some (.string other)) = false :=
  beq_false_of_ne different

/-- An object that a tagged option accepts has its tag. -/
theorem lookup_tag {members : List (String × Json)}
    (accepted : Accepts (.object shape specOpen) (some (.object members))) {discriminator tag : String}
    (own : shape.lookup discriminator = some (.leaf (.literal tag))) :
    members.lookup discriminator = some (.string tag) := by
  have field := accepts_object_iff.mp accepted _ (OrderedMap.mem_of_lookup_eq_some own)
  unfold Accepts at field
  dsimp only at field
  rw [Schema.parse] at field
  cases present : members.lookup discriminator with
  | none =>
    rw [present] at field
    cases field
  | some value =>
    rw [present] at field
    cases value with
    | string text =>
      split at field
      · rename_i same
        have : text = tag := eq_of_beq same
        rw [this]
      · cases field
    | _ => cases field

variable {discriminator : String} {tags : List String}

theorem tag_mem {options : List Schema} (tagged : List.Forall₂ (TaggedObject discriminator) options tags)
    (listed : Schema.object shape specOpen ∈ options) {tag : String}
    (own : shape.lookup discriminator = some (.leaf (.literal tag))) : tag ∈ tags := by
  induction tagged with
  | nil => cases listed
  | cons first later ih =>
    rcases List.mem_cons.mp listed with same | behind
    · rcases first with ⟨fields, isOpen, rfl, literal⟩
      cases same
      rw [own] at literal
      cases literal
      exact List.mem_cons_self
    · exact .tail _ (ih behind)

/-- The validator and the stripper choose the option whose tag the object has. -/
theorem tagged_chosen {options : List Schema}
    (tagged : List.Forall₂ (TaggedObject discriminator) options tags) (distinct : tags.Nodup)
    (listed : Schema.object shape specOpen ∈ options) {tag : String}
    (own : shape.lookup discriminator = some (.leaf (.literal tag))) {members : List (String × Json)}
    (present : members.lookup discriminator = some (.string tag)) :
    Schema.parseTagged discriminator options members = (Schema.object shape specOpen).parse (some (.object members)) ∧
      taggedOption discriminator options members = some (shape, specOpen) := by
  induction tagged with
  | nil => cases listed
  | @cons option optionTag options tags first later ih =>
    rcases first with ⟨fields, isOpen, rfl, literal⟩
    rcases List.nodup_cons.mp distinct with ⟨fresh, others⟩
    have ownTag : (Schema.object fields isOpen).tag? discriminator = some optionTag := by
      rw [Schema.tag?, literal]
      rfl
    have ownLiteral : literalValueOf (fields.lookup discriminator) = some optionTag := by
      rw [literal]
      rfl
    have description : unwrap (Schema.object fields isOpen) = .object fields isOpen := rfl
    rw [Schema.parseTagged, ownTag, taggedOption, List.findSome?_cons, description]
    dsimp only
    rw [ownLiteral, present]
    rcases List.mem_cons.mp listed with same | behind
    · cases same
      rw [own] at literal
      cases literal
      rw [literalIs_self, if_pos rfl, if_pos rfl]
      exact ⟨rfl, rfl⟩
    · have different : optionTag ≠ tag := by
        rintro rfl
        exact fresh (tag_mem later behind own)
      rw [literalIs_other different, if_neg Bool.false_ne_true, if_neg Bool.false_ne_true]
      have chosen := ih others behind
      rw [taggedOption, present] at chosen
      exact chosen

theorem exists_of_parseTagged {options : List Schema} {members : List (String × Json)}
    (accepted : (Schema.parseTagged discriminator options members).isSome = true) :
    ∃ option ∈ options, Accepts option (some (.object members)) := by
  induction options with
  | nil => cases accepted
  | cons option rest ih =>
    rw [Schema.parseTagged] at accepted
    split at accepted
    · exact ⟨option, List.mem_cons_self, accepted⟩
    · rcases ih accepted with ⟨other, listed, accepts⟩
      exact ⟨other, .tail _ listed, accepts⟩

theorem taggedObject_of_mem {options : List Schema}
    (tagged : List.Forall₂ (TaggedObject discriminator) options tags) {option : Schema} (listed : option ∈ options) :
    ∃ tag, TaggedObject discriminator option tag := by
  induction tagged with
  | nil => cases listed
  | cons first later ih =>
    rcases List.mem_cons.mp listed with rfl | behind
    · exact ⟨_, first⟩
    · exact ih behind

/-- The shape of an object description. -/
def objectShape? : Description Schema -> Option (List (String × Schema) × Bool)
  | .object shape specOpen => some (shape, specOpen)
  | _ => none

variable (options : List Schema)

theorem objectShapes :
    (options.filterMap fun option => objectShape? (unwrap option)) =
      (objectOptions options).filterMap fun option => objectShape? (unwrap option) := by
  rw [objectOptions, List.filterMap_filter]
  congr 1
  funext option
  cases unwrap option with
  | object shape specOpen => rfl
  | _ => rfl

theorem length_objectShapes :
    ((objectOptions options).filterMap fun option => objectShape? (unwrap option)).length =
      (objectOptions options).length := by
  apply List.filterMap_length_eq_length.mpr
  intro option listed
  have object := (List.mem_filter.mp listed).2
  cases description : unwrap option with
  | object shape specOpen => rfl
  | _ =>
    rw [description] at object
    cases object

/-- A structural union takes an object for its object option, if there is just one. -/
theorem descendObject_union (members : List (String × Json)) :
    (∃ option, objectOptions options = [option] ∧
      descendObject (.union options) members = descendObject (unwrap option) members) ∨
    descendObject (.union options) members = .whole := by
  rw [descendObject]
  split
  · rename_i shape specOpen found
    have shapes : (options.filterMap fun option => objectShape? (unwrap option)) = [(shape, specOpen)] := by
      refine Eq.trans (List.filterMap_congr fun option _ => ?_) found
      cases unwrap option with
      | object fields isOpen => rfl
      | _ => rfl
    rw [objectShapes] at shapes
    have one := length_objectShapes options
    rw [shapes] at one
    rcases List.length_eq_one_iff.mp one.symm with ⟨option, only⟩
    refine .inl ⟨option, only, ?_⟩
    rw [only] at shapes
    have object : (unwrap option).isObject = true := by
      have listed : option ∈ objectOptions options := only ▸ List.mem_singleton_self option
      exact (List.mem_filter.mp listed).2
    cases description : unwrap option with
    | object fields isOpen =>
      rw [List.filterMap_cons, description] at shapes
      cases shapes
      rfl
    | _ =>
      rw [description] at object
      cases object
  · exact .inr rfl

/-- A structural union takes an array for its first array option. -/
theorem descendArray_union :
    (∃ option, arrayOption? options = some option ∧
      descendArray (.union options) = descendArray (unwrap option)) ∨
    descendArray (.union options) = .whole := by
  rw [descendArray]
  induction options with
  | nil => exact .inr rfl
  | cons option rest ih =>
    rw [List.findSome?_cons, arrayOption?]
    cases description : unwrap option with
    | array element =>
      refine .inl ⟨option, List.find?_cons_of_pos ?_, ?_⟩
      · rw [description]
        rfl
      · rw [description]
        rfl
    | _ =>
      rw [List.find?_cons_of_neg]
      · exact ih
      · rw [description]
        exact Bool.false_ne_true

/-! ## How an accepted value is read -/

/-- How an object that is accepted is read: as what accepts it. -/
inductive ReadsAs (schema : Schema) (members : List (String × Json)) : Prop where
  | whole (read : readObject schema members = .whole)
  | fields {shape : List (String × Schema)} {specOpen : Bool} (names : (shape.map Prod.fst).Nodup)
      (fields : ∀ field ∈ shape, WellMade field.2)
      (read : readObject schema members = .members (fieldTreatment shape specOpen))
      (accepted : Accepts (.object shape specOpen) (some (.object members)))
      (back : ∀ kept, Accepts (.object shape specOpen) (some (.object kept)) -> Accepts schema (some (.object kept)))
  | entries {valueType : Schema} (made : WellMade valueType)
      (read : readObject schema members = .members fun _ => .strip valueType true)
      (accepted : ∀ member ∈ members, Accepts valueType (some member.2))
      (back : ∀ kept : List (String × Json),
        (∀ member ∈ kept, Accepts valueType (some member.2)) -> Accepts schema (some (.object kept)))

theorem ReadsAs.of_option {schema option : Schema} {members : List (String × Json)} (reads : ReadsAs option members)
    (same : readObject schema members = readObject option members)
    (back : ∀ kept, Accepts option (some (.object kept)) -> Accepts schema (some (.object kept))) :
    ReadsAs schema members := by
  cases reads with
  | whole read => exact .whole (same.trans read)
  | fields names made read accepted inner =>
    exact .fields names made (same.trans read) accepted fun kept accepts => back kept (inner kept accepts)
  | entries made read accepted inner =>
    exact .entries made (same.trans read) accepted fun kept accepts => back kept (inner kept accepts)

theorem WellMade.readsAs (made : WellMade schema) {members : List (String × Json)}
    (accepted : Accepts schema (some (.object members))) : ReadsAs schema members := by
  induction made with
  | leaf kind =>
    apply ReadsAs.whole
    cases kind with
    | _ => rfl
  | object specOpen names fields _ => exact .fields names fields rfl accepted fun _ accepts => accepts
  | array atLeast items _ => cases accepted
  | record entries _ =>
    exact .entries entries rfl ((accepts_record_iff entries).mp accepted) fun _ => (accepts_record_iff entries).mpr
  | @discriminatedUnion discriminator options tags distinct tagged each _ =>
    unfold Accepts at accepted
    rw [Schema.parse] at accepted
    rcases exists_of_parseTagged accepted with ⟨option, listed, accepts⟩
    rcases taggedObject_of_mem tagged listed with ⟨tag, shape, specOpen, rfl, own⟩
    have made : (shape.map Prod.fst).Nodup ∧ ∀ field ∈ shape, WellMade field.2 := by
      cases each _ listed with
      | object _ names fields => exact ⟨names, fields⟩
    refine .fields made.1 made.2 ?_ accepts ?_
    · change (descendObject (.discriminatedUnion discriminator options) members).reading = _
      rw [descendObject, (tagged_chosen tagged distinct listed own (lookup_tag accepts own)).2]
      rfl
    · intro kept accepts
      unfold Accepts
      rw [Schema.parse, (tagged_chosen tagged distinct listed own (lookup_tag accepts own)).1]
      exact accepts
  | @union options each objects arrays ih =>
    rcases descendObject_union options members with ⟨option, only, same⟩ | whole
    · have listed : option ∈ options :=
        (List.mem_filter.mp (show option ∈ objectOptions options from only ▸ List.mem_singleton_self option)).1
      apply (ih option listed (objects option members only accepted)).of_option
      · exact congrArg Descent.reading same
      · exact fun kept accepts => accepts_union_iff.mpr ⟨option, listed, accepts⟩
    · exact .whole (congrArg Descent.reading whole)
  | @optional inner made ih =>
    have same (kept : List (String × Json)) :
        Accepts (.optional inner) (some (.object kept)) ↔ Accepts inner (some (.object kept)) := by
      unfold Accepts
      rw [parse_optional_some]
    exact (ih ((same members).mp accepted)).of_option rfl fun kept => (same kept).mpr
  | @nullable inner made ih =>
    have same (kept : List (String × Json)) :
        Accepts (.nullable inner) (some (.object kept)) ↔ Accepts inner (some (.object kept)) := by
      unfold Accepts
      rw [parse_nullable_some _ (fun impossible => by cases impossible)]
    exact (ih ((same members).mp accepted)).of_option rfl fun kept => (same kept).mpr

/-- How an array that is accepted is read. -/
inductive ReadsItems (schema : Schema) (items : List Json) : Prop where
  | whole (read : readArray schema = none)
  | items {element : Schema} (made : WellMade element) (read : readArray schema = some element)
      (accepted : ∀ item ∈ items, Accepts element (some item))
      (back : ∀ kept : List Json, kept.length = items.length ->
        (∀ item ∈ kept, Accepts element (some item)) -> Accepts schema (some (.array kept)))

theorem ReadsItems.of_option {schema option : Schema} {items : List Json} (reads : ReadsItems option items)
    (same : readArray schema = readArray option)
    (back : ∀ kept, Accepts option (some (.array kept)) -> Accepts schema (some (.array kept))) :
    ReadsItems schema items := by
  cases reads with
  | whole read => exact .whole (same.trans read)
  | items made read accepted inner =>
    exact .items made (same.trans read) accepted fun kept length accepts => back kept (inner kept length accepts)

theorem WellMade.readsItems (made : WellMade schema) {items : List Json}
    (accepted : Accepts schema (some (.array items))) : ReadsItems schema items := by
  induction made with
  | leaf kind =>
    apply ReadsItems.whole
    cases kind with
    | _ => rfl
  | object specOpen names fields _ | record entries _
  | discriminatedUnion tags distinct tagged each _ => cases accepted
  | array atLeast made _ =>
    rcases (accepts_array_iff made).mp accepted with ⟨enough, each⟩
    refine .items made rfl each fun kept length accepts => (accepts_array_iff made).mpr ⟨?_, accepts⟩
    rw [length]
    exact enough
  | @union options each objects arrays ih =>
    rcases descendArray_union options with ⟨option, found, same⟩ | whole
    · have listed : option ∈ options := List.mem_of_find?_eq_some found
      apply (ih option listed (arrays option items found accepted)).of_option
      · unfold readArray
        rw [show unwrap (Schema.union options) = .union options from rfl, same]
      · exact fun kept accepts => accepts_union_iff.mpr ⟨option, listed, accepts⟩
    · apply ReadsItems.whole
      unfold readArray
      rw [show unwrap (Schema.union options) = .union options from rfl, whole]
  | @optional inner made ih =>
    have same (kept : List Json) :
        Accepts (.optional inner) (some (.array kept)) ↔ Accepts inner (some (.array kept)) := by
      unfold Accepts
      rw [parse_optional_some]
    exact (ih ((same items).mp accepted)).of_option rfl fun kept => (same kept).mpr
  | @nullable inner made ih =>
    have same (kept : List Json) :
        Accepts (.nullable inner) (some (.array kept)) ↔ Accepts inner (some (.array kept)) := by
      unfold Accepts
      rw [parse_nullable_some _ (fun impossible => by cases impossible)]
    exact (ih ((same items).mp accepted)).of_option rfl fun kept => (same kept).mpr

/-! ## Stripping what was accepted -/

/-- The field of a described key. -/
theorem fieldTreatment_strip {key : String} {field : Schema}
    {removable : Bool} (described : fieldTreatment shape specOpen key = .strip field removable) :
    shape.lookup key = some field := by
  unfold fieldTreatment at described
  cases found : shape.lookup key with
  | none =>
    rw [found] at described
    cases specOpen with
    | true | false => cases described
  | some other =>
    rw [found] at described
    cases described
    rfl

/-- The value of a described key is accepted by its field. -/
theorem accepts_field {members : List (String × Json)}
    (accepted : Accepts (.object shape specOpen) (some (.object members))) (distinct : (members.map Prod.fst).Nodup)
    {key : String} {value : Json} (listed : (key, value) ∈ members) {field : Schema}
    (described : shape.lookup key = some field) : Accepts field (some value) := by
  have own := accepts_object_iff.mp accepted _ (OrderedMap.mem_of_lookup_eq_some described)
  dsimp only at own
  rw [OrderedMap.lookup_eq_some_of_mem distinct listed] at own
  exact own

theorem recognisedMembers_of_each {members : List (String × Json)}
    (each : ∀ member ∈ members, ∀ schema, treatment member.1 = .strip schema false ->
      recognised member.2 schema = true) : recognisedMembers treatment members = true := by
  induction members with
  | nil => rfl
  | cons member rest ih =>
    rcases member with ⟨key, value⟩
    rw [recognisedMembers, ih (List.forall_mem_cons.mp each).2, Bool.and_true]
    cases treated : treatment key with
    | keep => rfl
    | remove => rfl
    | strip schema removable =>
      cases removable with
      | true => rfl
      | false => exact each _ List.mem_cons_self schema treated

/-- Where nothing is lost, nothing is lost below a key that is stripped. -/
theorem losesKey_of_losesMember {members : List (String × Json)}
    (keeps : losesMember treatment members = false) {member : String × Json} (listed : member ∈ members)
    {removable : Bool} (treated : treatment member.1 = .strip schema removable)
    (known : recognised member.2 schema = true) : losesKey member.2 schema = false := by
  induction members with
  | nil => cases listed
  | cons head rest ih =>
    rw [losesMember] at keeps
    rcases Bool.or_eq_false_iff.mp keeps with ⟨own, others⟩
    rcases List.mem_cons.mp listed with rfl | behind
    · rw [treated] at own
      dsimp only at own
      rw [known, Bool.true_and] at own
      exact (Bool.or_eq_false_iff.mp own).2
    · exact ih others behind

theorem losesKey_of_losesItem {element : Schema} {items : List Json} (keeps : losesItem element items = false)
    {item : Json} (listed : item ∈ items) (known : recognised item element = true) :
    losesKey item element = false := by
  induction items with
  | nil => cases listed
  | cons head rest ih =>
    rw [losesItem] at keeps
    rcases Bool.or_eq_false_iff.mp keeps with ⟨own, others⟩
    rcases List.mem_cons.mp listed with rfl | behind
    · rw [known, Bool.true_and] at own
      exact own
    · exact ih others behind

/-- An accepted value is recognisable and, where no key is lost, stays accepted. -/
def Survives (value : Json) : Prop :=
  ∀ schema, WellMade schema -> Accepts schema (some value) -> DistinctKeys value ->
    recognised value schema = true ∧ (losesKey value schema = false -> StaysAccepted value schema)

theorem staysAccepted_whole {value : Json} (trimmed : trim value schema = some (value, []))
    (accepted : Accepts schema (some value)) : StaysAccepted value schema :=
  ⟨value, [], trimmed, accepted, fun _ impossible => absurd impossible List.not_mem_nil⟩

/-- An object whose described values survive survives. -/
theorem staysAccepted_members {members : List (String × Json)}
    (read : readObject schema members = .members treatment)
    (survive : ∀ member ∈ members, ∀ field removable, treatment member.1 = .strip field removable ->
      recognised member.2 field = true ∧ (losesKey member.2 field = false -> StaysAccepted member.2 field))
    (back : ∀ kept : List (String × Json),
      (∀ name field removable, treatment name = .strip field removable ->
        Accepts field (members.lookup name) -> Accepts field (kept.lookup name)) ->
      (∀ member ∈ kept, ∀ field removable, treatment member.1 = .strip field removable ->
        Accepts field (some member.2)) -> Accepts schema (some (.object kept))) :
    recognised (.object members) schema = true ∧
      (losesKey (.object members) schema = false -> StaysAccepted (.object members) schema) := by
  constructor
  · rw [recognised, read]
    exact recognisedMembers_of_each fun member listed field treated => (survive member listed field _ treated).1
  · intro keeps
    rw [losesKey, read] at keeps
    have each : ∀ member ∈ members, ∀ field removable,
        treatment member.1 = .strip field removable -> StaysAccepted member.2 field := by
      intro member listed field removable treated
      rcases survive member listed field removable treated with ⟨known, stays⟩
      exact stays (losesKey_of_losesMember keeps listed treated known)
    rcases trimMembers_accepted each keeps with ⟨kept, removed, done, lookups, accepted, undescribed⟩
    refine ⟨.object kept, removed, ?_, back kept lookups accepted, ?_⟩
    · rw [trim, read]
      dsimp only
      rw [done]
      rfl
    · intro position member
      rcases undescribed position member with
        ⟨key, value, present, ⟨closed, rfl⟩ | ⟨field, _, rest, treated, rfl, below⟩⟩
      · exact .here read present closed
      · exact .member read present treated below

theorem survives (value : Json) : Survives value := by
  induction value using Json.induction with
  | leaf value leaf =>
    intro schema made accepted distinct
    cases value with
    | array items | object members => cases leaf
    | _ => exact ⟨rfl, fun _ => staysAccepted_whole rfl accepted⟩
  | array items each =>
    intro schema made accepted distinct
    refine ⟨rfl, fun keeps => ?_⟩
    cases made.readsItems accepted with
    | whole read =>
      apply staysAccepted_whole _ accepted
      rw [trim, read]
    | @items element elementMade read itemsAccepted back =>
      rw [losesKey, read] at keeps
      have stay : ∀ item ∈ items, StaysAccepted item element := by
        intro item listed
        rcases each item listed _ elementMade (itemsAccepted item listed) (distinct.item listed) with ⟨known, stays⟩
        exact stays (losesKey_of_losesItem keeps listed known)
      rcases trimItems_accepted stay 0 with ⟨length, keptAccepted, undescribed⟩
      refine ⟨_, (trimItems element 0 items).2, ?_, back _ length keptAccepted, ?_⟩
      · rw [trim, read]
      · intro position member
        rcases undescribed position member with ⟨place, item, rest, present, same, below⟩
        rw [same, Nat.zero_add]
        exact .item read present below
  | object members each =>
    intro schema made accepted distinct
    cases made.readsAs accepted with
    | whole read =>
      refine ⟨?_, fun _ => staysAccepted_whole ?_ accepted⟩
      · rw [recognised, read]
      · rw [trim, read]
    | @fields shape specOpen names fieldsMade read objectAccepted back =>
      apply staysAccepted_members read
      · intro member listed field removable treated
        have described := fieldTreatment_strip treated
        exact each member listed field (fieldsMade _ (OrderedMap.mem_of_lookup_eq_some described))
          (accepts_field objectAccepted distinct.keys listed described) (distinct.member listed)
      · intro kept lookups _
        apply back
        rw [accepts_object_iff] at objectAccepted ⊢
        intro field listed
        have described : fieldTreatment shape specOpen field.1 = .strip field.2 (admitsUndefined field.2) := by
          rw [fieldTreatment, OrderedMap.lookup_eq_some_of_mem names listed]
        exact lookups _ _ _ described (objectAccepted field listed)
    | entries valueMade read entriesAccepted back =>
      apply staysAccepted_members read
      · intro member listed field removable treated
        cases treated
        exact each member listed _ valueMade (entriesAccepted member listed) (distinct.member listed)
      · intro kept _ keptAccepted
        apply back
        intro member listed
        exact keptAccepted member listed _ true rfl

/-- Where every structural union is tried by kind, stripping an accepted value
does not fail, leaves a value that is accepted, and removes undescribed keys of
closed objects only: the result is the value without what was removed. -/
theorem stripUnknown_accepted {schema : Schema} (made : WellMade schema) {value : Json} (distinct : DistinctKeys value)
    (accepted : Accepts schema (some value)) (keeps : losesKey value schema = false) :
    ∃ out, stripUnknown value schema = some (out, (removals value schema).map render) ∧
      Accepts schema (some out) ∧ Exact value out (removals value schema) ∧
      ∀ position ∈ removals value schema, Undescribed value schema position := by
  rcases (survives value schema made accepted distinct).2 keeps with ⟨out, removed, trimmed, outAccepted, undescribed⟩
  have positions := removals_of_trim trimmed
  refine ⟨out, ?_, outAccepted, exact_of_trim distinct trimmed keeps, ?_⟩
  · rw [stripUnknown_eq_trim, positions, trimmed]
    rfl
  · rw [positions]
    exact undescribed

def textOption : Schema :=
  .object [("type", .leaf (.literal "text")), ("text", .leaf .string)] false

def dataOption : Schema :=
  .object [("type", .leaf (.literal "data")), ("data", .leaf .any)] true

def partSchema : Schema :=
  .discriminatedUnion "type" [textOption, dataOption]

/-- Content is a text or parts. -/
def noteSchema : Schema :=
  .object
    [("content", .union [.leaf .string, .array partSchema 1]),
     ("labels", .optional (.record (.nullable (.leaf .string))))]
    false

def note : Json :=
  .object
    [("content",
      .array
        [.object [("style", .string "bold"), ("type", .string "text"), ("text", .string "hello")],
         .object [("type", .string "data"), ("data", .null), ("note", .bool true)]]),
     ("labels", .object [("en", .string "note"), ("de", .null)]),
     ("version", .number 2)]

theorem wellMade_noteSchema : WellMade noteSchema := by
  have text : WellMade textOption := by
    refine .object _ (by decide) ?_
    simp only [List.forall_mem_cons]
    exact ⟨.leaf _, .leaf _, List.forall_mem_nil _⟩
  have data : WellMade dataOption := by
    refine .object _ (by decide) ?_
    simp only [List.forall_mem_cons]
    exact ⟨.leaf _, .leaf _, List.forall_mem_nil _⟩
  have part : WellMade partSchema := by
    refine .discriminatedUnion ["text", "data"] (by decide) (.cons ⟨_, _, rfl, rfl⟩ (.cons ⟨_, _, rfl, rfl⟩ .nil)) ?_
    simp only [List.forall_mem_cons]
    exact ⟨text, data, List.forall_mem_nil _⟩
  refine .object _ (by decide) ?_
  simp only [List.forall_mem_cons]
  refine ⟨.union ?_ ?_ ?_, .optional (.record (.nullable (.leaf _))), List.forall_mem_nil _⟩
  · simp only [List.forall_mem_cons]
    exact ⟨.leaf _, .array _ part, List.forall_mem_nil _⟩
  · intro option members only _
    cases only
  · intro option items found accepted
    cases found
    rcases accepts_union_iff.mp accepted with ⟨option, listed, accepts⟩
    simp only [List.mem_cons, List.not_mem_nil, or_false] at listed
    rcases listed with rfl | rfl
    · cases accepts
    · exact accepts

theorem distinctKeys_note : DistinctKeys note := by
  apply distinctKeys_object (by decide)
  simp only [List.forall_mem_cons]
  refine ⟨distinctKeys_array ?_, distinctKeys_flat (by decide) rfl, distinctKeys_leaf rfl, List.forall_mem_nil _⟩
  simp only [List.forall_mem_cons]
  exact ⟨distinctKeys_flat (by decide) rfl, distinctKeys_flat (by decide) rfl, List.forall_mem_nil _⟩

theorem stripUnknown_accepted_note :
    (stripUnknown note noteSchema).map Prod.snd = some ["/content/0/style", "/version"] ∧
      ∃ out, stripUnknown note noteSchema = some (out, (removals note noteSchema).map render) ∧
        Accepts noteSchema (some out) ∧ Exact note out (removals note noteSchema) ∧
        ∀ position ∈ removals note noteSchema, Undescribed note noteSchema position :=
  ⟨rfl, stripUnknown_accepted wellMade_noteSchema distinctKeys_note rfl rfl⟩

def taggedOnly : Schema :=
  .discriminatedUnion "type" [.object [("type", .leaf (.literal "t"))] false]

/-- Unions of an object with tagged objects, and of objects and arrays with anything. -/
def namedOrTagged : Schema :=
  .union [.object [("name", .leaf .string)] false, taggedOnly]

def boxOrAnything : Schema :=
  .union [.object [("box", taggedOnly)] false, .leaf .any]

def listOrAnything : Schema :=
  .union [.array taggedOnly 0, .leaf .any]

def tagged (tag : String) : Json :=
  .object [("type", .string tag)]

/-- Three accepted values: what is left of the first is rejected, the second
cannot be stripped, and the third loses an item. -/
theorem stripUnknown_rejects :
    (Accepts namedOrTagged (some (tagged "t")) ∧
      stripUnknown (tagged "t") namedOrTagged = some (.object [], ["/type"]) ∧
      ¬ Accepts namedOrTagged (some (.object []))) ∧
    (Accepts boxOrAnything (some (.object [("box", tagged "u")])) ∧
      stripUnknown (.object [("box", tagged "u")]) boxOrAnything = none) ∧
    (Accepts listOrAnything (some (.array [tagged "u"])) ∧
      stripUnknown (.array [tagged "u"]) listOrAnything = some (.array [], ["/0"])) :=
  ⟨⟨rfl, rfl, Bool.false_ne_true⟩, ⟨rfl, rfl⟩, rfl, rfl⟩

end Enforce
end AgUi
