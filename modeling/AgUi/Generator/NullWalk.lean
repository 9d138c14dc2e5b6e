import AgUi.Enforce.Exactness
import AgUi.Generator.Serialization
import AgUi.Library.Attempts

namespace AgUi
namespace Generator

open Library Protocol
open Enforce (DistinctKeys distinctKeys_array distinctKeys_object)

/-!
# What the walk removes

The positions a shape describes as optional properties that are null, read
off the shape and the value.  The walk returns the value without them, and
its own argument where there are none.  A walk ends: each turn at most
resolves a name, picks a variant and resolves that before it goes inside.
-/

/-- The position of a null under a key that its shape lists as optional. -/
inductive NullAt (shapes : Shapes) : Shape -> Json -> Position -> Prop where
  | named {name : String} {shape : Shape} {value : Json} {position : Position}
      (found : shapes.get? name = some shape) (inside : NullAt shapes shape value position) :
      NullAt shapes (.named name) value position
  | item {shape : Shape} {items : List Json} {place : Nat} {item : Json} {position : Position}
      (placed : items[place]? = some item) (inside : NullAt shapes shape item position) :
      NullAt shapes (.array shape) (.array items) (.index place :: position)
  | variant {discriminator tag name : String} {variants : List (String × String)} {members : List (String × Json)}
      {position : Position} (tagged : members.lookup discriminator = some (.string tag))
      (recognised : variants.lookup tag = some name) (inside : NullAt shapes (.named name) (.object members) position) :
      NullAt shapes (.variants discriminator variants) (.object members) position
  | null {optional : List String} {fields : List (String × Shape)} {members : List (String × Json)} {key : String}
      (listed : key ∈ optional) (isNull : members.lookup key = some .null) :
      NullAt shapes (.object optional fields) (.object members) [.key key]
  | field {optional : List String} {fields : List (String × Shape)} {members : List (String × Json)} {key : String}
      {child : Shape} {value : Json} {position : Position} (described : fields.lookup key = some child)
      (present : members.lookup key = some value) (inside : NullAt shapes child value position) :
      NullAt shapes (.object optional fields) (.object members) (.key key :: position)

variable {shapes : Shapes}

open Classical in
/-- The positions to remove, as a test. -/
noncomputable def nullsAt (shapes : Shapes) (shape : Shape) (value : Json) : Position -> Bool :=
  fun position => decide (NullAt shapes shape value position)

variable {shape : Shape} {position : Position}

open Classical in
theorem nullsAt_eq_true_iff {value : Json} :
    nullsAt shapes shape value position = true ↔ NullAt shapes shape value position := by
  rw [nullsAt, decide_eq_true_iff]

theorem nullsAt_congr {shape other : Shape} {value another : Json} {position later : Position}
    (same : NullAt shapes shape value position ↔ NullAt shapes other another later) :
    nullsAt shapes shape value position = nullsAt shapes other another later :=
  Bool.eq_iff_iff.mpr (nullsAt_eq_true_iff.trans (same.trans nullsAt_eq_true_iff.symm))

theorem nullsAt_eq_false {value : Json}
    (nowhere : ¬ NullAt shapes shape value position) : nullsAt shapes shape value position = false :=
  Bool.eq_false_iff.mpr fun impossible => nowhere (nullsAt_eq_true_iff.mp impossible)

theorem NullAt.ne_nil {value : Json} (null : NullAt shapes shape value position) : position ≠ [] := by
  induction null with
  | named _ _ ih => exact ih
  | variant _ _ _ ih => exact ih
  | item | null | field => exact List.cons_ne_nil _ _

theorem not_nullAt_nil {value : Json} : ¬ NullAt shapes shape value [] :=
  fun null => null.ne_nil rfl

theorem not_nullAt_of_isLeaf {value : Json} (leaf : value.isLeaf = true) :
    ¬ NullAt shapes shape value position := by
  intro null
  induction null with
  | named _ _ ih => exact ih leaf
  | item | variant | null | field => cases leaf

/-! ## Walks -/

/-- What is returned is the value without the nulls, and the argument itself
exactly where there are none. -/
structure Walked (shapes : Shapes) (shape : Shape) (value : Json) (returned : Returned) : Prop where
  removes : returned.value value = value.without (nullsAt shapes shape value)
  keeps : returned = .argument ↔ ∀ position, ¬ NullAt shapes shape value position

/-- The walk ends, with the same answer under every bound that is large enough. -/
def Walks (shapes : Shapes) (shape : Shape) (value : Json) : Prop :=
  ∃ returned, (∃ bound, ∀ depth, bound ≤ depth ->
    omitNulls shapes depth value shape = .ok returned) ∧ Walked shapes shape value returned

theorem walked_of_nothing {value : Json} (nothing : ∀ position, ¬ NullAt shapes shape value position) :
    Walked shapes shape value .argument := by
  refine ⟨?_, fun _ => nothing, fun _ => rfl⟩
  have empty : nullsAt shapes shape value = fun _ => false := by
    funext position
    exact nullsAt_eq_false (nothing position)
  rw [empty, Json.without_nothing]
  rfl

variable {returned : Returned}

/-- A turn of the walk. -/
theorem ends_of_turn {answer : Nat -> Except GenerateError Returned} (bound : Nat)
    (turn : ∀ depth, bound ≤ depth -> answer (depth + 1) = .ok returned) :
    ∃ bound, ∀ depth, bound ≤ depth -> answer depth = .ok returned := by
  refine ⟨bound + 1, fun depth enough => ?_⟩
  cases depth with
  | zero => exact absurd enough (Nat.not_succ_le_zero bound)
  | succ depth => exact turn depth (Nat.le_of_succ_le_succ enough)

theorem walks_of_argument {value : Json}
    (turn : ∀ depth, omitNulls shapes (depth + 1) value shape = .ok .argument)
    (nothing : ∀ position, ¬ NullAt shapes shape value position) : Walks shapes shape value :=
  ⟨.argument, ends_of_turn 0 fun depth _ => turn depth, walked_of_nothing nothing⟩

/-- Two shapes that describe a value alike are walked alike. -/
theorem Walked.congr {shape other : Shape} {value : Json} (walked : Walked shapes shape value returned)
    (same : ∀ position, NullAt shapes other value position ↔ NullAt shapes shape value position) :
    Walked shapes other value returned := by
  have tests : nullsAt shapes other value = nullsAt shapes shape value := by
    funext position
    exact nullsAt_congr (same position)
  refine ⟨?_, walked.keeps.trans (forall_congr' fun position => not_congr (same position).symm)⟩
  rw [tests]
  exact walked.removes

theorem walks_named {name : String} {value : Json} (found : shapes.get? name = some shape)
    (walks : Walks shapes shape value) : Walks shapes (.named name) value := by
  rcases walks with ⟨returned, ⟨bound, ends⟩, walked⟩
  refine ⟨returned, ends_of_turn bound fun depth enough => ?_, walked.congr fun position => ?_⟩
  · rw [omitNulls, found]
    exact ends depth enough
  · constructor
    · intro null
      cases null with
      | named other inside =>
        rw [found] at other
        cases other
        exact inside
    · exact .named found

theorem walks_variants {discriminator : String} {variants : List (String × String)} {value : Json}
    (each : ∀ tag name, variants.lookup tag = some name -> Walks shapes (.named name) value) :
    Walks shapes (.variants discriminator variants) value := by
  cases value with
  | object members =>
    cases tagged : members.lookup discriminator with
    | none =>
      refine walks_of_argument (fun depth => ?_) fun position null => ?_
      · rw [omitNulls, tagged]
      · cases null with
        | variant other _ _ => rw [tagged] at other; cases other
    | some content =>
      cases content with
      | string tag =>
        cases recognised : variants.lookup tag with
        | none =>
          refine walks_of_argument (fun depth => ?_) fun position null => ?_
          · simp only [omitNulls, tagged, recognised]
          · cases null with
            | variant other known _ =>
              rw [tagged] at other
              cases other
              rw [recognised] at known
              cases known
        | some name =>
          rcases each tag name recognised with ⟨returned, ⟨bound, ends⟩, walked⟩
          refine ⟨returned, ends_of_turn bound fun depth enough => ?_, walked.congr fun position => ?_⟩
          · simp only [omitNulls, tagged, recognised]
            exact ends depth enough
          · constructor
            · intro null
              cases null with
              | variant other known inside =>
                rw [tagged] at other
                cases other
                rw [recognised] at known
                cases known
                exact inside
            · exact .variant tagged recognised
      | null | bool | number | array | object =>
        refine walks_of_argument (fun depth => ?_) fun position null => ?_
        · simp only [omitNulls, tagged]
        · cases null with
          | variant other _ _ => rw [tagged] at other; cases other
  | null | bool | number | string | array =>
    refine walks_of_argument (fun depth => ?_) fun position null => ?_
    · rw [omitNulls]
      all_goals simp
    · cases null

/-! ## Arrays -/

theorem nullAt_array_iff {items : List Json} {place : Nat} :
    NullAt shapes (.array shape) (.array items) (.index place :: position) ↔
      ∃ item, items[place]? = some item ∧ NullAt shapes shape item position := by
  constructor
  · intro null
    cases null with
    | item placed inside => exact ⟨_, placed, inside⟩
  · rintro ⟨item, placed, inside⟩
    exact .item placed inside

/-- The items are walked one by one, under one bound. -/
theorem walks_items {items : List Json} (each : ∀ item ∈ items, Walks shapes shape item) :
    ∃ results, (∃ bound, ∀ depth, bound ≤ depth ->
        (items.mapM fun item => omitNulls shapes depth item shape) = .ok results) ∧
      List.Forall₂ (Walked shapes shape) items results := by
  induction items with
  | nil => exact ⟨[], ⟨0, fun _ _ => rfl⟩, .nil⟩
  | cons item rest ih =>
    rcases each item List.mem_cons_self with ⟨returned, ⟨bound, ends⟩, walked⟩
    rcases ih (List.forall_mem_cons.mp each).2 with
      ⟨results, ⟨more, later⟩, others⟩
    refine ⟨returned :: results, ⟨max bound more, fun depth enough => ?_⟩, .cons walked others⟩
    have first := ends depth (Nat.max_le.mp enough).1
    have behind := later depth (Nat.max_le.mp enough).2
    exact mapM_eq_ok_iff.mpr (.cons first (mapM_eq_ok_iff.mp behind))

theorem zipWith_eq_withoutItems {items : List Json} {results : List Returned}
    (walked : List.Forall₂ (Walked shapes shape) items results) {removed : Position -> Bool} (index : Nat)
    (below : ∀ (place : Nat) (item : Json) (position : Position), items[place]? = some item ->
      removed (.index (index + place) :: position) = nullsAt shapes shape item position) :
    List.zipWith Returned.value items results = Json.withoutItems removed index items := by
  induction walked generalizing index with
  | nil => rfl
  | @cons item returned rest results first _ ih =>
    have own : removed [.index index] = false :=
      (below 0 item [] rfl).trans (nullsAt_eq_false not_nullAt_nil)
    have inside : Json.beyond removed (.index index) = nullsAt shapes shape item := by
      funext position
      exact below 0 item position rfl
    rw [List.zipWith_cons_cons, Json.withoutItems, own, if_neg Bool.false_ne_true, first.removes, inside,
      ih (index + 1) fun place other position placed => ?_]
    rw [Nat.add_assoc, Nat.add_comm 1 place]
    exact below (place + 1) other position placed

theorem all_isArgument_iff {items : List Json} {results : List Returned}
    (walked : List.Forall₂ (Walked shapes shape) items results) : results.all Returned.isArgument = true ↔
      ∀ (place : Nat) (item : Json) (position : Position), items[place]? = some item ->
        ¬ NullAt shapes shape item position := by
  induction walked with
  | nil => simp
  | @cons item returned rest results first _ ih =>
    have same : returned.isArgument = true ↔ returned = .argument := by
      cases returned <;> simp [Returned.isArgument]
    rw [List.all_cons, Bool.and_eq_true, ih, same, first.keeps]
    constructor
    · rintro ⟨own, others⟩ place other position placed
      cases place with
      | zero =>
        cases placed
        exact own position
      | succ place => exact others place other position placed
    · intro all
      exact ⟨fun position => all 0 item position rfl, fun place other position placed =>
        all (place + 1) other position placed⟩

theorem walks_array {items : List Json} (each : ∀ item ∈ items, Walks shapes shape item) :
    Walks shapes (.array shape) (.array items) := by
  rcases walks_items each with ⟨results, ⟨bound, ends⟩, walked⟩
  have nothing : results.all Returned.isArgument = true ↔
      ∀ position, ¬ NullAt shapes (.array shape) (.array items) position := by
    rw [all_isArgument_iff walked]
    constructor
    · intro none position null
      cases null with
      | item placed inside => exact none _ _ _ placed inside
    · intro none place item position placed inside
      exact none _ (.item placed inside)
  by_cases kept : results.all Returned.isArgument = true
  · refine ⟨.argument, ends_of_turn bound fun depth enough => ?_, walked_of_nothing (nothing.mp kept)⟩
    rw [omitNulls, ends depth enough]
    exact if_pos kept
  · refine ⟨.fresh (.array (List.zipWith Returned.value items results)),
      ends_of_turn bound fun depth enough => ?_, ?_, ?_⟩
    · rw [omitNulls, ends depth enough]
      exact if_neg kept
    · change Json.array _ = Json.without _ (Json.array items)
      rw [Json.without]
      congr 1
      refine zipWith_eq_withoutItems walked 0 fun place item position placed => nullsAt_congr ?_
      rw [Nat.zero_add, nullAt_array_iff, placed]
      constructor
      · rintro ⟨other, same, inside⟩
        cases same
        exact inside
      · intro inside
        exact ⟨item, rfl, inside⟩
    · constructor
      · intro impossible
        cases impossible
      · intro none
        exact absurd (nothing.mpr none) kept

/-! ## Objects -/

section Objects

variable {optional : List String} {members : List (String × Json)}

theorem nullAt_object_iff {fields : List (String × Shape)} {position : Position} :
    NullAt shapes (.object optional fields) (.object members) position ↔
      (∃ key ∈ optional, members.lookup key = some .null ∧ position = [.key key]) ∨
      ∃ key child value rest,
        fields.lookup key = some child ∧ members.lookup key = some value ∧ NullAt shapes child value rest ∧
          position = .key key :: rest := by
  constructor
  · intro null
    cases null with
    | null listed isNull => exact Or.inl ⟨_, listed, isNull, rfl⟩
    | field described present inside => exact Or.inr ⟨_, _, _, _, described, present, inside, rfl⟩
  · rintro (⟨key, listed, isNull, rfl⟩ | ⟨key, child, value, rest, described, present, inside, rfl⟩)
    · exact .null listed isNull
    · exact .field described present inside

/-- A copy that stands where the walk has removed what some of the fields describe. -/
structure Stands (shapes : Shapes) (optional : List String) (members : List (String × Json))
    (visited : List (String × Shape)) (copy : Copy) : Prop where
  removes : copy.getD members =
    Json.withoutMembers (nullsAt shapes (.object optional visited) (.object members)) members
  keeps : copy = none ↔ ∀ position, ¬ NullAt shapes (.object optional visited) (.object members) position

theorem any_isNull_iff (content : Option Json) : content.any Json.isNull = true ↔ content = some .null := by
  cases content with
  | none => simp
  | some value => cases value <;> simp [Json.isNull]

theorem deleteNulls_spec (keys visited : List String) (copy : Copy)
    (stands : copy.getD members =
      members.filter fun member => !(visited.contains member.1 && (members.lookup member.1).any Json.isNull))
    (keeps : copy = none ↔ ∀ key ∈ visited, members.lookup key ≠ some .null) :
    (deleteNulls members keys copy).getD members =
      (members.filter fun member =>
        !((visited ++ keys).contains member.1 && (members.lookup member.1).any Json.isNull)) ∧
    (deleteNulls members keys copy = none ↔ ∀ key ∈ visited ++ keys, members.lookup key ≠ some .null) := by
  induction keys generalizing visited copy with
  | nil =>
    rw [List.append_nil]
    exact ⟨stands, keeps⟩
  | cons key rest ih =>
    rw [deleteNulls, List.append_cons]
    split
    next isNull =>
      refine ih (visited ++ [key]) _ ?_ ?_
      · rw [Option.getD_some, stands, List.filter_filter]
        apply List.filter_congr
        intro member _
        by_cases own : member.1 = key
        · rw [own, isNull]
          simp
        · simp [own]
      · refine ⟨fun impossible => (by cases impossible), fun nowhere => ?_⟩
        exact absurd ((any_isNull_iff _).mp isNull) (nowhere key (List.mem_append_right _ List.mem_cons_self))
    next content =>
      refine ih (visited ++ [key]) _ ?_ ?_
      · rw [stands]
        apply List.filter_congr
        intro member _
        by_cases own : member.1 = key
        · rw [own, Bool.eq_false_iff.mpr content]
          simp
        · simp [own]
      · rw [keeps]
        constructor
        · intro nowhere other member
          rcases List.mem_append.mp member with early | last
          · exact nowhere other early
          · rw [List.mem_singleton.mp last]
            exact mt (any_isNull_iff _).mpr content
        · exact fun nowhere other member => nowhere other (List.mem_append_left _ member)

theorem stands_deleteNulls : Stands shapes optional members [] (deleteNulls members optional none) := by
  have start : (none : Copy).getD members =
      members.filter fun member =>
        !(([] : List String).contains member.1 && (members.lookup member.1).any Json.isNull) := by
    simp
  rcases deleteNulls_spec optional [] none start (by simp) with ⟨removes, keeps⟩
  rw [List.nil_append] at removes keeps
  constructor
  · rw [removes, Json.withoutMembers_of_flat]
    · apply List.filter_congr
      intro member _
      rw [Bool.not_inj_iff, Bool.eq_iff_iff, nullsAt_eq_true_iff, Bool.and_eq_true, any_isNull_iff,
        List.contains_iff_mem]
      constructor
      · rintro ⟨listed, isNull⟩
        exact .null listed isNull
      · intro null
        cases null with
        | null listed isNull => exact ⟨listed, isNull⟩
        | field described _ _ => cases described
    · intro key step rest
      refine nullsAt_eq_false fun null => ?_
      cases null with
      | field described _ _ => cases described
  · rw [keeps]
    constructor
    · intro nowhere position null
      cases null with
      | null listed isNull => exact nowhere _ listed isNull
      | field described _ _ => cases described
    · intro nowhere key listed isNull
      exact nowhere _ (.null listed isNull)

variable {visited : List (String × Shape)}

/-- What one more field adds to the positions. -/
theorem nullAt_snoc_iff {key : String} {child : Shape} {position : Position}
    (unvisited : visited.lookup key = none) :
    NullAt shapes (.object optional (visited ++ [(key, child)])) (.object members) position ↔
      NullAt shapes (.object optional visited) (.object members) position ∨
      ∃ value rest, members.lookup key = some value ∧ NullAt shapes child value rest ∧
        position = .key key :: rest := by
  have lookups : ∀ other, (visited ++ [(key, child)]).lookup other =
      if other = key then some child else visited.lookup other := by
    intro other
    rw [List.lookup_append, OrderedMap.lookup_cons_ite, List.lookup_nil]
    by_cases own : other = key
    · rw [if_pos own, if_pos own, own, unvisited]
      rfl
    · rw [if_neg own, if_neg own, Option.or_none]
  simp only [nullAt_object_iff, lookups]
  constructor
  · rintro (null | ⟨other, shape, value, rest, described, present, inside, rfl⟩)
    · exact Or.inl (Or.inl null)
    · by_cases own : other = key
      · rw [if_pos own] at described
        cases described
        rw [own] at present ⊢
        exact Or.inr ⟨value, rest, present, inside, rfl⟩
      · rw [if_neg own] at described
        exact Or.inl (Or.inr ⟨other, shape, value, rest, described, present, inside, rfl⟩)
  · rintro ((null | ⟨other, shape, value, rest, described, present, inside, rfl⟩) |
      ⟨value, rest, present, inside, rfl⟩)
    · exact Or.inl null
    · refine Or.inr ⟨other, shape, value, rest, ?_, present, inside, rfl⟩
      rw [if_neg fun own => ?_]
      · exact described
      · rw [own, unvisited] at described
        cases described
    · exact Or.inr ⟨key, child, value, rest, if_pos rfl, present, inside, rfl⟩

/-- A field below which nothing is to go leaves the copy as it stands. -/
theorem Stands.snoc_of_nothing {copy : Copy} {key : String} {child : Shape}
    (stands : Stands shapes optional members visited copy) (unvisited : visited.lookup key = none)
    (nothing : ∀ value, members.lookup key = some value -> ∀ position, ¬ NullAt shapes child value position) :
    Stands shapes optional members (visited ++ [(key, child)]) copy := by
  have same : ∀ position, NullAt shapes (.object optional (visited ++ [(key, child)])) (.object members) position ↔
      NullAt shapes (.object optional visited) (.object members) position := by
    intro position
    rw [nullAt_snoc_iff unvisited]
    refine or_iff_left ?_
    rintro ⟨value, rest, present, inside, _⟩
    exact nothing value present rest inside
  have tests : nullsAt shapes (.object optional (visited ++ [(key, child)])) (.object members) =
      nullsAt shapes (.object optional visited) (.object members) := by
    funext position
    exact nullsAt_congr (same position)
  refine ⟨?_, stands.keeps.trans (forall_congr' fun position => not_congr (same position).symm)⟩
  rw [tests]
  exact stands.removes

/-- Nothing is removed below a field that is not visited yet. -/
theorem not_nullAt_below {key : String} {step : Step} {rest : Position}
    (unvisited : visited.lookup key = none) :
    ¬ NullAt shapes (.object optional visited) (.object members) (.key key :: step :: rest) := by
  intro null
  cases null with
  | field described _ _ =>
    rw [unvisited] at described
    cases described

/-- A field whose value is walked to a new one: that one is set in the copy. -/
theorem Stands.snoc_of_fresh {copy : Copy} {key : String} {child : Shape}
    {value next : Json} (stands : Stands shapes optional members visited copy) (unvisited : visited.lookup key = none)
    (distinct : (members.map Prod.fst).Nodup) (present : members.lookup key = some value)
    (kept : ¬ NullAt shapes (.object optional visited) (.object members) [.key key])
    (walked : Walked shapes child value (.fresh next)) :
    Stands shapes optional members (visited ++ [(key, child)])
      (some (OrderedMap.setEntries key next (copy.getD members))) := by
  have below : ∀ rest,
      NullAt shapes (.object optional (visited ++ [(key, child)])) (.object members) (.key key :: rest) ↔
      NullAt shapes child value rest := by
    intro rest
    rw [nullAt_snoc_iff unvisited]
    constructor
    · rintro (null | ⟨other, later, found, inside, same⟩)
      · cases rest with
        | nil => exact absurd null kept
        | cons step rest => exact absurd null (not_nullAt_below unvisited)
      · rw [present] at found
        cases found
        cases same
        exact inside
    · exact fun inside => Or.inr ⟨value, rest, present, inside, rfl⟩
  have inside :
      Json.beyond (nullsAt shapes (.object optional (visited ++ [(key, child)])) (.object members)) (.key key) =
      nullsAt shapes child value := by
    funext rest
    exact nullsAt_congr (below rest)
  constructor
  · rw [Option.getD_some, stands.removes]
    have set : next = value.without (nullsAt shapes child value) := walked.removes
    rw [set, ← inside]
    apply Json.setEntries_withoutMembers distinct present
    · exact nullsAt_eq_false (mt (below []).mp not_nullAt_nil)
    · intro rest
      cases rest with
      | nil => exact nullsAt_eq_false kept
      | cons step rest => exact nullsAt_eq_false (not_nullAt_below unvisited)
    · intro other rest apart
      refine nullsAt_congr ?_
      rw [nullAt_snoc_iff unvisited]
      refine (or_iff_left ?_).symm
      rintro ⟨_, _, _, _, same⟩
      cases same
      exact apart rfl
  · constructor
    · intro impossible
      cases impossible
    · intro nowhere
      have none := walked.keeps.mpr fun rest null => nowhere _ ((below rest).mpr null)
      cases none

/-- The second loop, from a copy that stands to one that stands for all fields. -/
theorem walkFields_spec (distinct : (members.map Prod.fst).Nodup) (fields visited : List (String × Shape)) (copy : Copy)
    (apart : ((visited ++ fields).map Prod.fst).Nodup)
    (each : ∀ key child value, (key, child) ∈ fields -> members.lookup key = some value -> Walks shapes child value)
    (stands : Stands shapes optional members visited copy) :
    ∃ final, (∃ bound, ∀ depth, bound ≤ depth ->
        walkFields (omitNulls shapes depth) members fields copy = .ok final) ∧
      Stands shapes optional members (visited ++ fields) final := by
  induction fields generalizing visited copy with
  | nil =>
    rw [List.append_nil]
    exact ⟨copy, ⟨0, fun _ _ => rfl⟩, stands⟩
  | cons field rest ih =>
    rcases field with ⟨key, child⟩
    have unvisited : visited.lookup key = none := by
      rw [List.map_append, List.map_cons] at apart
      apply OrderedMap.lookup_eq_none_of_not_mem
      intro early
      exact (List.nodup_append.mp apart).2.2 key early key List.mem_cons_self rfl
    rw [List.append_cons] at apart ⊢
    have eachLater : ∀ other shape value, (other, shape) ∈ rest -> members.lookup other = some value ->
        Walks shapes shape value := fun other shape value member =>
          each other shape value (List.mem_cons_of_mem _ member)
    cases current : (copy.getD members).lookup key with
    | none =>
      have nothing : ∀ value, members.lookup key = some value ->
          ∀ position, ¬ NullAt shapes child value position := by
        intro value present position null
        rw [stands.removes] at current
        cases gone : nullsAt shapes (.object optional visited) (.object members) [.key key] with
        | false =>
          rw [Json.lookup_withoutMembers members gone, present] at current
          cases current
        | true =>
          cases nullsAt_eq_true_iff.mp gone with
          | null _ isNull =>
            rw [present] at isNull
            cases isNull
            exact not_nullAt_of_isLeaf rfl null
          | field _ _ inside => exact not_nullAt_nil inside
      rcases ih _ copy apart eachLater (stands.snoc_of_nothing unvisited nothing) with
        ⟨final, ⟨bound, ends⟩, later⟩
      refine ⟨final, ⟨bound, fun depth enough => ?_⟩, later⟩
      rw [walkFields, current]
      exact ends depth enough
    | some held =>
      have kept : ¬ NullAt shapes (.object optional visited) (.object members) [.key key] := by
        intro null
        rw [stands.removes, Json.lookup_withoutMembers_of_removed members (nullsAt_eq_true_iff.mpr null)] at current
        cases current
      have untouched : Json.beyond (nullsAt shapes (.object optional visited) (.object members)) (.key key) =
          fun _ => false := by
        funext position
        cases position with
        | nil => exact nullsAt_eq_false kept
        | cons step rest => exact nullsAt_eq_false (not_nullAt_below unvisited)
      have present : members.lookup key = some held := by
        rw [stands.removes, Json.lookup_withoutMembers members (nullsAt_eq_false kept), untouched] at current
        rcases Option.map_eq_some_iff.mp current with ⟨value, found, same⟩
        rw [found, ← same, Json.without_nothing]
      rcases each key child held List.mem_cons_self present with ⟨returned, ⟨bound, ends⟩, walked⟩
      cases returned with
      | argument =>
        have nothing : ∀ value, members.lookup key = some value ->
            ∀ position, ¬ NullAt shapes child value position := by
          intro value found
          rw [present] at found
          cases found
          exact walked.keeps.mp rfl
        rcases ih _ copy apart eachLater (stands.snoc_of_nothing unvisited nothing) with
          ⟨final, ⟨more, later⟩, result⟩
        refine ⟨final, ⟨max bound more, fun depth enough => ?_⟩, result⟩
        rw [walkFields, current]
        dsimp only
        rw [ends depth (Nat.max_le.mp enough).1]
        exact later depth (Nat.max_le.mp enough).2
      | fresh next =>
        rcases ih _ _ apart eachLater
          (stands.snoc_of_fresh unvisited distinct present kept walked) with ⟨final, ⟨more, later⟩, result⟩
        refine ⟨final, ⟨max bound more, fun depth enough => ?_⟩, result⟩
        rw [walkFields, current]
        dsimp only
        rw [ends depth (Nat.max_le.mp enough).1]
        exact later depth (Nat.max_le.mp enough).2

theorem walks_object {fields : List (String × Shape)} (distinct : (members.map Prod.fst).Nodup)
    (apart : (fields.map Prod.fst).Nodup)
    (each : ∀ key child value, (key, child) ∈ fields -> members.lookup key = some value -> Walks shapes child value) :
    Walks shapes (.object optional fields) (.object members) := by
  rcases walkFields_spec distinct fields [] _ apart each stands_deleteNulls with ⟨final, ⟨bound, ends⟩, stands⟩
  rw [List.nil_append] at stands
  cases final with
  | none =>
    refine ⟨.argument, ends_of_turn bound fun depth enough => ?_, walked_of_nothing (stands.keeps.mp rfl)⟩
    rw [omitNulls, ends depth enough]
    rfl
  | some copy =>
    refine ⟨.fresh (.object copy), ends_of_turn bound fun depth enough => ?_, ?_, ?_⟩
    · rw [omitNulls, ends depth enough]
      rfl
    · exact congrArg Json.object stands.removes
    · constructor
      · intro impossible
        cases impossible
      · intro nowhere
        cases stands.keeps.mpr nowhere

end Objects

/-! ## Tables -/

/-- A shape whose names the table has. -/
inductive Resolves (shapes : Shapes) : Shape -> Prop where
  | object {name : String} {optional : List String} {fields : List (String × Shape)}
      (found : shapes.get? name = some (.object optional fields)) : Resolves shapes (.named name)
  | variants {name discriminator : String} {variants : List (String × String)}
      (found : shapes.get? name = some (.variants discriminator variants)) : Resolves shapes (.named name)
  | array {shape : Shape} (inside : Resolves shapes shape) : Resolves shapes (.array shape)

/-- A table that describes objects field by field, and names only what it has. -/
structure Closed (shapes : Shapes) : Prop where
  apart : ∀ {name optional fields}, shapes.get? name = some (.object optional fields) ->
    (fields.map Prod.fst).Nodup
  fields : ∀ {name optional fields}, shapes.get? name = some (.object optional fields) ->
    ∀ key child, (key, child) ∈ fields -> Resolves shapes child
  variants : ∀ {name discriminator variants}, shapes.get? name = some (.variants discriminator variants) ->
    ∀ tag member, variants.lookup tag = some member ->
      ∃ optional fields, shapes.get? member = some (.object optional fields)

/-- Every value can be walked along every shape of such a table. -/
theorem walks_of_resolves (closed : Closed shapes) (value : Json) (distinct : DistinctKeys value)
    (resolves : Resolves shapes shape) : Walks shapes shape value := by
  induction value using Json.induction generalizing shape with
  | leaf value leaf =>
    have objects : ∀ optional fields, Walks shapes (.object optional fields) value := by
      intro optional fields
      refine walks_of_argument (fun depth => ?_) fun _ => not_nullAt_of_isLeaf leaf
      cases value <;> first | rfl | cases leaf
    induction resolves with
    | object found => exact walks_named found (objects _ _)
    | variants found =>
      refine walks_named found (walks_variants fun tag name recognised => ?_)
      rcases closed.variants found tag name recognised with ⟨optional, fields, target⟩
      exact walks_named target (objects optional fields)
    | array _ _ =>
      refine walks_of_argument (fun depth => ?_) fun _ => not_nullAt_of_isLeaf leaf
      cases value <;> first | rfl | cases leaf
  | array items each =>
    have objects : ∀ optional fields, Walks shapes (.object optional fields) (.array items) := by
      intro optional fields
      refine walks_of_argument (fun depth => rfl) fun position null => ?_
      cases null
    cases resolves with
    | object found => exact walks_named found (objects _ _)
    | variants found =>
      refine walks_named found (walks_variants fun tag name recognised => ?_)
      rcases closed.variants found tag name recognised with ⟨optional, fields, target⟩
      exact walks_named target (objects optional fields)
    | array inside => exact walks_array fun item member => each item member (distinct.item member) inside
  | object members each =>
    have objects : ∀ {name optional fields}, shapes.get? name = some (.object optional fields) ->
        Walks shapes (.object optional fields) (.object members) := by
      intro name optional fields found
      refine walks_object distinct.keys (closed.apart found) fun key child value member present => ?_
      have own := OrderedMap.mem_of_lookup_eq_some present
      exact each (key, value) own (distinct.member own) (closed.fields found key child member)
    cases resolves with
    | object found => exact walks_named found (objects found)
    | variants found =>
      refine walks_named found (walks_variants fun tag name recognised => ?_)
      rcases closed.variants found tag name recognised with ⟨optional, fields, target⟩
      exact walks_named target (objects target)
    | array _ =>
      refine walks_of_argument (fun depth => rfl) fun position null => ?_
      cases null

/-! ## Walking again -/

theorem distinctKeys_without (value : Json) (distinct : DistinctKeys value) (removed : Position -> Bool) :
    DistinctKeys (value.without removed) := by
  induction value using Json.induction generalizing removed with
  | leaf value leaf =>
    rw [Json.without_of_isLeaf leaf]
    exact distinct
  | array items each =>
    rw [Json.without]
    apply distinctKeys_array
    intro left member
    rcases Json.exists_of_mem_withoutItems member with ⟨item, listed, below, rfl⟩
    exact each item listed (distinct.item listed) below
  | object members each =>
    rw [Json.without]
    apply distinctKeys_object (distinct.keys.sublist (Json.keys_withoutMembers_sublist members))
    intro left member
    rcases Json.exists_of_mem_withoutMembers member with ⟨source, listed, below, same⟩
    rw [same]
    exact each source listed (distinct.member listed) below

/-- A leaf is left only where it was. -/
theorem eq_of_without_eq_leaf {value leaf : Json} {removed : Position -> Bool} (same : value.without removed = leaf)
    (isLeaf : leaf.isLeaf = true) : value = leaf := by
  cases value with
  | array items | object items =>
    rw [Json.without] at same
    rw [← same] at isLeaf
    cases isLeaf
  | null | bool | number | string => exact same

/-- Nothing is left to remove. -/
theorem not_nullAt_without {left : Json} (null : NullAt shapes shape left position)
    (value : Json) : left ≠ value.without (nullsAt shapes shape value) := by
  induction null generalizing value with
  | @named name shape left position found _ ih =>
    have same : nullsAt shapes (.named name) value = nullsAt shapes shape value := by
      funext position
      refine nullsAt_congr ⟨fun null => ?_, .named found⟩
      cases null with
      | named other inside =>
        rw [found] at other
        cases other
        exact inside
    rw [same]
    exact ih value
  | @item shape items place item position placed _ ih =>
    intro same
    cases value with
    | array all =>
      rw [Json.without] at same
      cases same
      have kept : ∀ place, nullsAt shapes (.array shape) (.array all) [.index place] = false := by
        intro place
        refine nullsAt_eq_false fun null => ?_
        cases null with
        | item _ inside => exact not_nullAt_nil inside
      rw [Json.getElem?_withoutItems_of_kept all kept] at placed
      rcases Option.map_eq_some_iff.mp placed with ⟨source, listed, cleaned⟩
      refine ih source ?_
      rw [← cleaned]
      congr 1
      funext rest
      refine nullsAt_congr ?_
      rw [nullAt_array_iff, listed]
      constructor
      · rintro ⟨other, equal, inside⟩
        cases equal
        exact inside
      · exact fun inside => ⟨source, rfl, inside⟩
    | object | null | bool | number | string => cases same
  | @variant discriminator tag name variants members position tagged recognised _ ih =>
    intro same
    cases value with
    | object all =>
      rw [Json.without] at same
      cases same
      have kept : nullsAt shapes (.variants discriminator variants) (.object all) [.key discriminator] = false := by
        cases gone : nullsAt shapes (.variants discriminator variants) (.object all) [.key discriminator] with
        | false => rfl
        | true =>
          rw [Json.lookup_withoutMembers_of_removed all gone] at tagged
          cases tagged
      rw [Json.lookup_withoutMembers all kept] at tagged
      rcases Option.map_eq_some_iff.mp tagged with ⟨source, listed, cleaned⟩
      have string := eq_of_without_eq_leaf cleaned rfl
      subst string
      have tests : nullsAt shapes (.variants discriminator variants) (.object all) =
          nullsAt shapes (.named name) (.object all) := by
        funext rest
        refine nullsAt_congr ⟨fun null => ?_, .variant listed recognised⟩
        cases null with
        | variant other known inside =>
          rw [listed] at other
          cases other
          rw [recognised] at known
          cases known
          exact inside
      refine ih (.object all) ?_
      rw [tests, Json.without]
    | array | null | bool | number | string => cases same
  | @null optional fields members key listed isNull =>
    intro same
    cases value with
    | object all =>
      rw [Json.without] at same
      cases same
      cases gone : nullsAt shapes (.object optional fields) (.object all) [.key key] with
      | true =>
        rw [Json.lookup_withoutMembers_of_removed all gone] at isNull
        cases isNull
      | false =>
        rw [Json.lookup_withoutMembers all gone] at isNull
        rcases Option.map_eq_some_iff.mp isNull with ⟨source, present, cleaned⟩
        have null := eq_of_without_eq_leaf cleaned rfl
        subst null
        rw [nullsAt_eq_true_iff.mpr (.null listed present)] at gone
        cases gone
    | array | null | bool | number | string => cases same
  | @field optional fields members key child value' position described present _ ih =>
    intro same
    cases value with
    | object all =>
      rw [Json.without] at same
      cases same
      cases gone : nullsAt shapes (.object optional fields) (.object all) [.key key] with
      | true =>
        rw [Json.lookup_withoutMembers_of_removed all gone] at present
        cases present
      | false =>
        rw [Json.lookup_withoutMembers all gone] at present
        rcases Option.map_eq_some_iff.mp present with ⟨source, listed, cleaned⟩
        refine ih source ?_
        rw [← cleaned]
        congr 1
        funext rest
        refine nullsAt_congr ⟨fun null => ?_, .field described listed⟩
        cases null with
        | null optionalKey isNull =>
          rw [nullsAt_eq_true_iff.mpr (.null optionalKey isNull)] at gone
          cases gone
        | field other found inside =>
          rw [described] at other
          cases other
          rw [listed] at found
          cases found
          exact inside
    | array | null | bool | number | string => cases same

/-- What a walk returns is handed back as it is by the next. -/
theorem Walked.again {value : Json} (walked : Walked shapes shape value returned)
    (position : Position) : ¬ NullAt shapes shape (returned.value value) position :=
  fun null => not_nullAt_without null value walked.removes

end Generator
end AgUi
