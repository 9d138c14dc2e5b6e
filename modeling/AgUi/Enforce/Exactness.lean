import Mathlib.Data.List.Pairwise
import AgUi.Enforce.Trimming

namespace AgUi
namespace Enforce

open Library Protocol Schematic

/-!
# What stripping removes

Stripping removes exactly what it reports and what it leaves is described and
stable, unless it keeps the value of a key `__proto__`: the key is then gone
without a report.
-/

variable {S : Type} [Schematic S]

/-! ## The reports are positions -/

/-- What is reported of the positions, under the path of the value. -/
def report (path : String) (removed : List Position) : List String :=
  removed.map fun position => path ++ render position

theorem append_render (path : String) (step : Step) (position : Position) :
    path ++ render (step :: position) = path ++ "/" ++ Step.text step ++ render position := by
  simp only [render, String.append_assoc]

theorem report_removed (path : String) (step : Step) (removed : List Position) :
    report path ([step] :: removed) = (path ++ "/" ++ Step.text step) :: report path removed := by
  rw [report, List.map_cons, append_render, render, String.append_empty]
  rfl

theorem report_stripped (path : String) (step : Step) (inside removed : List Position) :
    report path (inside.map (step :: ·) ++ removed) =
      report (path ++ "/" ++ Step.text step) inside ++ report path removed := by
  rw [report, List.map_append, List.map_map]
  congr 1
  exact List.map_congr_left fun position _ => append_render path step position

/-- What the stripper says of a value, read as positions. -/
def Rendered (value : Json) : Prop :=
  ∀ (schema : S) (path : String), stripAgainst path value schema =
    (trim value schema).map fun result => (result.1, report path result.2)

theorem stripFields_eq_trimMembers {members : List (String × Json)}
    (each : ∀ member ∈ members, Rendered (S := S) member.2) (shape : List (String × S))
    (specOpen : Bool) (path : String) : stripFields path shape specOpen members =
      (trimMembers (fieldTreatment shape specOpen) members).map fun result => (result.1, report path result.2) := by
  induction members with
  | nil => rfl
  | cons member rest ih =>
    rcases member with ⟨key, value⟩
    have later := ih (List.forall_mem_cons.mp each).2
    have own := each (key, value) List.mem_cons_self
    rw [stripFields, trimMembers, later]
    cases trimMembers (fieldTreatment shape specOpen) rest with
    | none => rfl
    | some result =>
      rcases result with ⟨kept, removed⟩
      simp only [Option.map_some, fieldTreatment]
      cases shape.lookup key with
      | none =>
        cases specOpen with
        | true => rfl
        | false =>
          simp only [Bool.false_eq_true, if_false, Option.map_some, report_removed, Step.text]
      | some field =>
        dsimp only
        rw [own]
        cases trim value field with
        | none =>
          cases admitsUndefined field with
          | true => simp only [if_true, Option.map_none, Option.map_some, report_removed, Step.text]
          | false => rfl
        | some result => simp only [Option.map_some, report_stripped, Step.text]

theorem stripEntries_eq_trimMembers {members : List (String × Json)}
    (each : ∀ member ∈ members, Rendered (S := S) member.2) (valueType : S) (path : String) :
    some (stripEntries path valueType members) =
      (trimMembers (fun _ => .strip valueType true) members).map fun result => (result.1, report path result.2) := by
  induction members with
  | nil => rfl
  | cons member rest ih =>
    rcases member with ⟨key, value⟩
    have later := ih (List.forall_mem_cons.mp each).2
    rcases Option.map_eq_some_iff.mp later.symm with ⟨⟨kept, removed⟩, done, same⟩
    rw [stripEntries, trimMembers, done, each (key, value) List.mem_cons_self, ← same]
    dsimp only
    cases trim value valueType with
    | none => simp only [if_true, Option.map_none, Option.map_some, report_removed, Step.text]
    | some result => simp only [Option.map_some, report_stripped, Step.text]

theorem stripItems_eq_trimItems {items : List Json}
    (each : ∀ item ∈ items, Rendered (S := S) item) (element : S) (path : String) (index : Nat) :
    stripItems path element index items =
      ((trimItems element index items).1, report path (trimItems element index items).2) := by
  induction items generalizing index with
  | nil => rfl
  | cons item rest ih =>
    have later := ih (List.forall_mem_cons.mp each).2 (index + 1)
    rw [stripItems, trimItems, later, each item List.mem_cons_self]
    cases trim item element with
    | none => simp only [Option.map_none, report_removed, Step.text]
    | some result => simp only [Option.map_some, report_stripped, Step.text]

/-- The stripper removes and reports what trimming does. -/
theorem stripAgainst_eq_trim (value : Json) : Rendered (S := S) value := by
  induction value using Json.induction with
  | leaf value leaf =>
    intro schema path
    cases value with
    | array items | object members => cases leaf
    | _ => rfl
  | array items each =>
    intro schema path
    rw [stripAgainst, trim, readArray]
    cases descendArray (unwrap schema) with
    | items element =>
      dsimp only
      rw [stripItems_eq_trimItems each element path 0]
      rfl
    | _ => rfl
  | object members each =>
    intro schema path
    rw [stripAgainst, trim, readObject]
    cases descendObject (unwrap schema) members with
    | fields shape specOpen =>
      simp only [Descent.reading]
      rw [stripFields_eq_trimMembers each, Option.map_map, Option.map_map]
      rfl
    | entries valueType =>
      simp only [Descent.reading]
      have done := congrArg (Option.map fun result : List (String × Json) × List String =>
        (Json.object result.1, result.2)) (stripEntries_eq_trimMembers each valueType path)
      rw [Option.map_map] at done
      rw [Option.map_map]
      exact done
    | _ => rfl

/-! ## The removals as positions -/

/-- Neither is above the other. -/
def Apart (first second : Position) : Prop :=
  ¬ first <+: second ∧ ¬ second <+: first

instance : Std.Symm Apart where
  symm _ _ apart := ⟨apart.2, apart.1⟩

theorem apart_of_steps {first second : Step} (different : first ≠ second) (rest later : Position) :
    Apart (first :: rest) (second :: later) :=
  ⟨fun initial => different (List.cons_prefix_cons.mp initial).1,
    fun initial => different (List.cons_prefix_cons.mp initial).1.symm⟩

theorem Apart.cons {first second : Position} (step : Step) (apart : Apart first second) :
    Apart (step :: first) (step :: second) :=
  ⟨fun initial => apart.1 (List.cons_prefix_cons.mp initial).2,
    fun initial => apart.2 (List.cons_prefix_cons.mp initial).2⟩

/-- Objects have each key once. -/
def DistinctKeys (value : Json) : Prop :=
  ∀ position members, value.at? position = some (.object members) -> (members.map Prod.fst).Nodup

theorem DistinctKeys.keys {members : List (String × Json)} (distinct : DistinctKeys (.object members)) :
    (members.map Prod.fst).Nodup :=
  distinct [] members rfl

theorem DistinctKeys.item {items : List Json} (distinct : DistinctKeys (.array items)) {item : Json}
    (member : item ∈ items) : DistinctKeys item := by
  intro position members place
  rcases List.mem_iff_getElem?.mp member with ⟨index, own⟩
  apply distinct (.index index :: position) members
  change items[index]?.bind _ = _
  rw [own]
  exact place

theorem DistinctKeys.member {members : List (String × Json)} (distinct : DistinctKeys (.object members))
    {key : String} {value : Json} (member : (key, value) ∈ members) : DistinctKeys value := by
  intro position inner place
  apply distinct (.key key :: position) inner
  change (members.lookup key).bind _ = _
  rw [OrderedMap.lookup_eq_some_of_mem distinct.keys member]
  exact place

theorem distinctKeys_array {items : List Json} (each : ∀ item ∈ items, DistinctKeys item) :
    DistinctKeys (.array items) := by
  intro position members place
  cases position with
  | nil => cases place
  | cons step rest =>
    cases step with
    | key name => cases place
    | index index =>
      rcases Option.bind_eq_some_iff.mp place with ⟨item, own, inside⟩
      exact each item (List.mem_of_getElem? own) rest members inside

theorem distinctKeys_object {members : List (String × Json)} (nodup : (members.map Prod.fst).Nodup)
    (each : ∀ member ∈ members, DistinctKeys member.2) : DistinctKeys (.object members) := by
  intro position inner place
  cases position with
  | nil =>
    cases place
    exact nodup
  | cons step rest =>
    cases step with
    | index index => cases place
    | key name =>
      rcases Option.bind_eq_some_iff.mp place with ⟨value, own, inside⟩
      exact each _ (OrderedMap.mem_of_lookup_eq_some own) rest inner inside

/-- Positions in a value, none of which is above another or is the value itself. -/
structure Places (value : Json) (removed : List Position) : Prop where
  below : ∀ position ∈ removed, position ≠ []
  present : ∀ position ∈ removed, (value.at? position).isSome
  apart : removed.Pairwise Apart

theorem places_nil (value : Json) : Places value [] where
  below := fun _ impossible => absurd impossible List.not_mem_nil
  present := fun _ impossible => absurd impossible List.not_mem_nil
  apart := .nil

/-- What is removed of a value has places in it. -/
def TrimsPlaces (value : Json) : Prop :=
  ∀ (schema : S) (out : Json) (removed : List Position),
    trim value schema = some (out, removed) -> DistinctKeys value -> Places value removed

/-- What is removed below one step: the step itself, or places in the value there. -/
structure PlacesBelow (value : Json) (inside : List Position) : Prop where
  present : ∀ position ∈ inside, (value.at? position).isSome
  apart : inside.Pairwise Apart

theorem Places.below_step {value : Json} {inside : List Position} (places : Places value inside) :
    PlacesBelow value inside :=
  ⟨places.present, places.apart⟩

theorem placesBelow_nil (value : Json) : PlacesBelow value [] :=
  (places_nil value).below_step

theorem placesBelow_self (value : Json) : PlacesBelow value [[]] where
  present := by
    intro position member
    rw [List.mem_singleton.mp member]
    rfl
  apart := List.pairwise_singleton _ _

/-- Places below a step are apart from places below others. -/
theorem PlacesBelow.append {value : Json} {inside reports : List Position} (below : PlacesBelow value inside)
    {step : Step} (apart : reports.Pairwise Apart)
    (others : ∀ position ∈ reports, ∃ other rest,
      position = other :: rest ∧ step ≠ other) :
    (inside.map (step :: ·) ++ reports).Pairwise Apart := by
  rw [List.pairwise_append]
  refine ⟨?_, apart, ?_⟩
  · rw [List.pairwise_map]
    exact below.apart.imp fun held => held.cons step
  · intro first member second later
    rcases List.mem_map.mp member with ⟨rest, _, rfl⟩
    rcases others second later with ⟨other, behind, rfl, different⟩
    exact apart_of_steps different rest behind

variable {treatment : String -> Treatment S}

theorem Taken.places {key : String} {value : Json}
    {later kept : List (String × Json)} {reports removed : List Position}
    (taken : Taken treatment key value later reports kept removed) (own : TrimsPlaces (S := S) value)
    (distinct : DistinctKeys value) :
    ∃ inside, removed = inside.map (.key key :: ·) ++ reports ∧ PlacesBelow value inside := by
  cases taken with
  | kept treated => exact ⟨[], rfl, placesBelow_nil value⟩
  | removed treated | dropped treated unrecognised => exact ⟨[[]], rfl, placesBelow_self value⟩
  | stripped treated trimmed => exact ⟨_, rfl, (own _ _ _ trimmed distinct).below_step⟩

theorem trimMembers_places {members kept : List (String × Json)}
    {removed : List Position} (each : ∀ member ∈ members, TrimsPlaces (S := S) member.2)
    (distinct : ∀ member ∈ members, DistinctKeys member.2) (nodup : (members.map Prod.fst).Nodup)
    (done : trimMembers treatment members = some (kept, removed)) : (∀ position ∈ removed, ∃ key value rest,
      position = .key key :: rest ∧ (key, value) ∈ members ∧ (value.at? rest).isSome) ∧ removed.Pairwise Apart := by
  induction members generalizing kept removed with
  | nil =>
    cases done
    exact ⟨fun _ impossible => absurd impossible List.not_mem_nil, .nil⟩
  | cons member rest ih =>
    rcases member with ⟨key, value⟩
    rcases trimMembers_cons done with ⟨later, reports, behind, taken⟩
    rcases taken.places (each _ List.mem_cons_self) (distinct _ List.mem_cons_self) with ⟨inside, rfl, below⟩
    rcases List.nodup_cons.mp nodup with ⟨fresh, others⟩
    rcases ih (List.forall_mem_cons.mp each).2
      (List.forall_mem_cons.mp distinct).2 others behind with ⟨present, apart⟩
    constructor
    · intro position member
      rcases List.mem_append.mp member with own | behind
      · rcases List.mem_map.mp own with ⟨rest, place, rfl⟩
        exact ⟨key, value, rest, rfl, List.mem_cons_self, below.present rest place⟩
      · rcases present position behind with ⟨other, child, rest, same, listed, place⟩
        exact ⟨other, child, rest, same, .tail _ listed, place⟩
    · apply below.append apart
      intro position behind
      rcases present position behind with ⟨other, child, rest, same, listed, _⟩
      refine ⟨_, rest, same, ?_⟩
      rintro ⟨⟩
      exact fresh (List.mem_map.mpr ⟨_, listed, rfl⟩)

theorem trimItems_places {element : S} {items : List Json}
    (each : ∀ item ∈ items, TrimsPlaces (S := S) item)
    (distinct : ∀ item ∈ items, DistinctKeys item) (index : Nat) :
    (∀ position ∈ (trimItems element index items).2,
      ∃ place item rest,
        position = .index (index + place) :: rest ∧ items[place]? = some item ∧ (item.at? rest).isSome) ∧
      (trimItems element index items).2.Pairwise Apart := by
  induction items generalizing index with
  | nil => exact ⟨fun _ impossible => absurd impossible List.not_mem_nil, .nil⟩
  | cons item rest ih =>
    have own : ∃ inside, (trimItems element index (item :: rest)).2 =
        inside.map (.index index :: ·) ++ (trimItems element (index + 1) rest).2 ∧ PlacesBelow item inside := by
      cases trimmed : trim item element with
      | none =>
        rw [trimItems_cons_none rest trimmed]
        exact ⟨[[]], rfl, placesBelow_self item⟩
      | some result =>
        rw [trimItems_cons_some rest trimmed]
        exact ⟨_, rfl, (each _ List.mem_cons_self _ _ _ trimmed (distinct _ List.mem_cons_self)).below_step⟩
    rcases own with ⟨inside, same, below⟩
    rcases ih (List.forall_mem_cons.mp each).2
      (List.forall_mem_cons.mp distinct).2 (index + 1) with ⟨present, apart⟩
    rw [same]
    constructor
    · intro position member
      rcases List.mem_append.mp member with own | behind
      · rcases List.mem_map.mp own with ⟨rest, place, rfl⟩
        exact ⟨0, item, rest, rfl, rfl, below.present rest place⟩
      · rcases present position behind with ⟨place, child, rest, same, listed, present⟩
        refine ⟨place + 1, child, rest, ?_, listed, present⟩
        rw [same, Nat.add_right_comm]
        rfl
    · apply below.append apart
      intro position behind
      rcases present position behind with ⟨place, child, rest, same, _⟩
      refine ⟨_, rest, same, ?_⟩
      intro clash
      have : index = index + 1 + place := Step.index.inj clash
      omega

theorem trim_places (value : Json) : TrimsPlaces (S := S) value := by
  induction value using Json.induction with
  | leaf value leaf =>
    intro schema out removed trimmed distinct
    cases trim_spec trimmed with
    | leaf _ => exact places_nil _
    | _ => cases leaf
  | array items each =>
    intro schema out removed trimmed distinct
    cases trim_spec trimmed with
    | leaf leaf => cases leaf
    | array _ => exact places_nil _
    | items read =>
      rcases trimItems_places each (fun item => distinct.item) 0 with ⟨present, apart⟩
      refine ⟨?_, ?_, apart⟩
      · intro position member
        rcases present position member with ⟨place, item, rest, rfl, _⟩
        exact List.cons_ne_nil _ _
      · intro position member
        rcases present position member with ⟨place, item, rest, rfl, listed, inside⟩
        change (items[0 + place]?.bind _).isSome
        rw [Nat.zero_add, listed]
        exact inside
  | object members each =>
    intro schema out removed trimmed distinct
    cases trim_spec trimmed with
    | leaf leaf => cases leaf
    | whole _ => exact places_nil _
    | members read done =>
      rcases trimMembers_places each (fun member inside => distinct.member inside) distinct.keys done with
        ⟨present, apart⟩
      refine ⟨?_, ?_, apart⟩
      · intro position member
        rcases present position member with ⟨key, value, rest, rfl, _⟩
        exact List.cons_ne_nil _ _
      · intro position member
        rcases present position member with ⟨key, value, rest, rfl, listed, inside⟩
        change ((members.lookup key).bind _).isSome
        rw [OrderedMap.lookup_eq_some_of_mem distinct.keys listed]
        exact inside

/-! ## What is lost without a report -/

mutual

/-- Whether a value is recognisable where it stands. -/
def recognised : Json -> S -> Bool
  | .object members, schema =>
    match readObject schema members with
    | .members treatment => recognisedMembers treatment members
    | .unrecognised => false
    | .whole => true
  | _, _ => true

def recognisedMembers (treatment : String -> Treatment S) : List (String × Json) -> Bool
  | [] => true
  | (key, value) :: rest =>
    (match treatment key with
      | .strip schema removable => removable || recognised value schema
      | _ => true) && recognisedMembers treatment rest

end

mutual

/-- Whether the value of a key `__proto__` is kept somewhere, the key of a
record, of an open object or of the description. -/
def losesKey : Json -> S -> Bool
  | .object members, schema =>
    match readObject schema members with
    | .members treatment => losesMember treatment members
    | _ => false
  | .array items, schema =>
    match readArray schema with
    | some element => losesItem element items
    | none => false
  | _, _ => false

/-- Some member is kept under a key that a JavaScript object does not take for a member. -/
def losesMember (treatment : String -> Treatment S) : List (String × Json) -> Bool
  | [] => false
  | (key, value) :: rest =>
    (match treatment key with
      | .keep => decide (key = "__proto__")
      | .remove => false
      | .strip schema _ => recognised value schema && (decide (key = "__proto__") || losesKey value schema)) ||
    losesMember treatment rest

def losesItem (element : S) : List Json -> Bool
  | [] => false
  | item :: rest => (recognised item element && losesKey item element) || losesItem element rest

end

theorem isSome_trimMembers {members : List (String × Json)}
    (each : ∀ member ∈ members, ∀ schema : S,
      (trim member.2 schema).isSome = recognised member.2 schema)
    (treatment : String -> Treatment S) :
    (trimMembers treatment members).isSome = recognisedMembers treatment members := by
  induction members with
  | nil => rfl
  | cons member rest ih =>
    rcases member with ⟨key, value⟩
    have later := ih (List.forall_mem_cons.mp each).2
    have own := each (key, value) List.mem_cons_self
    rw [trimMembers, recognisedMembers, ← later]
    cases trimMembers treatment rest with
    | none => exact (Bool.and_false _).symm
    | some result =>
      rw [Option.isSome_some, Bool.and_true]
      cases treatment key with
      | keep => rfl
      | remove => rfl
      | strip schema removable =>
        dsimp only
        rw [← own]
        cases trim value schema with
        | some child => exact (Bool.or_true _).symm
        | none =>
          cases removable with
          | true => rfl
          | false => rfl

/-- The stripper returns exactly the values that are recognisable. -/
theorem isSome_trim (value : Json) (schema : S) : (trim value schema).isSome = recognised value schema := by
  induction value using Json.induction generalizing schema with
  | leaf value leaf =>
    cases value with
    | array items | object members => cases leaf
    | _ => rfl
  | array items each =>
    rw [trim]
    cases readArray schema with
    | none => rfl
    | some element => rfl
  | object members each =>
    rw [trim, recognised]
    cases readObject schema members with
    | whole => rfl
    | unrecognised => rfl
    | members treatment =>
      dsimp only
      rw [Option.isSome_map]
      exact isSome_trimMembers each treatment

theorem recognised_of_trim {value : Json} {schema : S} {result : Json × List Position}
    (trimmed : trim value schema = some result) : recognised value schema = true := by
  rw [← isSome_trim, trimmed]
  rfl

theorem recognised_of_none {value : Json} {schema : S} (unrecognised : trim value schema = none) :
    recognised value schema = false := by
  rw [← isSome_trim, unrecognised]
  rfl

/-- What is left is all there is, or less if something is lost. -/
def FallsShort {A : Type} [SizeOf A] (lost : Bool) (left all : A) : Prop :=
  (lost = false -> left = all) ∧ (lost = true -> sizeOf left < sizeOf all)

theorem fallsShort_refl {A : Type} [SizeOf A] (value : A) : FallsShort false value value :=
  ⟨fun _ => rfl, nofun⟩

variable {lost : Bool}

theorem FallsShort.le {A : Type} [SizeOf A] {left all : A} (falls : FallsShort lost left all) :
    sizeOf left ≤ sizeOf all := by
  cases lost with
  | false => exact Nat.le_of_eq (congrArg sizeOf (falls.1 rfl))
  | true => exact Nat.le_of_lt (falls.2 rfl)

/-- A list falls short if its head or its tail does. -/
theorem FallsShort.cons {A : Type} [SizeOf A] {first second : Bool} {head whole : A} {tail rest : List A}
    (one : FallsShort first head whole) (others : FallsShort second tail rest) :
    FallsShort (first || second) (head :: tail) (whole :: rest) := by
  constructor
  · intro none
    rcases Bool.or_eq_false_iff.mp none with ⟨kept, later⟩
    rw [one.1 kept, others.1 later]
  · intro some
    have short := one.le
    have rests := others.le
    simp only [List.cons.sizeOf_spec]
    rcases Bool.or_eq_true_iff.mp some with lost | lost
    · have := one.2 lost
      omega
    · have := others.2 lost
      omega

/-- A list without a head that it ought to have falls short. -/
theorem FallsShort.skip {A : Type} [SizeOf A] {tail rest : List A} (others : FallsShort lost tail rest)
    (whole : A) : FallsShort true tail (whole :: rest) := by
  constructor
  · intro impossible
    cases impossible
  · intro _
    have rests := others.le
    simp only [List.cons.sizeOf_spec]
    omega

/-- The key and the value that are assigned, unless nothing is. -/
theorem FallsShort.assign {lost later : Bool} {child whole : Json} {tail rest : List (String × Json)} (key : String)
    (one : FallsShort lost child whole) (others : FallsShort later tail rest) :
    FallsShort ((decide (key = "__proto__") || lost) || later) (assign key child tail) ((key, whole) :: rest) := by
  unfold Enforce.assign
  by_cases special : key = "__proto__"
  · rw [if_pos special, decide_eq_true special]
    exact others.skip (key, whole)
  · rw [if_neg special, decide_eq_false special, Bool.false_or]
    refine FallsShort.cons ⟨fun none => congrArg (Prod.mk key) (one.1 none), fun some => ?_⟩ others
    have short := one.2 some
    simp only [Prod.mk.sizeOf_spec]
    omega

/-! ## What is left -/

def among (removed : List Position) : Position -> Bool :=
  fun position => decide (position ∈ removed)

/-- The positions all start with another step. -/
def StartsElsewhere (step : Step) (positions : List Position) : Prop :=
  ∀ position ∈ positions, ∃ other rest, position = other :: rest ∧ step ≠ other

theorem among_other {step other : Step} (different : step ≠ other) (inside reports : List Position)
    (rest : Position) : among (inside.map (step :: ·) ++ reports) (other :: rest) = among reports (other :: rest) := by
  apply decide_eq_decide.mpr
  rw [List.mem_append]
  refine or_iff_right ?_
  intro member
  rcases List.mem_map.mp member with ⟨below, _, same⟩
  exact different (List.cons.inj same).1

theorem among_own {step : Step} {reports : List Position} (elsewhere : StartsElsewhere step reports)
    (inside : List Position) (rest : Position) :
    among (inside.map (step :: ·) ++ reports) (step :: rest) = among inside rest := by
  apply decide_eq_decide.mpr
  rw [List.mem_append, List.mem_map]
  constructor
  · rintro (⟨below, member, same⟩ | behind)
    · cases same
      exact member
    · rcases elsewhere _ behind with ⟨other, below, same, different⟩
      exact absurd (List.cons.inj same).1 different
  · intro member
    exact .inl ⟨rest, member, rfl⟩

theorem beyond_own {step : Step} {reports : List Position} (elsewhere : StartsElsewhere step reports)
    (inside : List Position) :
    Json.beyond (among (inside.map (step :: ·) ++ reports)) step = among inside := by
  funext rest
  exact among_own elsewhere inside rest

section

variable {key : String} {rest : List (String × Json)} {reports : List Position}

theorem withoutMembers_others (fresh : key ∉ rest.map Prod.fst) (inside : List Position) :
    Json.withoutMembers (among (inside.map (.key key :: ·) ++ reports)) rest =
      Json.withoutMembers (among reports) rest := by
  apply Json.withoutMembers_congr
  intro other listed position
  apply among_other
  rintro ⟨⟩
  exact fresh listed

theorem withoutMembers_cons_left (value : Json) (fresh : key ∉ rest.map Prod.fst)
    (elsewhere : StartsElsewhere (.key key) reports) {inside : List Position} (below : [] ∉ inside) :
    Json.withoutMembers (among (inside.map (.key key :: ·) ++ reports)) ((key, value) :: rest) =
      (key, value.without (among inside)) :: Json.withoutMembers (among reports) rest := by
  rw [Json.withoutMembers, among_own elsewhere, among, decide_eq_false below, if_neg Bool.false_ne_true,
    beyond_own elsewhere, withoutMembers_others fresh]

theorem withoutMembers_cons_gone (value : Json) (fresh : key ∉ rest.map Prod.fst) :
    Json.withoutMembers (among ([.key key] :: reports)) ((key, value) :: rest) =
      Json.withoutMembers (among reports) rest := by
  rw [Json.withoutMembers, among, decide_eq_true List.mem_cons_self, if_pos rfl]
  exact withoutMembers_others fresh [[]]

theorem withoutMembers_cons_kept (value : Json) (fresh : key ∉ rest.map Prod.fst)
    (elsewhere : StartsElsewhere (.key key) reports) :
    Json.withoutMembers (among reports) ((key, value) :: rest) =
      (key, value) :: Json.withoutMembers (among reports) rest := by
  have left := withoutMembers_cons_left value fresh elsewhere (List.not_mem_nil : [] ∉ ([] : List Position))
  rwa [show among [] = fun _ => false from rfl, Json.without_nothing] at left

end

section

variable {index : Nat} {reports : List Position}

theorem withoutItems_others (rest : List Json) (inside : List Position) :
    Json.withoutItems (among (inside.map (.index index :: ·) ++ reports)) (index + 1) rest =
      Json.withoutItems (among reports) (index + 1) rest := by
  apply Json.withoutItems_congr
  intro place later position
  apply among_other
  rintro ⟨⟩
  exact Nat.lt_irrefl _ later

theorem withoutItems_cons_left (item : Json) (rest : List Json) (elsewhere : StartsElsewhere (.index index) reports)
    {inside : List Position} (below : [] ∉ inside) :
    Json.withoutItems (among (inside.map (.index index :: ·) ++ reports)) index (item :: rest) =
      item.without (among inside) :: Json.withoutItems (among reports) (index + 1) rest := by
  rw [Json.withoutItems, among_own elsewhere, among, decide_eq_false below, if_neg Bool.false_ne_true,
    beyond_own elsewhere, withoutItems_others]

theorem withoutItems_cons_gone (item : Json) (rest : List Json) :
    Json.withoutItems (among ([.index index] :: reports)) index (item :: rest) =
      Json.withoutItems (among reports) (index + 1) rest := by
  rw [Json.withoutItems, among, decide_eq_true List.mem_cons_self, if_pos rfl]
  exact withoutItems_others rest [[]]

end

/-- What is left of a value is the value without what is removed, or less if a key is lost. -/
def LeavesTheRest (value : Json) : Prop :=
  ∀ (schema : S) (out : Json) (removed : List Position), trim value schema = some (out, removed) ->
    DistinctKeys value -> FallsShort (losesKey value schema) out (value.without (among removed))

theorem trimMembers_leaves {members kept : List (String × Json)}
    {removed : List Position} (each : ∀ member ∈ members, LeavesTheRest (S := S) member.2)
    (distinct : ∀ member ∈ members, DistinctKeys member.2) (nodup : (members.map Prod.fst).Nodup)
    (done : trimMembers treatment members = some (kept, removed)) :
    FallsShort (losesMember treatment members) kept (Json.withoutMembers (among removed) members) := by
  induction members generalizing kept removed with
  | nil =>
    cases done
    exact fallsShort_refl _
  | cons member rest ih =>
    rcases member with ⟨key, value⟩
    rcases trimMembers_cons done with ⟨later, reports, behind, taken⟩
    rcases List.nodup_cons.mp nodup with ⟨fresh, others⟩
    have rests := ih (List.forall_mem_cons.mp each).2
      (List.forall_mem_cons.mp distinct).2 others behind
    have elsewhere : StartsElsewhere (.key key) reports := by
      intro position member
      rcases (trimMembers_places (fun _ _ => trim_places _) (List.forall_mem_cons.mp distinct).2
        others behind).1 position member with ⟨other, child, below, same, listed, _⟩
      refine ⟨_, below, same, ?_⟩
      rintro ⟨⟩
      exact fresh (List.mem_map.mpr ⟨_, listed, rfl⟩)
    rw [losesMember]
    cases taken with
    | kept treated =>
      rw [treated, withoutMembers_cons_kept value fresh elsewhere]
      dsimp only
      rw [← Bool.or_false (decide _)]
      exact (fallsShort_refl value).assign key rests
    | removed treated =>
      rw [treated, withoutMembers_cons_gone value fresh]
      exact rests
    | stripped treated trimmed =>
      have below : [] ∉ _ := fun impossible =>
        (trim_places value _ _ _ trimmed (distinct _ List.mem_cons_self)).below [] impossible rfl
      rw [treated, withoutMembers_cons_left value fresh elsewhere below]
      dsimp only
      rw [recognised_of_trim trimmed, Bool.true_and]
      exact (each _ List.mem_cons_self _ _ _ trimmed (distinct _ List.mem_cons_self)).assign key rests
    | dropped treated unrecognised =>
      rw [treated, withoutMembers_cons_gone value fresh]
      dsimp only
      rw [recognised_of_none unrecognised, Bool.false_and]
      exact rests

theorem trimItems_leaves {element : S} {items : List Json}
    (each : ∀ item ∈ items, LeavesTheRest (S := S) item)
    (distinct : ∀ item ∈ items, DistinctKeys item) (index : Nat) :
    FallsShort (losesItem element items) (trimItems element index items).1
      (Json.withoutItems (among (trimItems element index items).2) index items) := by
  induction items generalizing index with
  | nil => exact fallsShort_refl _
  | cons item rest ih =>
    have rests := ih (List.forall_mem_cons.mp each).2
      (List.forall_mem_cons.mp distinct).2 (index + 1)
    rw [losesItem]
    cases trimmed : trim item element with
    | none =>
      rw [trimItems_cons_none rest trimmed, withoutItems_cons_gone, recognised_of_none trimmed, Bool.false_and]
      exact rests
    | some result =>
      have elsewhere : StartsElsewhere (.index index) (trimItems element (index + 1) rest).2 := by
        intro position member
        rcases (trimItems_places (fun _ _ => trim_places _) (List.forall_mem_cons.mp distinct).2
          (index + 1)).1 position member with ⟨place, child, below, same, _⟩
        refine ⟨_, below, same, ?_⟩
        intro clash
        have : index = index + 1 + place := Step.index.inj clash
        omega
      have below : [] ∉ result.2 := fun impossible =>
        (trim_places item _ _ _ trimmed (distinct _ List.mem_cons_self)).below [] impossible rfl
      rw [trimItems_cons_some rest trimmed, withoutItems_cons_left item rest elsewhere below,
        recognised_of_trim trimmed, Bool.true_and]
      exact (each _ List.mem_cons_self _ _ _ trimmed (distinct _ List.mem_cons_self)).cons rests

theorem FallsShort.object {kept members : List (String × Json)} (falls : FallsShort lost kept members) :
    FallsShort lost (Json.object kept) (.object members) := by
  refine ⟨fun none => congrArg Json.object (falls.1 none), fun some => ?_⟩
  have short := falls.2 some
  simp only [Json.object.sizeOf_spec]
  omega

theorem FallsShort.array {kept items : List Json} (falls : FallsShort lost kept items) :
    FallsShort lost (Json.array kept) (.array items) := by
  refine ⟨fun none => congrArg Json.array (falls.1 none), fun some => ?_⟩
  have short := falls.2 some
  simp only [Json.array.sizeOf_spec]
  omega

theorem trim_leaves (value : Json) : LeavesTheRest (S := S) value := by
  induction value using Json.induction with
  | leaf value leaf =>
    intro schema out removed trimmed distinct
    have none : losesKey value schema = false := by
      cases value with
      | array items | object members => cases leaf
      | _ => rfl
    cases trim_spec trimmed with
    | leaf _ =>
      rw [none, Json.without_of_isLeaf leaf]
      exact fallsShort_refl value
    | _ => cases leaf
  | array items each =>
    intro schema out removed trimmed distinct
    cases trim_spec trimmed with
    | leaf leaf => cases leaf
    | array read =>
      rw [losesKey, read, show among [] = fun _ => false from rfl, Json.without_nothing]
      exact fallsShort_refl _
    | items read =>
      rw [losesKey, read]
      exact (trimItems_leaves each (fun item => distinct.item) 0).array
  | object members each =>
    intro schema out removed trimmed distinct
    cases trim_spec trimmed with
    | leaf leaf => cases leaf
    | whole read =>
      rw [losesKey, read, show among [] = fun _ => false from rfl, Json.without_nothing]
      exact fallsShort_refl _
    | members read done =>
      rw [losesKey, read]
      exact (trimMembers_leaves each (fun member inside => distinct.member inside) distinct.keys done).object

end Enforce
end AgUi
