import Mathlib.Data.List.Nodup

namespace AgUi
namespace Library

/-!
# Finite maps in insertion order

A key keeps the place of its first insertion.  Writing to a key that is
present replaces its value in place; writing to an absent key appends it.
The entry list never repeats a key, and the structure carries that fact, so
membership of an entry and lookup of its key are the same information.
-/

universe u v

variable {K : Type u} {V : Type v}

/-- A finite map together with the order in which its keys were inserted. -/
structure OrderedMap (K : Type u) (V : Type v) where
  entries : List (K × V)
  nodup : (entries.map Prod.fst).Nodup

namespace OrderedMap

theorem ext {left right : OrderedMap K V} (same : left.entries = right.entries) : left = right := by
  cases left
  cases right
  cases same
  rfl

def empty : OrderedMap K V := ⟨[], List.nodup_nil⟩

instance : EmptyCollection (OrderedMap K V) := ⟨empty⟩

instance : Inhabited (OrderedMap K V) := ⟨empty⟩

def keys (map : OrderedMap K V) : List K :=
  map.entries.map Prod.fst

def size (map : OrderedMap K V) : Nat :=
  map.entries.length

variable (map : OrderedMap K V)

theorem keys_nodup : map.keys.Nodup :=
  map.nodup

variable [DecidableEq K]

def get? (map : OrderedMap K V) (key : K) : Option V :=
  map.entries.lookup key

def has (map : OrderedMap K V) (key : K) : Bool :=
  (map.get? key).isSome

/-- Replace the value of a present key in place, or append a new entry. -/
def setEntries (key : K) (value : V) : List (K × V) -> List (K × V)
  | [] => [(key, value)]
  | entry :: rest =>
    if entry.1 = key then (key, value) :: rest else entry :: setEntries key value rest

theorem keys_setEntries (key : K) (value : V) (entries : List (K × V)) :
    (setEntries key value entries).map Prod.fst =
      if key ∈ entries.map Prod.fst then entries.map Prod.fst
      else entries.map Prod.fst ++ [key] := by
  induction entries with
  | nil => rfl
  | cons entry rest ih =>
    by_cases same : entry.1 = key
    · simp [setEntries, same]
    · have different : key ≠ entry.1 := fun equal => same equal.symm
      simp only [setEntries, if_neg same, List.map_cons, ih, List.mem_cons,
        different, false_or]
      split <;> rfl

theorem nodup_setEntries (key : K) (value : V) {entries : List (K × V)}
    (nodup : (entries.map Prod.fst).Nodup) :
    ((setEntries key value entries).map Prod.fst).Nodup := by
  rw [keys_setEntries]
  split
  · exact nodup
  · rename_i absent
    exact List.nodup_append.mpr ⟨nodup, List.nodup_singleton key, by
      intro left member right single equal
      exact absent (List.mem_singleton.mp single ▸ equal ▸ member)⟩

def set (map : OrderedMap K V) (key : K) (value : V) : OrderedMap K V :=
  ⟨setEntries key value map.entries, nodup_setEntries key value map.nodup⟩

def erase (map : OrderedMap K V) (key : K) : OrderedMap K V where
  entries := map.entries.filter fun entry => entry.1 ≠ key
  nodup := map.nodup.sublist (List.filter_sublist.map Prod.fst)

/-- The entries whose key passes a test. -/
def filterKeys (map : OrderedMap K V) (keep : K -> Bool) : OrderedMap K V where
  entries := map.entries.filter fun entry => keep entry.1
  nodup := map.nodup.sublist (List.filter_sublist.map Prod.fst)

/-- Write every entry of the second map over the first, in order. -/
def merge (left right : OrderedMap K V) : OrderedMap K V :=
  right.entries.foldl (fun map entry => map.set entry.1 entry.2) left

def ofList (entries : List (K × V)) : OrderedMap K V :=
  entries.foldl (fun map entry => map.set entry.1 entry.2) empty

/-! ## Lookup -/

@[simp] theorem get?_empty (key : K) : (empty : OrderedMap K V).get? key = none := rfl

@[simp] theorem has_empty (key : K) : (empty : OrderedMap K V).has key = false := rfl

theorem lookup_cons_ite (name : K) (value : V) (rest : List (K × V)) (key : K) :
    ((name, value) :: rest).lookup key = if key = name then some value else rest.lookup key := by
  by_cases same : key = name
  · rw [same, List.lookup_cons_self, if_pos rfl]
  · have test : (key == name) = false := beq_eq_false_iff_ne.mpr same
    rw [List.lookup_cons, test, if_neg same]

@[simp] theorem entries_set (key : K) (value : V) :
    (map.set key value).entries = setEntries key value map.entries := rfl

theorem lookup_setEntries (key : K) (value : V) (entries : List (K × V)) (other : K) :
    (setEntries key value entries).lookup other =
      if other = key then some value else entries.lookup other := by
  induction entries with
  | nil =>
    by_cases same : other = key <;> simp [setEntries, same]
  | cons entry rest ih =>
    obtain ⟨name, old⟩ := entry
    by_cases same : name = key
    · subst same
      by_cases found : other = name <;> simp [setEntries, lookup_cons_ite, found]
    · by_cases found : other = name
      · subst found
        simp [setEntries, same]
      · simp [setEntries, same, lookup_cons_ite, found, ih]

@[simp] theorem get?_set (key : K) (value : V) (other : K) :
    (map.set key value).get? other = if other = key then some value else map.get? other :=
  lookup_setEntries key value map.entries other

theorem get?_set_self (key : K) (value : V) :
    (map.set key value).get? key = some value := by
  rw [get?_set, if_pos rfl]

theorem get?_set_of_ne {key other : K} (value : V) (different : other ≠ key) :
    (map.set key value).get? other = map.get? other := by
  rw [get?_set, if_neg different]

theorem lookup_filter_ne (key : K) (entries : List (K × V)) (other : K) :
    (entries.filter fun entry => entry.1 ≠ key).lookup other =
      if other = key then none else entries.lookup other := by
  induction entries with
  | nil => simp
  | cons entry rest ih =>
    obtain ⟨name, old⟩ := entry
    by_cases same : name = key
    · subst same
      by_cases found : other = name
      · simpa [found] using ih
      · simpa [lookup_cons_ite, found] using ih
    · by_cases found : other = name
      · subst found
        simp [same]
      · simpa [same, lookup_cons_ite, found] using ih

@[simp] theorem get?_erase (key other : K) :
    (map.erase key).get? other = if other = key then none else map.get? other :=
  lookup_filter_ne key map.entries other

theorem get?_of_erase {key other : K} {value : V} (found : (map.erase key).get? other = some value) :
    map.get? other = some value := by
  rw [get?_erase] at found
  split at found
  · cases found
  · exact found

theorem lookup_filter_key (keep : K -> Bool) (entries : List (K × V)) (key : K) :
    (entries.filter fun entry => keep entry.1).lookup key = if keep key then entries.lookup key else none := by
  induction entries with
  | nil => simp
  | cons entry rest ih =>
    rcases entry with ⟨name, value⟩
    by_cases same : key = name
    · subst same
      cases kept : keep key with
      | true => simp [kept]
      | false => simpa [List.filter_cons, kept] using ih
    · cases kept : keep name with
      | true | false => simpa [List.filter_cons, kept, lookup_cons_ite, same] using ih

@[simp] theorem get?_filterKeys (keep : K -> Bool) (key : K) :
    (map.filterKeys keep).get? key = if keep key then map.get? key else none :=
  lookup_filter_key keep map.entries key

@[simp] theorem has_set (key : K) (value : V) (other : K) :
    (map.set key value).has other = (decide (other = key) || map.has other) := by
  by_cases same : other = key <;> simp [has, same]

@[simp] theorem has_erase (key other : K) :
    (map.erase key).has other = (!decide (other = key) && map.has other) := by
  by_cases same : other = key <;> simp [has, same]

theorem has_eq_true_iff (key : K) :
    map.has key = true ↔ ∃ value, map.get? key = some value := by
  rw [has, Option.isSome_iff_exists]

theorem has_eq_false_iff (key : K) :
    map.has key = false ↔ map.get? key = none := by
  simp [has]

/-! ## Entries -/

theorem lookup_eq_some_of_mem {entries : List (K × V)} (nodup : (entries.map Prod.fst).Nodup)
    {key : K} {value : V} (member : (key, value) ∈ entries) : entries.lookup key = some value := by
  induction entries with
  | nil => cases member
  | cons entry rest ih =>
    obtain ⟨name, old⟩ := entry
    have parts := List.nodup_cons.mp nodup
    rcases List.mem_cons.mp member with same | later
    · cases same
      simp
    · have different : key ≠ name := by
        intro equal
        exact parts.1 (equal ▸ List.mem_map.mpr ⟨(key, value), later, rfl⟩)
      rw [lookup_cons_ite, if_neg different]
      exact ih parts.2 later

theorem lookup_eq_none_of_not_mem {entries : List (K × V)} {key : K}
    (absent : key ∉ entries.map Prod.fst) : entries.lookup key = none := by
  induction entries with
  | nil => rfl
  | cons entry rest ih =>
    have parts := not_or.mp (fun member => absent (List.mem_cons.mpr member))
    rw [lookup_cons_ite, if_neg parts.1]
    exact ih parts.2

theorem mem_of_lookup_eq_some {entries : List (K × V)} {key : K} {value : V}
    (found : entries.lookup key = some value) : (key, value) ∈ entries := by
  induction entries with
  | nil => cases found
  | cons entry rest ih =>
    obtain ⟨name, old⟩ := entry
    by_cases same : key = name
    · subst same
      simp only [List.lookup_cons_self, Option.some.injEq] at found
      subst found
      exact List.mem_cons_self
    · have later : rest.lookup key = some value := by
        rwa [lookup_cons_ite, if_neg same] at found
      exact List.mem_cons_of_mem _ (ih later)

theorem mem_entries_iff (key : K) (value : V) :
    (key, value) ∈ map.entries ↔ map.get? key = some value :=
  ⟨lookup_eq_some_of_mem map.nodup, mem_of_lookup_eq_some⟩

theorem mem_keys_iff (key : K) :
    key ∈ map.keys ↔ map.has key = true := by
  rw [has_eq_true_iff, keys, List.mem_map]
  constructor
  · rintro ⟨⟨name, value⟩, member, rfl⟩
    exact ⟨value, (map.mem_entries_iff name value).mp member⟩
  · rintro ⟨value, found⟩
    exact ⟨(key, value), (map.mem_entries_iff key value).mpr found, rfl⟩

theorem size_eq_zero_iff : map.size = 0 ↔ ∀ key, map.has key = false := by
  constructor
  · intro nothing key
    have noEntries : map.entries = [] := List.length_eq_zero_iff.mp nothing
    rw [has_eq_false_iff, get?, noEntries, List.lookup_nil]
  · intro absent
    apply List.length_eq_zero_iff.mpr
    cases contents : map.entries with
    | nil => rfl
    | cons entry rest =>
      have found := (map.mem_entries_iff entry.1 entry.2).mp (contents ▸ List.mem_cons_self)
      rw [(map.has_eq_false_iff entry.1).mp (absent entry.1)] at found
      cases found

theorem setEntries_of_not_mem (key : K) (value : V) {entries : List (K × V)}
    (absent : key ∉ entries.map Prod.fst) :
    setEntries key value entries = entries ++ [(key, value)] := by
  induction entries with
  | nil => rfl
  | cons entry rest ih =>
    have parts := not_or.mp (fun member => absent (List.mem_cons.mpr member))
    have different : entry.1 ≠ key := fun equal => parts.1 equal.symm
    simp only [setEntries, if_neg different, List.cons_append, ih parts.2]

/-- A write to an absent key appends. -/
theorem entries_set_of_absent (key : K) (value : V)
    (absent : map.get? key = none) :
    (map.set key value).entries = map.entries ++ [(key, value)] := by
  apply setEntries_of_not_mem
  intro member
  have present := (map.mem_keys_iff key).mp member
  rw [(map.has_eq_false_iff key).mpr absent] at present
  cases present

/-- Split the entries of a map at a present key. -/
theorem exists_split {key : K} {value : V} (found : map.get? key = some value) :
    ∃ before after,
      map.entries = before ++ (key, value) :: after ∧
      key ∉ before.map Prod.fst ∧ key ∉ after.map Prod.fst := by
  obtain ⟨before, after, split⟩ := List.append_of_mem ((map.mem_entries_iff key value).mpr found)
  have nodup := map.nodup
  rw [split, List.map_append, List.map_cons] at nodup
  have middle := List.nodup_middle.mp nodup
  have fresh := (List.nodup_cons.mp middle).1
  exact ⟨before, after, split, fun member => fresh (List.mem_append.mpr (Or.inl member)),
    fun member => fresh (List.mem_append.mpr (Or.inr member))⟩

theorem entries_erase_of_split {key : K} {value : V}
    {before after : List (K × V)} (split : map.entries = before ++ (key, value) :: after)
    (early : key ∉ before.map Prod.fst) (late : key ∉ after.map Prod.fst) :
    (map.erase key).entries = before ++ after := by
  have keep : ∀ part : List (K × V), key ∉ part.map Prod.fst ->
      part.filter (fun entry => entry.1 ≠ key) = part := by
    intro part absent
    apply List.filter_eq_self.mpr
    intro entry member
    exact decide_eq_true fun equal => absent (List.mem_map.mpr ⟨entry, member, equal⟩)
  simp only [erase, split, List.filter_append, List.filter_cons, ne_eq, not_true, decide_false,
    Bool.false_eq_true, if_false]
  exact congrArg₂ (· ++ ·) (keep before early) (keep after late)

theorem erase_of_absent {key : K} (absent : map.get? key = none) :
    map.erase key = map := by
  apply ext
  apply List.filter_eq_self.mpr
  rintro ⟨name, value⟩ member
  have found := (map.mem_entries_iff name value).mp member
  apply decide_eq_true
  rintro rfl
  rw [absent] at found
  cases found

/-- Erasing the key of the first entry drops that entry. -/
theorem erase_head {key : K} {value : V} {rest : List (K × V)}
    (nodup : (((key, value) :: rest).map Prod.fst).Nodup) :
    (OrderedMap.mk ((key, value) :: rest) nodup).erase key =
      OrderedMap.mk rest (List.nodup_cons.mp nodup).2 := by
  apply ext
  have split : (OrderedMap.mk ((key, value) :: rest) nodup).entries = [] ++ (key, value) :: rest := rfl
  exact entries_erase_of_split _ split List.not_mem_nil (List.nodup_cons.mp nodup).1

theorem filter_key_lookup (key : K) {entries : List (K × V)} (nodup : (entries.map Prod.fst).Nodup) :
    (entries.filter fun entry => entry.1 = key) = (entries.lookup key).toList.map fun value => (key, value) := by
  induction entries with
  | nil => rfl
  | cons entry rest ih =>
    rcases entry with ⟨name, value⟩
    rcases List.nodup_cons.mp nodup with ⟨fresh, later⟩
    by_cases same : name = key
    · subst same
      have absent := lookup_eq_none_of_not_mem fresh
      have nothing := ih later
      rw [absent] at nothing
      simp only [lookup_cons_ite, if_true, decide_true, List.filter_cons_of_pos, Option.toList_some,
        List.map_cons, List.map_nil]
      rw [nothing]
      rfl
    · simp only [lookup_cons_ite, if_neg (Ne.symm same), same, decide_false, Bool.false_eq_true,
        not_false_eq_true, List.filter_cons_of_neg]
      exact ih later

/-- The entries under one key are the entry it is looked up as. -/
theorem filter_key (key : K) :
    (map.entries.filter fun entry => entry.1 = key) = (map.get? key).toList.map fun value => (key, value) :=
  filter_key_lookup key map.nodup

theorem get?_foldl_set_cases {entries : List (K × V)} {map : OrderedMap K V} {key : K} {value : V}
    (found : (entries.foldl (fun map entry => map.set entry.1 entry.2) map).get? key = some value) :
    map.get? key = some value ∨ (key, value) ∈ entries := by
  induction entries generalizing map with
  | nil => exact .inl found
  | cons entry rest ih =>
    rcases ih found with written | later
    · rw [get?_set] at written
      split at written
      · rename_i same
        cases written
        rw [same]
        exact .inr List.mem_cons_self
      · exact .inl written
    · exact .inr (List.mem_cons_of_mem _ later)

/-- A map holds only what it was made from. -/
theorem mem_of_get?_ofList {entries : List (K × V)} {key : K} {value : V}
    (found : (ofList entries).get? key = some value) : (key, value) ∈ entries := by
  rcases get?_foldl_set_cases found with impossible | member
  · cases impossible
  · exact member

/-! ## Merging -/

theorem lookup_foldl_set {entries : List (K × V)} (nodup : (entries.map Prod.fst).Nodup) (map : OrderedMap K V)
    (key : K) :
    (entries.foldl (fun map entry => map.set entry.1 entry.2) map).get? key =
      (entries.lookup key).or (map.get? key) := by
  induction entries generalizing map with
  | nil => rfl
  | cons entry rest ih =>
    rcases entry with ⟨name, value⟩
    rcases List.nodup_cons.mp nodup with ⟨fresh, later⟩
    rw [List.foldl_cons, ih later, get?_set, lookup_cons_ite]
    by_cases same : key = name
    · subst same
      rw [lookup_eq_none_of_not_mem fresh, if_pos rfl, if_pos rfl]
      rfl
    · rw [if_neg same, if_neg same]

theorem get?_ofList {entries : List (K × V)} (nodup : (entries.map Prod.fst).Nodup) (key : K) :
    (ofList entries).get? key = entries.lookup key := by
  rw [ofList, lookup_foldl_set nodup, get?_empty, Option.or_none]

@[simp] theorem get?_merge (left right : OrderedMap K V) (key : K) :
    (left.merge right).get? key = (right.get? key).or (left.get? key) :=
  lookup_foldl_set right.nodup left key

/-- The order of its entries is nothing to a map that is read by key. -/
theorem get?_ofList_of_perm {entries : List (K × V)} (perm : entries.Perm map.entries) (key : K) :
    (ofList entries).get? key = map.get? key := by
  have nodup : (entries.map Prod.fst).Nodup := (perm.map Prod.fst).nodup_iff.mpr map.nodup
  rw [get?_ofList nodup]
  cases found : map.get? key with
  | some value =>
    exact lookup_eq_some_of_mem nodup (perm.mem_iff.mpr ((map.mem_entries_iff key value).mpr found))
  | none =>
    apply lookup_eq_none_of_not_mem
    intro member
    rw [(perm.map Prod.fst).mem_iff] at member
    have present := (map.mem_keys_iff key).mp member
    rw [(map.has_eq_false_iff key).mpr found] at present
    cases present

theorem has_foldl_set_iff (entries : List (K × V)) (map : OrderedMap K V) (key : K) :
    (entries.foldl (fun map entry => map.set entry.1 entry.2) map).has key = true ↔
      key ∈ entries.map Prod.fst ∨ map.has key = true := by
  induction entries generalizing map with
  | nil => simp
  | cons entry rest ih =>
    rw [List.foldl_cons, ih, has_set, Bool.or_eq_true, decide_eq_true_eq, List.map_cons,
      List.mem_cons, or_left_comm, or_assoc]

theorem has_ofList_iff (entries : List (K × V)) (key : K) :
    (ofList entries).has key = true ↔ key ∈ entries.map Prod.fst := by
  rw [ofList, has_foldl_set_iff, has_empty]
  exact or_iff_left Bool.false_ne_true

/-! ## Maps compared entry by entry -/

section Matches

variable {W : Type v} {Relates : K -> V -> W -> Prop}

/-- Both maps hold the same keys in the same order, with related values. -/
def Matches (Relates : K -> V -> W -> Prop) (left : OrderedMap K V) (right : OrderedMap K W) : Prop :=
  List.Forall₂ (fun entry other => entry.1 = other.1 ∧ Relates entry.1 entry.2 other.2)
    left.entries right.entries

omit [DecidableEq K] in
theorem matches_empty : Matches Relates (empty : OrderedMap K V) (empty : OrderedMap K W) :=
  List.Forall₂.nil

variable {right : OrderedMap K W} {left : OrderedMap K V}

section

variable (matched : Matches Relates left right)

include matched

theorem Matches.get? (key : K) : (left.get? key = none ∧ right.get? key = none) ∨
      ∃ value other,
        left.get? key = some value ∧ right.get? key = some other ∧ Relates key value other := by
  rcases left with ⟨entries, nodup⟩
  rcases right with ⟨others, distinct⟩
  simp only [Matches, OrderedMap.get?] at matched ⊢
  clear nodup distinct
  induction matched with
  | nil => exact .inl ⟨rfl, rfl⟩
  | @cons entry other rest later same _ ih =>
    rcases entry with ⟨name, value⟩
    rcases other with ⟨another, image⟩
    rcases same with ⟨rfl, related⟩
    simp only [lookup_cons_ite]
    by_cases found : key = name
    · subst found
      exact .inr ⟨value, image, if_pos rfl, if_pos rfl, related⟩
    · simp only [if_neg found]
      exact ih

theorem Matches.set {key : K} {value : V} {other : W}
    (related : Relates key value other) : Matches Relates (left.set key value) (right.set key other) := by
  rcases left with ⟨entries, nodup⟩
  rcases right with ⟨others, distinct⟩
  simp only [Matches, entries_set] at matched ⊢
  clear nodup distinct
  induction matched with
  | nil => exact .cons ⟨rfl, related⟩ .nil
  | cons same rest ih =>
    simp only [setEntries, same.1]
    split
    · exact .cons ⟨rfl, related⟩ rest
    · exact .cons same ih

theorem Matches.erase (key : K) : Matches Relates (left.erase key) (right.erase key) := by
  rcases left with ⟨entries, nodup⟩
  rcases right with ⟨others, distinct⟩
  simp only [Matches, OrderedMap.erase] at matched ⊢
  clear nodup distinct
  induction matched with
  | nil => exact .nil
  | cons same rest ih =>
    simp only [List.filter_cons, same.1]
    split
    · exact .cons same ih
    · exact ih

omit [DecidableEq K] in
/-- A search that looks at keys and related values finds the same key in both. -/
theorem Matches.find? (test : K × V -> Bool) (other : K × W -> Bool)
    (agree : ∀ key value image, Relates key value image -> test (key, value) = other (key, image)) :
    (left.entries.find? test).map Prod.fst = (right.entries.find? other).map Prod.fst := by
  rcases left with ⟨entries, nodup⟩
  rcases right with ⟨others, distinct⟩
  simp only [Matches] at matched ⊢
  clear nodup distinct
  induction matched with
  | nil => rfl
  | @cons entry image rest later same _ ih =>
    rcases entry with ⟨name, value⟩
    rcases image with ⟨another, image⟩
    rcases same with ⟨rfl, related⟩
    simp only [List.find?_cons, agree name value image related]
    split
    · rfl
    · exact ih

end

end Matches

/-! ## Everything a map holds -/

/-- Set apart what is held at one key from what is held at the others. -/
theorem flatMap_entries_perm {W : Type v} (items : K × V -> List W) (map : OrderedMap K V) {key : K}
    {value : V} (found : map.get? key = some value) :
    (map.entries.flatMap items).Perm (items (key, value) ++ (map.erase key).entries.flatMap items) := by
  rcases map.exists_split found with ⟨before, after, split, early, late⟩
  rw [map.entries_erase_of_split split early late, split, List.flatMap_append, List.flatMap_cons,
    List.flatMap_append]
  exact List.perm_append_comm_assoc _ _ _

theorem erase_set (key : K) (value : V) : (map.set key value).erase key = map.erase key := by
  apply ext
  simp only [erase, entries_set]
  induction map.entries with
  | nil => simp [setEntries]
  | cons entry rest ih =>
    by_cases same : entry.1 = key
    · simp [setEntries, same]
    · simp only [setEntries, if_neg same, List.filter_cons, ih]

theorem flatMap_entries_set_perm {W : Type v} (items : K × V -> List W) (map : OrderedMap K V) (key : K)
    (value : V) :
    ((map.set key value).entries.flatMap items).Perm
      (items (key, value) ++ (map.erase key).entries.flatMap items) := by
  have parts := flatMap_entries_perm items (map.set key value) (map.get?_set_self key value)
  rwa [erase_set] at parts

end OrderedMap

/-! ## Sets in insertion order -/

/-- A finite set together with the order in which its members were added. -/
abbrev OrderedSet (K : Type u) := OrderedMap K Unit

def OrderedSet.add [DecidableEq K] (members : OrderedSet K) (key : K) : OrderedSet K :=
  OrderedMap.set members key ()

@[simp] theorem OrderedSet.has_add [DecidableEq K] (members : OrderedSet K) (key other : K) :
    (members.add key).has other = (decide (other = key) || members.has other) :=
  OrderedMap.has_set members key () other

theorem OrderedSet.has_foldl_add [DecidableEq K] (keys : List K) (members : OrderedSet K) (other : K) :
    (keys.foldl OrderedSet.add members).has other = true ↔ other ∈ keys ∨ members.has other = true := by
  induction keys generalizing members with
  | nil => simp
  | cons key rest ih =>
    rw [List.foldl_cons, ih, OrderedSet.has_add, Bool.or_eq_true, decide_eq_true_eq, List.mem_cons]
    tauto

end Library
end AgUi
