import Mathlib.Data.List.Induction
import Mathlib.Data.Option.Basic
import AgUi.Library.OrderedMap

namespace AgUi
namespace Library

/-!
# Grouping

The items of a list gathered by key.  A group is started by the first item of
its key, and every item, the first included, is then added to its group.  The
groups stand in the order of their first items.
-/

universe u v w x

/-! ## Duplicates -/

section

variable {N : Type u} {K : Type v} [BEq N] [LawfulBEq N] [BEq K] [LawfulBEq K]

theorem eraseDups_concat (names : List N) (name : N) :
    (names ++ [name]).eraseDups = if name ∈ names then names.eraseDups else names.eraseDups ++ [name] := by
  rw [List.eraseDups_append]
  by_cases member : name ∈ names
  · simp [List.removeAll, member]
  · simp [List.removeAll, member, List.eraseDups_cons]

theorem nodup_eraseDups (names : List N) : names.eraseDups.Nodup := by
  induction names using List.reverseRecOn with
  | nil => exact List.nodup_nil
  | append_singleton names name ih =>
    rw [eraseDups_concat]
    split
    · exact ih
    · rename_i absent
      apply List.nodup_append.mpr
      refine ⟨ih, List.nodup_singleton name, ?_⟩
      intro left member right single equal
      rw [equal, List.mem_singleton.mp single] at member
      exact absent (List.mem_eraseDups.mp member)

/-- A spelling that tells the names of a list apart keeps their duplicates. -/
theorem eraseDups_map (spell : N -> K) (names : List N)
    (apart : ∀ one ∈ names, ∀ other ∈ names, spell one = spell other -> one = other) :
    (names.map spell).eraseDups = names.eraseDups.map spell := by
  induction names using List.reverseRecOn with
  | nil => rfl
  | append_singleton names name ih =>
    have before := ih fun one oneIn other otherIn =>
      apart one (List.mem_append_left _ oneIn) other (List.mem_append_left _ otherIn)
    have spelled : spell name ∈ names.map spell ↔ name ∈ names := by
      constructor
      · intro member
        rcases List.mem_map.mp member with ⟨other, otherIn, same⟩
        have equal := apart other (List.mem_append_left _ otherIn) name
          (List.mem_append_right _ (List.mem_singleton.mpr rfl)) same
        exact equal ▸ otherIn
      · exact List.mem_map_of_mem
    rw [List.map_append, List.map_singleton, eraseDups_concat, eraseDups_concat, before]
    by_cases member : name ∈ names
    · rw [if_pos member, if_pos (spelled.mpr member)]
    · rw [if_neg member, if_neg (fun present => member (spelled.mp present)), List.map_append,
        List.map_singleton]

/-- Duplicates may be erased part by part first. -/
theorem eraseDups_append_eraseDups (early late : List N) :
    (early.eraseDups ++ late.eraseDups).eraseDups = (early ++ late).eraseDups := by
  induction late using List.reverseRecOn with
  | nil =>
    rw [List.eraseDups_nil, List.append_nil, List.append_nil]
    induction early using List.reverseRecOn with
    | nil => rfl
    | append_singleton names name ih =>
      by_cases member : name ∈ names
      · rw [eraseDups_concat, if_pos member, ih]
      · rw [eraseDups_concat, if_neg member, eraseDups_concat, ih,
          if_neg (fun present => member (List.mem_eraseDups.mp present))]
  | append_singleton names name ih =>
    have member : name ∈ early.eraseDups ++ names.eraseDups ↔ name ∈ early ++ names := by
      rw [List.mem_append, List.mem_append, List.mem_eraseDups, List.mem_eraseDups]
    by_cases late : name ∈ names
    · rw [eraseDups_concat, if_pos late, ← List.append_assoc, eraseDups_concat, ih,
        if_pos (List.mem_append_right _ late)]
    · rw [eraseDups_concat, if_neg late, ← List.append_assoc, eraseDups_concat, ← List.append_assoc,
        eraseDups_concat, ih]
      by_cases early : name ∈ early ++ names
      · rw [if_pos early, if_pos (member.mpr early)]
      · rw [if_neg early, if_neg (fun present => early (member.mp present))]

theorem eraseDups_perm {names others : List N} (perm : names.Perm others) :
    names.eraseDups.Perm others.eraseDups := by
  apply (List.perm_ext_iff_of_nodup (nodup_eraseDups names) (nodup_eraseDups others)).mpr
  intro name
  rw [List.mem_eraseDups, List.mem_eraseDups, perm.mem_iff]

end

/-! ## The values of a map -/

/-- The values of a map, if its keys and what stands under them are known. -/
theorem OrderedMap.values_eq {N : Type x} {K : Type v} {V : Type w} [DecidableEq K] {map : OrderedMap K V}
    {names : List N} (spell : N -> K) {value : N -> V} (keys : map.keys = names.map spell)
    (found : ∀ name ∈ names, map.get? (spell name) = some (value name)) :
    map.entries.map Prod.snd = names.map value := by
  apply List.map_injective_iff.mpr (Option.some_injective V)
  calc (map.entries.map Prod.snd).map some
      = map.entries.map fun entry => map.get? entry.1 := by
        rw [List.map_map]
        apply List.map_congr_left
        intro entry member
        exact ((map.mem_entries_iff entry.1 entry.2).mp member).symm
    _ = map.keys.map map.get? := by
        rw [OrderedMap.keys, List.map_map]
        rfl
    _ = (names.map value).map some := by
        rw [keys, List.map_map, List.map_map]
        apply List.map_congr_left
        exact found

/-! ## Groups -/

section

variable {A : Type u} {K : Type v} {B : Type w} [DecidableEq K]

def group (key : A -> K) (start : A -> B) (add : B -> A -> B) (items : List A) : OrderedMap K B :=
  items.foldl (fun groups item =>
    groups.set (key item) (add ((groups.get? (key item)).getD (start item)) item)) OrderedMap.empty

/-- The items of one key. -/
def members (key : A -> K) (name : K) (items : List A) : List A :=
  items.filter fun item => key item = name

variable (key : A -> K) (start : A -> B) (add : B -> A -> B)

theorem group_concat (items : List A) (item : A) :
    group key start add (items ++ [item]) =
      (group key start add items).set (key item)
        (add (((group key start add items).get? (key item)).getD (start item)) item) := by
  rw [group, List.foldl_append]
  rfl

theorem members_concat_self (items : List A) (item : A) :
    members key (key item) (items ++ [item]) = members key (key item) items ++ [item] := by
  simp [members]

theorem members_concat_of_ne {name : K} (items : List A) {item : A} (other : key item ≠ name) :
    members key name (items ++ [item]) = members key name items := by
  simp [members, other]

theorem members_append (name : K) (early late : List A) :
    members key name (early ++ late) = members key name early ++ members key name late :=
  List.filter_append early late

theorem members_ne_nil {name : K} {items : List A} (present : name ∈ items.map key) :
    members key name items ≠ [] := by
  rcases List.mem_map.mp present with ⟨item, member, rfl⟩
  apply List.ne_nil_of_mem
  exact List.mem_filter.mpr ⟨member, decide_eq_true rfl⟩

theorem members_eq_nil {name : K} {items : List A} (absent : name ∉ items.map key) :
    members key name items = [] := by
  apply List.filter_eq_nil_iff.mpr
  intro item member same
  exact absent (List.mem_map.mpr ⟨item, member, of_decide_eq_true same⟩)

/-- What stands under a key is the group its first item started. -/
theorem get?_group (items : List A) (name : K) :
    (group key start add items).get? name =
      (members key name items).head?.map fun first => (members key name items).foldl add (start first) := by
  induction items using List.reverseRecOn with
  | nil => rfl
  | append_singleton items item ih =>
    rw [group_concat, OrderedMap.get?_set]
    by_cases same : key item = name
    · subst same
      rw [if_pos rfl, ih, members_concat_self]
      cases members key (key item) items with
      | nil => rfl
      | cons first rest => simp [List.foldl_append]
    · rw [if_neg (Ne.symm same), ih, members_concat_of_ne key items same]

/-- The groups stand in the order in which their keys first appear. -/
theorem keys_group [BEq K] [LawfulBEq K] (items : List A) :
    (group key start add items).keys = (items.map key).eraseDups := by
  induction items using List.reverseRecOn with
  | nil => rfl
  | append_singleton items item ih =>
    rw [List.map_append, List.map_singleton, eraseDups_concat, group_concat]
    refine (OrderedMap.keys_setEntries _ _ _).trans ?_
    rw [← OrderedMap.keys, ih]
    by_cases member : key item ∈ items.map key
    · rw [if_pos member, if_pos (List.mem_eraseDups.mpr member)]
    · rw [if_neg member, if_neg (fun present => member (List.mem_eraseDups.mp present))]

end

end Library
end AgUi
