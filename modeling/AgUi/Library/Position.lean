import AgUi.Library.Keyed

namespace AgUi
namespace Library

/-!
# Positions in a list

Where the first item that passes a test stands, and what an insertion does to
that.
-/

universe u v

variable {A : Type u} {B : Type v}

/-- The position of the first match depends on no more than where the matches are. -/
theorem findIdx?_eq_of_map {test : A -> Bool} {other : B -> Bool} {items : List A} {others : List B}
    (same : items.map test = others.map other) : items.findIdx? test = others.findIdx? other := by
  have seen := congrArg (List.findIdx? id) same
  rw [List.findIdx?_map, List.findIdx?_map] at seen
  exact seen

/-- Where an item that stood at `index` stands after one was put in at `place`. -/
def shifted (place index : Nat) : Nat :=
  if index < place then index else index + 1

theorem shifted_lt_shifted (place : Nat) {first second : Nat} :
    shifted place first < shifted place second ↔ first < second := by
  unfold shifted
  split <;> split <;> omega

theorem shifted_injective (place : Nat) {first second : Nat} (same : shifted place first = shifted place second) :
    first = second := by
  unfold shifted at same
  split at same <;> split at same <;> omega

/-- Nothing that was there stands where the insertion is. -/
theorem shifted_ne (place index : Nat) : shifted place index ≠ place := by
  unfold shifted
  split <;> omega

/-- An item that fails the test moves the first match, if at all, by one. -/
theorem findIdx?_of_inserted {test : A -> Bool} {item : A} (missed : test item = false) (before after : List A) :
    (before ++ item :: after).findIdx? test =
      ((before ++ after).findIdx? test).map (shifted before.length) := by
  rw [List.findIdx?_append, List.findIdx?_append, List.findIdx?_cons]
  simp only [missed, Bool.false_eq_true, if_false]
  cases first : before.findIdx? test with
  | some index =>
    have inside : index < before.length := (List.findIdx?_eq_some_iff_findIdx_eq.mp first).1
    simp [shifted, inside]
  | none =>
    cases after.findIdx? test with
    | none => rfl
    | some index =>
      simp only [Option.none_or, Option.map_some, Option.some.injEq]
      rw [shifted, if_neg (by omega)]
      omega

theorem getElem?_of_inserted (before after : List A) (item : A) (index : Nat) :
    (before ++ item :: after)[shifted before.length index]? = (before ++ after)[index]? := by
  unfold shifted
  split
  · rename_i early
    rw [List.getElem?_append_left early, List.getElem?_append_left early]
  · rename_i late
    rw [List.getElem?_append_right (by omega), List.getElem?_append_right (by omega)]
    have next : index + 1 - before.length = (index - before.length) + 1 := by
      omega
    rw [next, List.getElem?_cons_succ]

/-- Every position but that of the insertion is one of before. -/
theorem exists_shifted {place index : Nat} (apart : index ≠ place) :
    ∃ old, shifted place old = index := by
  rcases Nat.lt_or_gt_of_ne apart with early | late
  · exact ⟨index, if_pos early⟩
  · refine ⟨index - 1, ?_⟩
    unfold shifted
    rw [if_neg (by omega)]
    omega

/-- The run of items at the front that pass a test, and what is behind it. -/
theorem exists_run (test : A -> Bool) (items : List A) :
    ∃ run rest, items = run ++ rest ∧ items.takeWhile test = run ∧
      (∀ item ∈ run, test item = true) ∧
      ∀ next, rest.head? = some next -> test next = false := by
  refine ⟨items.takeWhile test, items.dropWhile test, List.takeWhile_append_dropWhile.symm, rfl, ?_, ?_⟩
  · exact List.all_eq_true.mp List.all_takeWhile
  · intro next first
    have ended := List.head?_dropWhile_not test items
    rwa [first] at ended

end Library
end AgUi
