import Mathlib.Data.List.Basic

namespace AgUi
namespace Library

/-!
# Lists searched from the front

A list in which an item is found by a test on it, the first match being the
one that is read and changed.  Several items may pass the same test, so what
a test picks is the sublist `List.filter` gives, and the first match is the
head of it.
-/

universe u v

variable {A : Type u} {B : Type v}

/-- Change the first item that passes a test. -/
def updateFirst (test : A -> Bool) (change : A -> A) : List A -> List A
  | [] => []
  | item :: rest => if test item then change item :: rest else item :: updateFirst test change rest

namespace updateFirst

variable {test : A -> Bool} {change : A -> A}

theorem cons_of_pos {item : A} (rest : List A) (found : test item = true) :
    updateFirst test change (item :: rest) = change item :: rest :=
  if_pos found

theorem cons_of_neg {item : A} (rest : List A) (missed : test item = false) :
    updateFirst test change (item :: rest) = item :: updateFirst test change rest :=
  if_neg (Bool.not_eq_true _ ▸ missed)

/-- Without a match nothing changes. -/
theorem of_absent {items : List A} (absent : items.find? test = none) :
    updateFirst test change items = items := by
  induction items with
  | nil => rfl
  | cons item rest ih =>
    rw [List.find?_cons] at absent
    cases found : test item with
    | true => simp [found] at absent
    | false =>
      simp only [found] at absent
      rw [cons_of_neg rest found, ih absent]

/-- Split a list at the first match. -/
theorem exists_split {items : List A} {item : A} (found : items.find? test = some item) :
    ∃ before after,
      items = before ++ item :: after ∧
      updateFirst test change items = before ++ change item :: after ∧
      test item = true ∧ before.filter test = [] := by
  induction items with
  | nil => cases found
  | cons first rest ih =>
    rw [List.find?_cons] at found
    cases matched : test first with
    | true =>
      simp only [matched, Option.some.injEq] at found
      subst found
      exact ⟨[], rest, rfl, cons_of_pos rest matched, matched, rfl⟩
    | false =>
      simp only [matched] at found
      rcases ih found with ⟨before, after, whole, changed, passes, none⟩
      refine ⟨first :: before, after, ?_, ?_, passes, ?_⟩
      · rw [whole, List.cons_append]
      · rw [cons_of_neg rest matched, changed, List.cons_append]
      · rw [List.filter_cons_of_neg (by rw [matched]; exact Bool.false_ne_true), none]

/-- A view the change does not touch sees no difference. -/
theorem map_of_same (view : A -> B) (same : ∀ item, test item = true -> view (change item) = view item)
    (items : List A) : (updateFirst test change items).map view = items.map view := by
  induction items with
  | nil => rfl
  | cons item rest ih =>
    cases found : test item with
    | true => rw [cons_of_pos rest found, List.map_cons, List.map_cons, same item found]
    | false => rw [cons_of_neg rest found, List.map_cons, List.map_cons, ih]

/-- A view under which the change reads as a change of what is seen. -/
theorem map_of_commutes (view : A -> B) (seen : B -> Bool) (change' : B -> B)
    (tests : ∀ item, seen (view item) = test item)
    (changes : ∀ item, view (change item) = change' (view item)) (items : List A) :
    (updateFirst test change items).map view = updateFirst seen change' (items.map view) := by
  induction items with
  | nil => rfl
  | cons item rest ih =>
    cases found : test item with
    | true =>
      rw [cons_of_pos rest found, List.map_cons, List.map_cons,
        cons_of_pos _ ((tests item).trans found), changes]
    | false =>
      rw [cons_of_neg rest found, List.map_cons, List.map_cons,
        cons_of_neg _ ((tests item).trans found), ih]

theorem flatMap_of_same (view : A -> List B)
    (same : ∀ item, test item = true -> view (change item) = view item) (items : List A) :
    (updateFirst test change items).flatMap view = items.flatMap view := by
  rw [List.flatMap, List.flatMap, map_of_same view same]

theorem append_of_absent {early : List A} (late : List A) (absent : early.any test = false) :
    updateFirst test change (early ++ late) = early ++ updateFirst test change late := by
  induction early with
  | nil => rfl
  | cons item rest ih =>
    rcases Bool.or_eq_false_iff.mp (List.any_cons ▸ absent) with ⟨missed, later⟩
    rw [List.cons_append, cons_of_neg _ missed, ih later, List.cons_append]

theorem append_of_present {early : List A} (late : List A) (present : early.any test = true) :
    updateFirst test change (early ++ late) = updateFirst test change early ++ late := by
  induction early with
  | nil => cases present
  | cons item rest ih =>
    cases found : test item with
    | true => rw [List.cons_append, cons_of_pos _ found, cons_of_pos _ found, List.cons_append]
    | false =>
      rw [List.any_cons, found, Bool.false_or] at present
      rw [List.cons_append, cons_of_neg _ found, cons_of_neg _ found, ih present,
        List.cons_append]

/-- Changing the first holder of a part changes the first such part. -/
theorem flatMap_of_part (view : A -> List B) {hit : B -> Bool} {changePart : B -> B}
    (holds : ∀ item, test item = (view item).any hit)
    (inside : ∀ item, test item = true ->
      view (change item) = updateFirst hit changePart (view item))
    (items : List A) :
    (updateFirst test change items).flatMap view =
      updateFirst hit changePart (items.flatMap view) := by
  induction items with
  | nil => rfl
  | cons item rest ih =>
    cases found : test item with
    | true =>
      rw [cons_of_pos rest found, List.flatMap_cons, List.flatMap_cons, inside item found,
        append_of_present _ (holds item ▸ found)]
    | false =>
      rw [cons_of_neg rest found, List.flatMap_cons, List.flatMap_cons, ih,
        append_of_absent _ (holds item ▸ found)]

/-- Among the items that pass the test the change hits the first. -/
theorem filter_self (kept : ∀ item, test item = true -> test (change item) = true) (items : List A) :
    (updateFirst test change items).filter test = (items.filter test).modifyHead change := by
  induction items with
  | nil => rfl
  | cons item rest ih =>
    cases found : test item with
    | true =>
      rw [cons_of_pos rest found, List.filter_cons_of_pos (kept item found),
        List.filter_cons_of_pos found, List.modifyHead_cons]
    | false =>
      have skip : ¬ test item = true := by rw [found]; exact Bool.false_ne_true
      rw [cons_of_neg rest found, List.filter_cons_of_neg skip, List.filter_cons_of_neg skip,
        ih]

/-- Items another test picks are left alone when the change keeps out of it. -/
theorem filter_of_apart {other : A -> Bool}
    (apart : ∀ item, test item = true -> other item = false ∧ other (change item) = false)
    (items : List A) : (updateFirst test change items).filter other = items.filter other := by
  induction items with
  | nil => rfl
  | cons item rest ih =>
    cases found : test item with
    | true =>
      have out := apart item found
      rw [cons_of_pos rest found, List.filter_cons_of_neg (by rw [out.2]; exact Bool.false_ne_true),
        List.filter_cons_of_neg (by rw [out.1]; exact Bool.false_ne_true)]
    | false =>
      rw [cons_of_neg rest found, List.filter_cons, List.filter_cons, ih]

end updateFirst

end Library
end AgUi
