import Mathlib.Data.Option.Basic
import Mathlib.Data.List.Forall2

namespace AgUi
namespace Library

/-!
# Attempts on every item of a list

`mapM` in `Option` succeeds where the attempt on each item does, and its
results are those of the items in their order.
-/

universe u v

variable {A : Type u} {B : Type u} {attempt : A -> Option B} {items : List A} {results : List B}

theorem mapM_cons_eq_some {item : A} :
    (item :: items).mapM attempt = some results ↔
      ∃ first rest, attempt item = some first ∧ items.mapM attempt = some rest ∧
        results = first :: rest := by
  rw [List.mapM_cons]
  cases attempt item with
  | none => simp
  | some first =>
    cases items.mapM attempt with
    | none => simp
    | some rest => simp [eq_comm]

theorem exists_of_mem_results (mapped : items.mapM attempt = some results) {result : B} (member : result ∈ results) :
    ∃ item ∈ items, attempt item = some result := by
  induction items generalizing results with
  | nil =>
    cases mapped
    cases member
  | cons item rest ih =>
    rcases mapM_cons_eq_some.mp mapped with ⟨first, others, own, later, rfl⟩
    rcases List.mem_cons.mp member with rfl | after
    · exact ⟨item, List.mem_cons_self, own⟩
    · rcases ih later after with ⟨source, listed, gives⟩
      exact ⟨source, List.mem_cons_of_mem item listed, gives⟩

theorem exists_mem_results (mapped : items.mapM attempt = some results) {item : A} (member : item ∈ items) :
    ∃ result ∈ results, attempt item = some result := by
  induction items generalizing results with
  | nil => cases member
  | cons first rest ih =>
    rcases mapM_cons_eq_some.mp mapped with ⟨head, others, own, later, rfl⟩
    rcases List.mem_cons.mp member with rfl | after
    · exact ⟨head, List.mem_cons_self, own⟩
    · rcases ih later after with ⟨result, listed, gives⟩
      exact ⟨result, List.mem_cons_of_mem head listed, gives⟩

theorem mapM_eq_some_map {make : A -> B} (each : ∀ item ∈ items, attempt item = some (make item)) :
    items.mapM attempt = some (items.map make) := by
  induction items with
  | nil => rfl
  | cons item rest ih =>
    rw [List.forall_mem_cons] at each
    exact mapM_cons_eq_some.mpr ⟨make item, rest.map make, each.1, ih each.2, rfl⟩

theorem mapM_mono {other : A -> Option B}
    (agree : ∀ item result, attempt item = some result -> other item = some result)
    (mapped : items.mapM attempt = some results) : items.mapM other = some results := by
  induction items generalizing results with
  | nil => exact mapped
  | cons item rest ih =>
    rcases mapM_cons_eq_some.mp mapped with ⟨first, others, own, later, rfl⟩
    exact mapM_cons_eq_some.mpr ⟨first, others, agree item first own, ih later, rfl⟩

theorem isSome_mapM (f : A -> Option B) (items : List A) :
    (items.mapM f).isSome = true ↔ ∀ item ∈ items, (f item).isSome = true := by
  induction items with
  | nil => simp
  | cons item rest ih =>
    rw [List.mapM_cons, List.forall_mem_cons, ← ih]
    cases f item with
    | none => simp
    | some result => cases rest.mapM f <;> simp

theorem mapM_snoc {read : A -> Option B} {past : List A} {last : A} {all : List B} :
    (past ++ [last]).mapM read = some all ↔
      ∃ before final, past.mapM read = some before ∧ read last = some final ∧
        all = before ++ [final] := by
  have single : [last].mapM read = (read last).map fun final => [final] := by
    rw [List.mapM_cons, List.mapM_nil]
    cases read last <;> rfl
  rw [List.mapM_append, single]
  cases past.mapM read with
  | none => simp
  | some before =>
    cases read last with
    | none => simp
    | some final => simp [eq_comm]

/-- With errors: the results are those of the attempts, one by one. -/
theorem mapM_eq_ok_iff {E : Type u} {attempt : A -> Except E B} :
    items.mapM attempt = .ok results ↔
      List.Forall₂ (fun item result => attempt item = .ok result) items results := by
  induction items generalizing results with
  | nil =>
    rw [List.mapM_nil, List.forall₂_nil_left_iff]
    constructor
    · intro same
      exact (Except.ok.inj same).symm
    · rintro rfl
      rfl
  | cons item rest ih =>
    rw [List.mapM_cons, List.forall₂_cons_left_iff]
    constructor
    · intro mapped
      cases own : attempt item with
      | error failure => rw [own] at mapped; cases mapped
      | ok first =>
        cases later : rest.mapM attempt with
        | error failure => rw [own, later] at mapped; cases mapped
        | ok others =>
          rw [own, later] at mapped
          exact ⟨first, others, rfl, ih.mp later, (Except.ok.inj mapped).symm⟩
    · rintro ⟨first, others, own, later, rfl⟩
      rw [own, ih.mpr later]
      rfl

end Library
end AgUi
