import Mathlib.Data.List.Basic

namespace AgUi
namespace Library

/-!
# Sequences cut at every two marks in a row

The cuts are made from the left and do not overlap.  What comes after the
last one is the tail: a sequence that arrives in portions is cut portion by
portion, and only the tail has to be kept.
-/

universe u

variable {A : Type u}

structure Cut (A : Type u) where
  pieces : List (List A)
  tail : List A

def Cut.push (symbol : A) (cut : Cut A) : Cut A :=
  match cut.pieces with
  | [] => { pieces := [], tail := symbol :: cut.tail }
  | piece :: others => { pieces := (symbol :: piece) :: others, tail := cut.tail }

theorem push_pieces_eq_nil {symbol : A} {begun : Cut A} (none_cut : (begun.push symbol).pieces = []) :
    begun.pieces = [] := by
  rcases begun with ⟨pieces, tail⟩
  cases pieces with
  | nil => rfl
  | cons piece others => cases none_cut

variable [DecidableEq A] (mark : A)

def cut : List A -> Cut A
  | [] => { pieces := [], tail := [] }
  | [last] => { pieces := [], tail := [last] }
  | first :: second :: rest =>
    if first = mark ∧ second = mark then { pieces := [] :: (cut rest).pieces, tail := (cut rest).tail }
    else (cut (second :: rest)).push first

/-- Go on from the tail, with more symbols. -/
def Cut.resume (begun : Cut A) (more : List A) : Cut A :=
  { pieces := begun.pieces ++ (cut mark (begun.tail ++ more)).pieces
    tail := (cut mark (begun.tail ++ more)).tail }

/-- Where nothing is cut, everything is tail. -/
theorem tail_of_pieces_eq_nil {symbols : List A} (none_cut : (cut mark symbols).pieces = []) :
    (cut mark symbols).tail = symbols := by
  fun_induction cut mark symbols with
  | case1 => rfl
  | case2 last => rfl
  | case3 first second rest marks ih => cases none_cut
  | case4 first second rest unmarked ih =>
    have later := push_pieces_eq_nil none_cut
    simp only [Cut.push, later, ih later]

/-- The cutting may be interrupted anywhere. -/
theorem cut_append (symbols more : List A) :
    cut mark (symbols ++ more) = (cut mark symbols).resume mark more := by
  fun_induction cut mark symbols with
  | case1 => rfl
  | case2 last => rfl
  | case3 first second rest marks ih =>
    rw [List.cons_append, List.cons_append, cut, if_pos marks, ih]
    rfl
  | case4 first second rest unmarked ih =>
    have whole : cut mark (first :: second :: (rest ++ more)) =
        ((cut mark (second :: rest)).resume mark more).push first := by
      rw [cut, if_neg unmarked, ← List.cons_append, ih]
    rw [List.cons_append, List.cons_append, whole]
    rcases begun : cut mark (second :: rest) with ⟨pieces, tail⟩
    cases pieces with
    | nil =>
      have all : tail = second :: rest := by
        have uncut : (cut mark (second :: rest)).tail = second :: rest :=
          tail_of_pieces_eq_nil mark (by rw [begun])
        rw [begun] at uncut
        exact uncut
      subst all
      simp only [Cut.resume, Cut.push, List.nil_append, List.cons_append]
      rw [cut, if_neg unmarked]
      rfl
    | cons piece others => rfl

/-- The tail of a tail is the tail. -/
theorem cut_tail (symbols : List A) : cut mark (cut mark symbols).tail = ⟨[], (cut mark symbols).tail⟩ := by
  have whole := cut_append mark symbols []
  rw [List.append_nil] at whole
  have pieces := congrArg Cut.pieces whole
  have none_cut : (cut mark (cut mark symbols).tail).pieces = [] := by
    rw [Cut.resume, List.append_nil] at pieces
    exact List.self_eq_append_right.mp pieces
  have tail := tail_of_pieces_eq_nil mark none_cut
  rcases again : cut mark (cut mark symbols).tail with ⟨others, rest⟩
  rw [again] at none_cut tail
  exact congrArg₂ Cut.mk none_cut tail

/-- A tail reaches at most one mark beyond the piece it becomes. -/
theorem prefix_of_pieces {symbols more piece : List A} {others : List (List A)}
    (uncut : (cut mark symbols).pieces = []) (pieces : (cut mark (symbols ++ more)).pieces = piece :: others) :
    symbols.IsPrefix (piece ++ [mark]) := by
  fun_induction cut mark symbols generalizing piece others with
  | case1 => exact List.nil_prefix
  | case2 last =>
    cases more with
    | nil => cases pieces
    | cons first rest =>
      rw [List.cons_append, List.nil_append, cut] at pieces
      split at pieces
      · rename_i marks
        cases pieces
        rw [marks.1]
        exact List.prefix_refl _
      · rcases later : (cut mark (first :: rest)) with ⟨found, tail⟩
        rw [later] at pieces
        cases found with
        | nil => cases pieces
        | cons own rest =>
          cases pieces
          exact ⟨own ++ [mark], rfl⟩
  | case3 first second rest marks ih => cases uncut
  | case4 first second rest unmarked ih =>
    rw [List.cons_append, List.cons_append, cut, if_neg unmarked] at pieces
    rcases later : (cut mark (second :: (rest ++ more))) with ⟨found, tail⟩
    rw [later] at pieces
    cases found with
    | nil => cases pieces
    | cons own rest =>
      cases pieces
      have inner : (second :: rest).IsPrefix (own ++ [mark]) := ih (push_pieces_eq_nil uncut)
        (by rw [List.cons_append, later])
      exact (List.prefix_cons_inj first).mpr inner

/-- A piece without marks is cut off whole. -/
theorem cut_piece {piece : List A} (unmarked : mark ∉ piece) (rest : List A) :
    cut mark (piece ++ mark :: mark :: rest) = ⟨piece :: (cut mark rest).pieces, (cut mark rest).tail⟩ := by
  induction piece with
  | nil => rw [List.nil_append, cut, if_pos ⟨rfl, rfl⟩]
  | cons symbol others ih =>
    have other : symbol ≠ mark := fun same => unmarked (same ▸ List.mem_cons_self)
    have later := ih fun member => unmarked (List.mem_cons_of_mem _ member)
    cases others with
    | nil =>
      rw [List.nil_append] at later
      rw [List.cons_append, List.nil_append, cut, if_neg fun marks => other marks.1, later]
      rfl
    | cons next others =>
      rw [List.cons_append] at later
      rw [List.cons_append, List.cons_append, cut, if_neg fun marks => other marks.1, later]
      rfl

/-- One mark cuts nothing off. -/
theorem cut_half {piece : List A} (unmarked : mark ∉ piece) : (cut mark (piece ++ [mark])).pieces = [] := by
  induction piece with
  | nil => rfl
  | cons symbol others ih =>
    have other : symbol ≠ mark := fun same => unmarked (same ▸ List.mem_cons_self)
    have later := ih fun member => unmarked (List.mem_cons_of_mem _ member)
    cases others with
    | nil => rw [List.cons_append, List.nil_append, cut, if_neg fun marks => other marks.1]; rfl
    | cons next others =>
      rw [List.cons_append] at later
      rw [List.cons_append, List.cons_append, cut, if_neg fun marks => other marks.1, Cut.push, later]

/-- Pieces without marks, each followed by two marks. -/
theorem cut_pieces {pieces : List (List A)} (unmarked : ∀ piece ∈ pieces, mark ∉ piece) :
    cut mark (pieces.flatMap fun piece => piece ++ [mark, mark]) = ⟨pieces, []⟩ := by
  induction pieces with
  | nil => rfl
  | cons piece others ih =>
    have later := ih (List.forall_mem_cons.mp unmarked).2
    rw [List.flatMap_cons, List.append_assoc, List.cons_append, List.cons_append, List.nil_append,
      cut_piece mark (unmarked piece List.mem_cons_self), later]

end Library
end AgUi
