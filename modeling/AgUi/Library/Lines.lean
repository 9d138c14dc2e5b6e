import Mathlib.Algebra.GroupWithZero.Nat
import AgUi.Library.Separated

namespace AgUi
namespace Library

/-!
# Sequences cut at every mark

Each piece is a line without the mark that ends it; the tail is the line that
has not ended.  As with two marks in a row, only the tail has to be kept while
more of the sequence is to come.
-/

universe u

variable {A : Type u} [DecidableEq A] (mark : A)

def cutLines : List A -> Cut A
  | [] => { pieces := [], tail := [] }
  | symbol :: rest =>
    if symbol = mark then { pieces := [] :: (cutLines rest).pieces, tail := (cutLines rest).tail }
    else (cutLines rest).push symbol

/-- The cutting may be interrupted anywhere. -/
theorem cutLines_append (symbols more : List A) :
    cutLines mark (symbols ++ more) =
      { pieces := (cutLines mark symbols).pieces ++ (cutLines mark ((cutLines mark symbols).tail ++ more)).pieces
        tail := (cutLines mark ((cutLines mark symbols).tail ++ more)).tail } := by
  induction symbols with
  | nil => rfl
  | cons symbol rest ih =>
    by_cases marks : symbol = mark
    · rw [List.cons_append, cutLines, if_pos marks, cutLines, if_pos marks, ih]
      rfl
    · rw [List.cons_append, cutLines, if_neg marks, cutLines, if_neg marks, ih]
      rcases cutLines mark rest with ⟨pieces, tail⟩
      cases pieces with
      | nil =>
        simp only [Cut.push, List.nil_append, List.cons_append]
        rw [cutLines, if_neg marks]
        rfl
      | cons piece others => rfl

/-- What is cut off, a mark for each line, and the tail are all there is. -/
theorem length_cutLines (symbols : List A) :
    ((cutLines mark symbols).pieces.map fun piece => piece.length + 1).sum + (cutLines mark symbols).tail.length =
      symbols.length := by
  induction symbols with
  | nil => rfl
  | cons symbol rest ih =>
    rw [List.length_cons, ← ih, cutLines]
    split
    · simp only [List.map_cons, List.sum_cons, List.length_nil]
      omega
    · rcases cutLines mark rest with ⟨pieces, tail⟩
      cases pieces with
      | nil => simp only [Cut.push, List.map_nil, List.sum_nil, List.length_cons]; omega
      | cons piece others => simp only [Cut.push, List.map_cons, List.sum_cons, List.length_cons]; omega

/-- A line without marks is cut off whole. -/
theorem cutLines_line {line : List A} (unmarked : mark ∉ line) (rest : List A) :
    cutLines mark (line ++ mark :: rest) =
      { pieces := line :: (cutLines mark rest).pieces, tail := (cutLines mark rest).tail } := by
  induction line with
  | nil => rw [List.nil_append, cutLines, if_pos rfl]
  | cons symbol others ih =>
    have other : symbol ≠ mark := fun same => unmarked (same ▸ List.mem_cons_self)
    have later := ih fun member => unmarked (List.mem_cons_of_mem _ member)
    rw [List.cons_append, cutLines, if_neg other, later]
    rfl

end Library
end AgUi
