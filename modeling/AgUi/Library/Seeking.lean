import Mathlib.Data.List.Nodup
import Mathlib.Data.List.Perm.Subperm

namespace AgUi
namespace Library

/-!
# Seeking a free value

Numbered candidates are tried one after the other until one is not in use.
Where no two numbers give the same candidate, the search ends after at most one
more trial than there are values in use.
-/

universe u

variable {A : Type u} [DecidableEq A]

/-- The first candidate from a number on that is not in use. -/
def seek (candidate : Nat -> A) (used : List A) : Nat -> Nat -> Option A
  | 0, _ => none
  | fuel + 1, number =>
    if candidate number ∈ used then seek candidate used fuel (number + 1) else some (candidate number)

variable {candidate : Nat -> A} {used : List A}

theorem seek_sound {fuel start : Nat} {found : A} (result : seek candidate used fuel start = some found) :
    found ∉ used ∧ ∃ number, start ≤ number ∧ number < start + fuel ∧ found = candidate number := by
  induction fuel generalizing start with
  | zero => cases result
  | succ fuel ih =>
    rw [seek] at result
    split at result
    · rcases ih result with ⟨free, number, later, early, same⟩
      exact ⟨free, number, by omega, by omega, same⟩
    · rename_i free
      cases result
      exact ⟨free, start, by omega, by omega, rfl⟩

/-- Only candidates in use are passed over. -/
theorem used_of_seek_none {fuel start : Nat} (nothing : seek candidate used fuel start = none) :
    ∀ number, start ≤ number -> number < start + fuel -> candidate number ∈ used := by
  induction fuel generalizing start with
  | zero =>
    intro number later early
    omega
  | succ fuel ih =>
    rw [seek] at nothing
    split at nothing
    · rename_i taken
      intro number later early
      by_cases first : number = start
      · exact first ▸ taken
      · exact ih nothing number (by omega) (by omega)
    · cases nothing

/-- A search through distinct candidates ends. -/
theorem seek_finds (apart : ∀ one other, candidate one = candidate other -> one = other) {fuel : Nat}
    (enough : used.length < fuel) (start : Nat) : ∃ found, seek candidate used fuel start = some found := by
  cases result : seek candidate used fuel start with
  | some found => exact ⟨found, rfl⟩
  | none =>
    -- `fuel` distinct candidates would all be among the values in use
    have distinct : ((List.range' start fuel).map candidate).Nodup :=
      List.Nodup.map (fun one other same => apart one other same) List.nodup_range'
    have taken : (List.range' start fuel).map candidate ⊆ used := by
      intro value member
      rcases List.mem_map.mp member with ⟨number, inRange, rfl⟩
      have bounds := List.mem_range'_1.mp inRange
      exact used_of_seek_none result number bounds.1 bounds.2
    have short := (distinct.subperm taken).length_le
    rw [List.length_map, List.length_range'] at short
    omega

/-- More fuel finds the same. -/
theorem seek_mono {fuel more start : Nat} {found : A} (result : seek candidate used fuel start = some found)
    (enough : fuel ≤ more) : seek candidate used more start = some found := by
  induction fuel generalizing start more with
  | zero => cases result
  | succ fuel ih =>
    cases more with
    | zero => omega
    | succ more =>
      rw [seek] at result ⊢
      split at result
      · rename_i taken
        rw [if_pos taken]
        exact ih result (by omega)
      · rename_i free
        rw [if_neg free]
        exact result

end Library
end AgUi
