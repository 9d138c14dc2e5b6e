import Mathlib.Data.List.Basic

namespace AgUi
namespace Library

/-!
# Programs that build a state or fail

A program reads and changes a state, and may fail; a failure leaves nothing
behind.  What a program does is said of its successful runs.  A run of a
sequence splits into runs of its parts, and what one round of a loop keeps,
the loop keeps.
-/

universe u

abbrev Building (S E : Type u) := StateT S (Except E)

namespace Building

variable {S E A B : Type u}

theorem bind_ok_iff {program : Building S E A} {next : A -> Building S E B} {before : S} {result : B × S} :
    (program >>= next) before = .ok result ↔
      ∃ middle : A × S, program before = .ok middle ∧ next middle.1 middle.2 = .ok result := by
  change (program before >>= fun middle => next middle.1 middle.2) = .ok result ↔ _
  cases run : program before with
  | error cause =>
    constructor
    · intro done
      cases done
    · rintro ⟨middle, equal, -⟩
      cases equal
  | ok middle =>
    constructor
    · intro done
      exact ⟨middle, rfl, done⟩
    · rintro ⟨other, equal, done⟩
      cases equal
      exact done

/-- The same of an outcome without a state. -/
theorem outcome_bind_ok_iff {outcome : Except E A} {next : A -> Except E B} {value : B} :
    (outcome >>= next) = .ok value ↔ ∃ middle, outcome = .ok middle ∧ next middle = .ok value := by
  cases outcome with
  | error cause =>
    constructor
    · intro done
      cases done
    · rintro ⟨middle, equal, -⟩
      cases equal
  | ok middle =>
    constructor
    · intro done
      exact ⟨middle, rfl, done⟩
    · rintro ⟨other, equal, done⟩
      cases equal
      exact done

theorem pure_ok_iff {value : A} {before : S} {result : A × S} :
    (pure value : Building S E A) before = .ok result ↔ (value, before) = result :=
  ⟨Except.ok.inj, congrArg Except.ok⟩

theorem lift_ok_iff {outcome : Except E A} {before : S} {result : A × S} :
    (liftM outcome : Building S E A) before = .ok result ↔
      ∃ value, outcome = .ok value ∧ (value, before) = result := by
  cases outcome with
  | error cause =>
    constructor
    · intro done
      cases done
    · rintro ⟨value, equal, -⟩
      cases equal
  | ok value =>
    constructor
    · intro done
      exact ⟨value, rfl, Except.ok.inj done⟩
    · rintro ⟨other, equal, same⟩
      cases equal
      exact congrArg Except.ok same

section Loops

variable {X : Type u}

theorem foldlM_invariant (Holds : S -> B -> Prop) {round : B -> X -> Building S E B}
    (step : ∀ value item before result, Holds before value -> round value item before = .ok result ->
      Holds result.2 result.1)
    {items : List X} {value : B} {before : S} {result : B × S} (holds : Holds before value)
    (done : items.foldlM round value before = .ok result) : Holds result.2 result.1 := by
  induction items generalizing value before with
  | nil =>
    rw [List.foldlM_nil, pure_ok_iff] at done
    rw [← done]
    exact holds
  | cons item rest ih =>
    rw [List.foldlM_cons, bind_ok_iff] at done
    rcases done with ⟨middle, first, later⟩
    exact ih (step value item before middle holds first) later

theorem forM_invariant (Holds : S -> Prop) {round : X -> Building S E PUnit}
    (step : ∀ item before result, Holds before -> round item before = .ok result -> Holds result.2)
    {items : List X} {before : S} {result : PUnit × S} (holds : Holds before)
    (done : items.forM round before = .ok result) : Holds result.2 := by
  induction items generalizing before with
  | nil =>
    rw [List.forM, pure_ok_iff] at done
    rw [← done]
    exact holds
  | cons item rest ih =>
    rw [List.forM, bind_ok_iff] at done
    rcases done with ⟨middle, first, later⟩
    exact ih (step item before middle holds first) later

theorem mapM_extends (Holds : S -> List B -> Prop) {round : X -> Building S E B}
    (step : ∀ values item before result, Holds before values -> round item before = .ok result ->
      Holds result.2 (values ++ [result.1]))
    {items : List X} {values : List B} {before : S} {result : List B × S} (holds : Holds before values)
    (done : items.mapM round before = .ok result) : Holds result.2 (values ++ result.1) := by
  induction items generalizing values before result with
  | nil =>
    rw [List.mapM_nil, pure_ok_iff] at done
    rw [← done, List.append_nil]
    exact holds
  | cons item rest ih =>
    rw [List.mapM_cons, bind_ok_iff] at done
    rcases done with ⟨middle, first, later⟩
    rw [bind_ok_iff] at later
    rcases later with ⟨last, others, same⟩
    rw [pure_ok_iff] at same
    rw [← same, List.append_cons]
    exact ih (step values item before middle holds first) others

theorem mapM_invariant (Holds : S -> List B -> Prop) {round : X -> Building S E B}
    (step : ∀ values item before result, Holds before values -> round item before = .ok result ->
      Holds result.2 (values ++ [result.1]))
    {items : List X} {before : S} {result : List B × S} (holds : Holds before [])
    (done : items.mapM round before = .ok result) : Holds result.2 result.1 := by
  have extended := mapM_extends Holds step holds done
  rwa [List.nil_append] at extended

end Loops

end Building

end Library
end AgUi
