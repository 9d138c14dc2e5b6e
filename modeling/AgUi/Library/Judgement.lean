import AgUi.Library.Stage

namespace AgUi
namespace Library
namespace Stage

/-!
# Where a stream is refused

Whether a stage refuses a stream may depend on a part of its state alone.  The
verdicts of such a stage are those of a step on that part.

Two streams that are cut into the same number of blocks are compared by the
number of the block at which each is refused.
-/

universe u v w x y

variable {S : Type u} {A : Type v} {B : Type w} {E : Type x} {T : Type y} {stage : Stage S A B E}

/-- The verdict on an input, and the part of the state after it, depend on that part alone. -/
def Judges (stage : Stage S A B E) (part : S -> T) (judge : T -> A -> Except E T) : Prop :=
  ∀ state input, (stage state input).map (fun next => part next.1) = judge (part state) input

theorem Judges.run {part : S -> T} {judge : T -> A -> Except E T} (judges : Judges stage part judge) (state : S)
    (inputs : List A) : (stage.run state inputs).2.map part = inputs.foldlM judge (part state) := by
  induction inputs generalizing state with
  | nil => rfl
  | cons input rest ih =>
    have verdict := judges state input
    rw [List.foldlM_cons, ← verdict, Stage.run]
    cases stage state input with
    | error error => rfl
    | ok next => exact ih next.1

/-- The number of the block at which a stream is refused, and why. -/
def refusal (stage : Stage S A B E) : S -> List (List A) -> Option (Nat × E)
  | _, [] => none
  | state, block :: rest =>
    match (stage.run state block).2 with
    | .error error => some (0, error)
    | .ok next => (refusal stage next rest).map fun later => (later.1 + 1, later.2)

def refusalBy (judge : T -> A -> Except E T) : T -> List (List A) -> Option (Nat × E)
  | _, [] => none
  | part, block :: rest =>
    match block.foldlM judge part with
    | .error error => some (0, error)
    | .ok next => (refusalBy judge next rest).map fun later => (later.1 + 1, later.2)

theorem Judges.refusal {part : S -> T} {judge : T -> A -> Except E T} (judges : Judges stage part judge) (state : S)
    (blocks : List (List A)) : Stage.refusal stage state blocks = refusalBy judge (part state) blocks := by
  induction blocks generalizing state with
  | nil => rfl
  | cons block rest ih =>
    rw [Stage.refusal, refusalBy, ← judges.run]
    cases (stage.run state block).2 with
    | error error => rfl
    | ok next => exact congrArg (Option.map fun later => (later.1 + 1, later.2)) (ih next)

section Blocks

variable {judge : T -> A -> Except E T} {part next : T} {block : List A} {rest : List (List A)} {error : E}

theorem refusalBy_of_error (refused : block.foldlM judge part = .error error) :
    refusalBy judge part (block :: rest) = some (0, error) := by
  rw [refusalBy, refused]

theorem refusalBy_of_ok (passed : block.foldlM judge part = .ok next) :
    refusalBy judge part (block :: rest) =
      (refusalBy judge next rest).map fun later => (later.1 + 1, later.2) := by
  rw [refusalBy, passed]

/-- Behind a block that passes, streams are refused alike as what follows it is. -/
theorem refusalBy_eq_iff_of_ok {other : List A} {others : List (List A)} (passed : block.foldlM judge part = .ok next)
    (otherPassed : other.foldlM judge part = .ok next) :
    refusalBy judge part (block :: rest) = refusalBy judge part (other :: others) ↔
      refusalBy judge next rest = refusalBy judge next others := by
  rw [refusalBy_of_ok passed, refusalBy_of_ok otherPassed]
  constructor
  · intro same
    refine Option.map_injective ?_ same
    intro first second equal
    have parts := Prod.mk.inj equal
    exact Prod.ext (Nat.succ.inj parts.1) parts.2
  · intro same
    rw [same]

theorem refusalBy_ne_of_ok {other : List A} {others : List (List A)} (refused : block.foldlM judge part = .error error)
    (passed : other.foldlM judge part = .ok next) :
    refusalBy judge part (block :: rest) ≠ refusalBy judge part (other :: others) := by
  rw [refusalBy_of_error refused, refusalBy_of_ok passed]
  intro same
  rcases Option.map_eq_some_iff.mp same.symm with ⟨later, _, equal⟩
  exact Nat.succ_ne_zero _ (congrArg Prod.fst equal)

end Blocks

/-- A stream is refused as its blocks are. -/
theorem run_flatten (state : S) (blocks : List (List A)) (error : E) :
    (stage.run state blocks.flatten).2 = .error error ↔
      ∃ place, refusal stage state blocks = some (place, error) := by
  induction blocks generalizing state with
  | nil =>
    constructor
    · intro impossible
      cases impossible
    · rintro ⟨place, impossible⟩
      cases impossible
  | cons block rest ih =>
    rw [List.flatten_cons, run_append, refusal]
    cases ended : (stage.run state block).2 with
    | error early =>
      dsimp only
      rw [ended]
      constructor
      · intro same
        cases same
        exact ⟨0, rfl⟩
      · rintro ⟨place, same⟩
        cases same
        rfl
    | ok next =>
      refine (ih next).trans ⟨?_, ?_⟩
      · rintro ⟨place, refused⟩
        dsimp only
        rw [refused]
        exact ⟨place + 1, rfl⟩
      · rintro ⟨place, refused⟩
        rcases Option.map_eq_some_iff.mp refused with ⟨⟨later, _⟩, found, same⟩
        cases same
        exact ⟨later, found⟩

theorem accepts_flatten (state : S) (blocks : List (List A)) :
    stage.accepts state blocks.flatten = true ↔ refusal stage state blocks = none := by
  unfold accepts
  cases ended : (stage.run state blocks.flatten).2 with
  | error error =>
    rcases (run_flatten state blocks error).mp ended with ⟨place, refused⟩
    rw [refused]
    constructor
    · intro impossible
      cases impossible
    · intro impossible
      cases impossible
  | ok final =>
    refine ⟨fun _ => ?_, fun _ => rfl⟩
    cases refused : refusal stage state blocks with
    | none => rfl
    | some found =>
      have failed := (run_flatten state blocks found.2).mpr ⟨found.1, refused⟩
      rw [ended] at failed
      cases failed

end Stage
end Library
end AgUi
