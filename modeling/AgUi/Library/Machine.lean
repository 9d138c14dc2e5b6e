namespace AgUi
namespace Library

/-!
# Machines

A machine takes an action or refuses it.  What it may come to is what some
finite list of actions leads to, each of which is allowed in the state it is
taken in.  An invariant of the machine holds at the start and is kept by
every allowed step.
-/

universe u v

variable {S : Type u} {A : Type v}

/-- The states a machine comes to by allowed steps. -/
inductive Reaches (step : S -> A -> Option S) (Allowed : S -> A -> Prop) (initial : S) : S -> Prop
  | start : Reaches step Allowed initial initial
  | step {state after : S} {action : A} (before : Reaches step Allowed initial state)
      (allowed : Allowed state action) (taken : step state action = some after) :
      Reaches step Allowed initial after

namespace Reaches

variable {step : S -> A -> Option S} {Allowed : S -> A -> Prop} {initial : S}

/-- What holds at the start and is kept by every step holds throughout. -/
theorem invariant (Holds : S -> Prop) (holds : Holds initial)
    (kept : ∀ state action after, Holds state -> Allowed state action -> step state action = some after ->
      Holds after) {state : S} (reached : Reaches step Allowed initial state) : Holds state := by
  induction reached with
  | start => exact holds
  | step _ allowed taken ih => exact kept _ _ _ ih allowed taken

end Reaches

/-- The state a list of actions leads to, if the machine takes them all. -/
def runActions (step : S -> A -> Option S) : S -> List A -> Option S
  | state, [] => some state
  | state, action :: rest =>
    match step state action with
    | none => none
    | some after => runActions step after rest

/-- Where a list of actions leads, the machine may come to, if they are allowed wherever it is. -/
theorem reaches_of_runActions {step : S -> A -> Option S} {Allowed : S -> A -> Prop} {initial state final : S}
    (before : Reaches step Allowed initial state) {actions : List A}
    (allowed : ∀ action ∈ actions, ∀ state, Allowed state action)
    (run : runActions step state actions = some final) : Reaches step Allowed initial final := by
  induction actions generalizing state with
  | nil =>
    cases run
    exact before
  | cons action rest ih =>
    unfold runActions at run
    split at run
    · cases run
    · rename_i after taken
      refine ih (.step before (allowed action List.mem_cons_self state) taken) ?_ run
      exact (List.forall_mem_cons.mp allowed).2

end Library
end AgUi
