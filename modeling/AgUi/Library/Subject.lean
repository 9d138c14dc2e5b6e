namespace AgUi
namespace Library

/-!
# Subjects

A subject is told things by its producer and passes them on until it is told
that something failed or that everything is done.  From then on it passes
nothing on, whatever else it is told.  `observe` is what a subscriber sees of
everything a producer says.
-/

universe u v

variable {V : Type u} {E : Type v}

inductive Signal (V : Type u) (E : Type v) where
  | next (value : V)
  | error (cause : E)
  | complete

inductive Ending (E : Type v) where
  | unended
  | completed
  | failed (cause : E)
deriving DecidableEq

/-- The values passed on, and how the stream ends. -/
def observe : List (Signal V E) -> List V × Ending E
  | [] => ([], .unended)
  | .next value :: rest => (value :: (observe rest).1, (observe rest).2)
  | .error cause :: _ => ([], .failed cause)
  | .complete :: _ => ([], .completed)

theorem observe_nexts (values : List V) (rest : List (Signal V E)) :
    observe (values.map .next ++ rest) = (values ++ (observe rest).1, (observe rest).2) := by
  induction values with
  | nil => rfl
  | cons value others ih =>
    simp only [List.map_cons, List.cons_append, observe, ih]

/-- What comes first and ends nothing is followed by what comes next. -/
theorem observe_append_of_unended {first : List (Signal V E)} (running : (observe first).2 = .unended)
    (second : List (Signal V E)) :
    observe (first ++ second) = ((observe first).1 ++ (observe second).1, (observe second).2) := by
  induction first with
  | nil => rfl
  | cons signal rest ih =>
    cases signal with
    | next value =>
      have later := ih running
      simp only [List.cons_append, observe, later]
    | error cause | complete => cases running

/-- After the end nothing is passed on. -/
theorem observe_append_of_ended {first : List (Signal V E)} (ended : (observe first).2 ≠ .unended)
    (second : List (Signal V E)) : observe (first ++ second) = observe first := by
  induction first with
  | nil => exact absurd rfl ended
  | cons signal rest ih =>
    cases signal with
    | next value =>
      have later := ih ended
      simp only [List.cons_append, observe, later]
    | error cause => rfl
    | complete => rfl

theorem observe_append_congr_right {second other : List (Signal V E)} (first : List (Signal V E))
    (same : observe second = observe other) : observe (first ++ second) = observe (first ++ other) := by
  by_cases running : (observe first).2 = .unended
  · rw [observe_append_of_unended running, observe_append_of_unended running, same]
  · rw [observe_append_of_ended running, observe_append_of_ended running]

end Library
end AgUi
