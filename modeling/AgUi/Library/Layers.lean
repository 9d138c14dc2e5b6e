import Mathlib.Algebra.Group.Defs

namespace AgUi
namespace Library

/-!
# Layers

A value is built in layers, each of which lies over the older ones, says
nothing, takes everything away, or starts anew.  What there is in the end can
be found from the newest layer backwards; which of the older layers no longer
count is what such a search has to know.

`value * older` is a value with an older one under it.
-/

universe u

inductive Layer (V : Type u) where
  | silent
  | cleared
  /-- Lies over the older layers, or over none of them where it starts anew. -/
  | sets (anew : Bool) (value : V)

namespace Layer

variable {V : Type u} [Monoid V]

/-- The next layer comes to lie over what there is. -/
def lay (under : Option V) : Layer V -> Option V
  | silent => under
  | cleared => none
  | sets true value => some value
  | sets false value => some (value * under.getD 1)

/-- Two layers, one after the other, are one. -/
def andThen : Layer V -> Layer V -> Layer V
  | first, silent => first
  | _, cleared => cleared
  | _, sets true value => sets true value
  | silent, sets false value => sets false value
  | cleared, sets false value => sets true value
  | sets anew older, sets false value => sets anew (value * older)

theorem lay_andThen (under : Option V) (first second : Layer V) :
    lay under (andThen first second) = lay (lay under first) second := by
  cases second with
  | silent | cleared => cases first <;> rfl
  | sets anew value =>
    cases anew with
    | true => cases first <;> rfl
    | false =>
      cases first with
      | silent => rfl
      | cleared => exact congrArg some (mul_one value).symm
      | sets anew older =>
        cases anew with
        | true => rfl
        | false => exact congrArg some (mul_assoc value older _)

/-- Layers laid on one another are one layer. -/
theorem lay_foldl_andThen (under : Option V) (first : Layer V) (layers : List (Layer V)) :
    lay under (layers.foldl andThen first) = layers.foldl lay (lay under first) := by
  induction layers generalizing first with
  | nil => rfl
  | cons layer layers ih =>
    rw [List.foldl_cons, ih, lay_andThen, List.foldl_cons]

/-! ## The newest layer first -/

/-- The newest layer that says anything sets a value. -/
def standing : List (Layer V) -> Bool
  | [] => false
  | silent :: older => standing older
  | cleared :: _ => false
  | sets _ _ :: _ => true

/-- What the layers set since the last time everything was taken away. -/
def current : List (Layer V) -> V
  | [] => 1
  | silent :: older => current older
  | cleared :: _ => 1
  | sets true value :: _ => value
  | sets false value :: older => value * current older

/-- What all the layers set. -/
def every : List (Layer V) -> V
  | [] => 1
  | silent :: older => every older
  | cleared :: older => every older
  | sets _ value :: older => value * every older

/-- What they set before the last time everything was taken away. -/
def stale : List (Layer V) -> V
  | [] => 1
  | silent :: older => stale older
  | cleared :: older => every older
  | sets true _ :: older => every older
  | sets false _ :: older => stale older

theorem every_eq (layers : List (Layer V)) : every layers = current layers * stale layers := by
  induction layers with
  | nil => exact (one_mul 1).symm
  | cons layer older ih =>
    cases layer with
    | silent => exact ih
    | cleared => exact (one_mul _).symm
    | sets anew value =>
      cases anew with
      | true => rfl
      | false => rw [every, ih, current, stale, mul_assoc]

theorem current_of_not_standing {layers : List (Layer V)} (gone : standing layers = false) : current layers = 1 := by
  induction layers with
  | nil => rfl
  | cons layer older ih =>
    cases layer with
    | silent => exact ih gone
    | cleared => rfl
    | sets anew value => cases gone

/-- Laid in their order, the layers leave what they set since the last time everything was taken away. -/
theorem foldl_lay_reverse (layers : List (Layer V)) :
    layers.reverse.foldl lay none = if standing layers then some (current layers) else none := by
  induction layers with
  | nil => rfl
  | cons layer older ih =>
    rw [List.reverse_cons, List.foldl_append, ih]
    cases layer with
    | silent => rfl
    | cleared => rfl
    | sets anew value =>
      cases anew with
      | true => rfl
      | false =>
        cases stands : standing older with
        | true => rfl
        | false =>
          rw [current, current_of_not_standing stands]
          rfl

end Layer
end Library
end AgUi
