import Mathlib.Data.List.Basic

namespace AgUi
namespace Library
namespace Decimals

/-!
# Decimal texts

The number that digits stand for, and which text of digits stands for a number.
-/

def digit (char : Char) : Nat :=
  char.toNat - '0'.toNat

def decimal (digits : List Char) : Nat :=
  digits.foldl (fun value char => 10 * value + digit char) 0

/-- Digits, at least one, with no zero in front of others. -/
def IsNumeral (text : List Char) : Prop :=
  text ≠ [] ∧ text.all Char.isDigit = true ∧ (text.head? = some '0' -> text.length = 1)

instance (text : List Char) : Decidable (IsNumeral text) :=
  inferInstanceAs (Decidable (_ ∧ _ ∧ _))

end Decimals
end Library
end AgUi
