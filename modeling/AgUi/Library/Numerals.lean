import Mathlib.Algebra.Field.Rat
import Mathlib.Algebra.GroupWithZero.Basic
import Mathlib.Data.List.DropRight
import Mathlib.Data.List.Induction
import AgUi.Library.Decimals

namespace AgUi
namespace Library
namespace Decimals

/-!
# Numerals

The one text of digits without a zero in front that stands for a number, and
the one form of a decimal number without zeros at the end.
-/

/-! ## Digits -/

theorem digit_bounds {char : Char} (isDigit : char.isDigit = true) :
    digit char < 10 ∧ char.toNat = digit char + '0'.toNat := by
  simp only [Char.isDigit, Bool.and_eq_true, decide_eq_true_eq, ge_iff_le, UInt32.le_iff_toNat_le] at isDigit
  have low : 48 ≤ char.toNat := isDigit.1
  have high : char.toNat ≤ 57 := isDigit.2
  have zero : '0'.toNat = 48 := by
    decide
  rw [digit, zero]
  omega

theorem digitChar_digit {char : Char} (isDigit : char.isDigit = true) : Nat.digitChar (digit char) = char := by
  have bounds := digit_bounds isDigit
  apply Char.toNat_inj.mp
  rw [Nat.toNat_digitChar_of_lt_ten bounds.1, bounds.2]
  exact Nat.add_comm _ _

theorem digit_pos {char : Char} (isDigit : char.isDigit = true) (notZero : char ≠ '0') : 0 < digit char := by
  by_contra none
  have zero : digit char = 0 := by omega
  apply notZero
  rw [← digitChar_digit isDigit, zero]
  rfl

/-! ## Numbers -/

theorem decimal_append (left right : List Char) :
    decimal (left ++ right) = 10 ^ right.length * decimal left + decimal right := by
  have read : decimal (left ++ right) = Nat.ofDigitChars 10 (left ++ right) 0 := rfl
  rw [read, Nat.ofDigitChars_append, Nat.ofDigitChars_eq_ofDigitChars_zero]
  rfl

theorem decimal_concat (digits : List Char) (char : Char) :
    decimal (digits ++ [char]) = 10 * decimal digits + digit char := by
  rw [decimal_append]
  simp [decimal]

theorem decimal_lt {digits : List Char} (all : digits.all Char.isDigit = true) :
    decimal digits < 10 ^ digits.length := by
  induction digits using List.reverseRecOn with
  | nil => decide
  | append_singleton digits char ih =>
    rw [List.all_append, Bool.and_eq_true] at all
    have below := ih all.1
    have small := (digit_bounds (by simpa using all.2)).1
    rw [decimal_concat, List.length_append, List.length_singleton, Nat.pow_succ]
    omega

/-- A digit in front that is no zero counts. -/
theorem pow_le_decimal {first : Char} (rest : List Char) (isDigit : first.isDigit = true) (notZero : first ≠ '0') :
    10 ^ rest.length ≤ decimal (first :: rest) := by
  have split : first :: rest = [first] ++ rest := rfl
  have one : decimal [first] = digit first := by
    simp [decimal]
  have counts := digit_pos isDigit notZero
  have enough := Nat.mul_le_mul_left (10 ^ rest.length) counts
  rw [split, decimal_append, one]
  omega

/-! ## Numerals -/

theorem toDigits_decimal {text : List Char} (numeral : IsNumeral text) : Nat.toDigits 10 (decimal text) = text := by
  induction text using List.reverseRecOn with
  | nil => exact absurd rfl numeral.1
  | append_singleton digits char ih =>
    rcases numeral with ⟨notEmpty, all, noZero⟩
    rw [List.all_append, Bool.and_eq_true] at all
    have isDigit : char.isDigit = true := by
      simpa using all.2
    have small := (digit_bounds isDigit).1
    cases digits with
    | nil =>
      have one : decimal ([] ++ [char]) = digit char := by
        simp [decimal]
      rw [one, Nat.toDigits_of_lt_base small, digitChar_digit isDigit]
      rfl
    | cons first rest =>
      have firstNotZero : first ≠ '0' := by
        rintro rfl
        simpa using noZero rfl
      have firstDigit : first.isDigit = true := by
        simpa using (List.all_eq_true.mp all.1) first (List.mem_cons_self ..)
      have inner : IsNumeral (first :: rest) := by
        refine ⟨by simp, all.1, ?_⟩
        intro zero
        exact absurd (Option.some.inj zero) firstNotZero
      have positive : 0 < decimal (first :: rest) :=
        Nat.lt_of_lt_of_le (Nat.pow_pos (by decide)) (pow_le_decimal _ firstDigit firstNotZero)
      rw [decimal_concat, ← Nat.toDigits_append_toDigits (by decide) positive small, ih inner,
        Nat.toDigits_of_lt_base small, digitChar_digit isDigit]

theorem decimal_toDigits (number : Nat) : decimal (Nat.toDigits 10 number) = number := by
  exact Nat.ofDigitChars_ten_toDigits

theorem head_toDigits (number : Nat) : 0 < number -> (Nat.toDigits 10 number).head? ≠ some '0' := by
  induction number using Nat.strongRecOn with
  | ind number ih =>
    intro positive
    by_cases small : number < 10
    · rw [Nat.toDigits_of_lt_base small]
      intro zero
      have isZero : number = 0 := by
        simpa using zero
      omega
    · have inner := ih (number / 10) (by omega) (by omega)
      rw [Nat.toDigits_of_base_le (by decide) (by omega), List.head?_append]
      cases digits : Nat.toDigits 10 (number / 10) with
      | nil => exact absurd digits Nat.toDigits_ne_nil
      | cons first rest =>
        rw [digits] at inner
        exact inner

theorem isNumeral_toDigits (number : Nat) : IsNumeral (Nat.toDigits 10 number) := by
  refine ⟨Nat.toDigits_ne_nil, ?_, ?_⟩
  · exact List.all_eq_true.mpr fun char member => Nat.isDigit_of_mem_toDigits (by decide) (by decide) member
  · intro zero
    by_cases small : number < 10
    · rw [Nat.toDigits_of_lt_base small]
      rfl
    · exact absurd zero (head_toDigits number (by omega))

/-! ## Zeros -/

/-- What is left without the zeros in front is the numeral, or nothing where the number is zero. -/
theorem dropZeros {text : List Char} (all : text.all Char.isDigit = true) :
    text.dropWhile (· = '0') = if decimal text = 0 then [] else Nat.toDigits 10 (decimal text) := by
  induction text with
  | nil => rfl
  | cons first rest ih =>
    have digits := all
    rw [List.all_cons, Bool.and_eq_true] at all
    by_cases zero : first = '0'
    · have same : decimal (first :: rest) = decimal rest := by
        have split : first :: rest = [first] ++ rest := rfl
        rw [split, decimal_append, zero]
        simp [decimal, digit]
      rw [List.dropWhile_cons_of_pos (by simpa using zero), ih all.2, same]
    · have counts := pow_le_decimal rest all.1 zero
      have positive : 0 < 10 ^ rest.length := Nat.pow_pos (by decide)
      have numeral : IsNumeral (first :: rest) := by
        refine ⟨by simp, digits, ?_⟩
        intro isZero
        exact absurd (Option.some.inj isZero) zero
      rw [List.dropWhile_cons_of_neg (by simpa using zero), if_neg (by omega), toDigits_decimal numeral]

/-- Zeros at the end are powers of ten. -/
theorem trimZeros (text : List Char) :
    decimal text = 10 ^ (text.length - (text.rdropWhile (· = '0')).length) * decimal (text.rdropWhile (· = '0')) := by
  induction text using List.reverseRecOn with
  | nil => rfl
  | append_singleton digits char ih =>
    by_cases zero : char = '0'
    · have shorter := List.IsPrefix.length_le (List.rdropWhile_prefix (fun char => decide (char = '0')) digits)
      rw [List.rdropWhile_concat_pos _ _ _ (by simpa using zero), decimal_concat, zero, List.length_append,
        List.length_singleton, Nat.sub_add_comm shorter, Nat.pow_succ]
      have none : digit '0' = 0 := by
        decide
      rw [none, Nat.add_zero]
      nth_rewrite 1 [ih]
      rw [Nat.mul_comm (10 ^ _) 10, Nat.mul_assoc]
    · rw [List.rdropWhile_concat_neg _ _ _ (by simpa using zero), Nat.sub_self, Nat.pow_zero, Nat.one_mul]

/-- What is left of a numeral without the zeros at its end is a numeral, of no multiple of ten. -/
theorem numeral_trimZeros {number : Nat} (positive : 0 < number) :
    IsNumeral ((Nat.toDigits 10 number).rdropWhile (· = '0')) ∧
      Not (10 ∣ decimal ((Nat.toDigits 10 number).rdropWhile (· = '0'))) := by
  have numeral := isNumeral_toDigits number
  have trimmed := trimZeros (Nat.toDigits 10 number)
  have start := List.rdropWhile_prefix (fun char => decide (char = '0')) (Nat.toDigits 10 number)
  have last := List.rdropWhile_last_not (fun char => decide (char = '0')) (Nat.toDigits 10 number)
  rw [decimal_toDigits] at trimmed
  generalize (Nat.toDigits 10 number).rdropWhile (· = '0') = kept at trimmed start last ⊢
  have notEmpty : kept ≠ [] := by
    rintro rfl
    rw [show decimal [] = 0 from rfl, Nat.mul_zero] at trimmed
    omega
  have digits : kept.all Char.isDigit = true :=
    List.all_eq_true.mpr fun char member => List.all_eq_true.mp numeral.2.1 char (start.subset member)
  have noZero : kept.head? ≠ some '0' := by
    intro zero
    rcases start with ⟨rest, whole⟩
    apply head_toDigits number positive
    rw [← whole, List.head?_append, zero]
    rfl
  refine ⟨⟨notEmpty, digits, fun zero => absurd zero noZero⟩, ?_⟩
  intro divides
  have ends := List.dropLast_append_getLast notEmpty
  have lastDigit := List.all_eq_true.mp digits _ (List.getLast_mem notEmpty)
  have counts := digit_pos lastDigit (by simpa using last notEmpty)
  have small := (digit_bounds lastDigit).1
  rw [← ends, decimal_concat] at divides
  omega

/-! ## Integers -/

/-- The text of an integer. -/
def intText (number : Int) : List Char :=
  if number < 0 then '-' :: Nat.toDigits 10 number.natAbs else Nat.toDigits 10 number.natAbs

theorem intText_of_nat (number : Nat) : intText (number : Int) = Nat.toDigits 10 number := by
  rw [intText, if_neg (by omega), Int.natAbs_natCast]

theorem intText_of_neg {number : Nat} (positive : 0 < number) :
    intText (-(number : Int)) = '-' :: Nat.toDigits 10 number := by
  rw [intText, if_pos (by omega), Int.natAbs_neg, Int.natAbs_natCast]

theorem intText_injective {left right : Int} (same : intText left = intText right) : left = right := by
  have noMinus : ∀ number, (Nat.toDigits 10 number).head? ≠ some '-' := by
    intro number minus
    cases digits : Nat.toDigits 10 number with
    | nil =>
      rw [digits] at minus
      cases minus
    | cons first rest =>
      rw [digits] at minus
      cases minus
      have isDigit := (List.all_eq_true.mp (isNumeral_toDigits number).2.1) '-' (by rw [digits]; simp)
      exact absurd isDigit (by decide)
  have natAbs : ∀ {number other : Nat}, Nat.toDigits 10 number = Nat.toDigits 10 other -> number = other := by
    intro number other equal
    rw [← decimal_toDigits number, equal, decimal_toDigits]
  rw [intText, intText] at same
  by_cases leftNegative : left < 0
  · by_cases rightNegative : right < 0
    · rw [if_pos leftNegative, if_pos rightNegative] at same
      have equal := natAbs (List.tail_eq_of_cons_eq same)
      omega
    · rw [if_pos leftNegative, if_neg rightNegative] at same
      exact absurd (by rw [← same]; rfl) (noMinus right.natAbs)
  · by_cases rightNegative : right < 0
    · rw [if_neg leftNegative, if_pos rightNegative] at same
      exact absurd (by rw [same]; rfl) (noMinus left.natAbs)
    · rw [if_neg leftNegative, if_neg rightNegative] at same
      have equal := natAbs same
      omega

/-! ## Powers of ten -/

/-- A coefficient without powers of ten, or the one form of zero. -/
def Reduced (coefficient exponent : Int) : Prop :=
  coefficient = 0 ∧ exponent = 0 ∨ ¬ 10 ∣ coefficient

theorem scaled_le {left right low high : Int} (notLeft : ¬ 10 ∣ left) (order : low ≤ high)
    (same : (left : Rat) * 10 ^ low = right * 10 ^ high) : left = right ∧ low = high := by
  have split : (10 : Rat) ^ high = 10 ^ (high - low).toNat * 10 ^ low := by
    rw [← zpow_natCast, ← zpow_add₀ (by decide), Int.toNat_of_nonneg (by omega), Int.sub_add_cancel]
  have scaled : left = right * 10 ^ (high - low).toNat := by
    rw [split, ← mul_assoc] at same
    exact_mod_cast mul_right_cancel₀ (zpow_ne_zero low (by decide)) same
  cases distance : (high - low).toNat with
  | zero =>
    rw [distance, Int.pow_zero, Int.mul_one] at scaled
    exact ⟨scaled, by omega⟩
  | succ count =>
    rw [distance, Int.pow_succ, ← Int.mul_assoc] at scaled
    exact absurd (Dvd.intro_left _ scaled.symm) notLeft

/-- A number has one reduced form. -/
theorem scaled_eq_iff {left right low high : Int} (leftReduced : Reduced left low) (rightReduced : Reduced right high) :
    (left : Rat) * 10 ^ low = right * 10 ^ high ↔ left = right ∧ low = high := by
  have zero {coefficient exponent : Int} (none : (coefficient : Rat) * 10 ^ exponent = 0) : 10 ∣ coefficient := by
    have same := (mul_eq_zero.mp none).resolve_right (zpow_ne_zero _ (by decide))
    exact ⟨0, by exact_mod_cast same⟩
  constructor
  · intro same
    rcases leftReduced with ⟨rfl, rfl⟩ | notLeft
    · rcases rightReduced with ⟨rfl, rfl⟩ | notRight
      · exact ⟨rfl, rfl⟩
      · exact absurd (zero (same.symm.trans (by simp))) notRight
    · rcases rightReduced with ⟨rfl, rfl⟩ | notRight
      · exact absurd (zero (same.trans (by simp))) notLeft
      · rcases Int.le_total low high with order | order
        · exact scaled_le notLeft order same
        · exact (scaled_le notRight order same.symm).imp Eq.symm Eq.symm
  · rintro ⟨rfl, rfl⟩
    rfl

end Decimals
end Library
end AgUi
