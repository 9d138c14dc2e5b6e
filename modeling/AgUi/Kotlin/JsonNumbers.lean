import Mathlib
import AgUi.Library.JsonPatch
import AgUi.Library.Numerals

namespace AgUi
namespace Kotlin

open Library Decimals JsonPatch

/-!
# Numbers of JSON texts in Kotlin

A number is kept as the text it was written in, and two numbers are compared
by a normal form: the sign with the digits that count, and the exponent as a
text of any length.  The normal forms are equal if and only if the numbers are.
-/

abbrev Literal := List Char

/-! ## The pattern -/

/-- The groups of `jsonNumberPattern`; a group that matches nothing is empty. -/
structure NumberParts where
  sign : Literal
  integer : Literal
  fraction : Literal
  exponent : Literal

/-- `(-?)` -/
def takeMinus : Literal -> Literal × Literal
  | [] => ([], [])
  | char :: rest => if char = '-' then (['-'], rest) else ([], char :: rest)

/-- `(0|[1-9][0-9]*)` -/
def takeInteger : Literal -> Option (Literal × Literal)
  | [] => none
  | char :: rest =>
    if char = '0' then some (['0'], rest)
    else if char.isDigit then some (char :: rest.takeWhile Char.isDigit, rest.dropWhile Char.isDigit)
    else none

/-- `(?:\.([0-9]+))?` -/
def takeFraction : Literal -> Option (Literal × Literal)
  | [] => some ([], [])
  | char :: rest =>
    if char = '.' then
      if rest.takeWhile Char.isDigit = [] then none
      else some (rest.takeWhile Char.isDigit, rest.dropWhile Char.isDigit)
    else some ([], char :: rest)

/-- An exponent without its sign. -/
def unsigned (text : Literal) : Literal :=
  if text.head? = some '+' ∨ text.head? = some '-' then text.tail else text

/-- `[+-]?[0-9]+`, to the end -/
def IsExponent (text : Literal) : Prop :=
  unsigned text ≠ [] ∧ (unsigned text).all Char.isDigit = true

instance (text : Literal) : Decidable (IsExponent text) :=
  inferInstanceAs (Decidable (_ ∧ _))

/-- `(?:[eE]([+-]?[0-9]+))?`, to the end -/
def takeExponent : Literal -> Option Literal
  | [] => some []
  | char :: rest => if (char = 'e' ∨ char = 'E') ∧ IsExponent rest then some rest else none

/-- `jsonNumberPattern.matchEntire` -/
def matchNumber (text : Literal) : Option NumberParts :=
  (takeInteger (takeMinus text).2).bind fun integer =>
    (takeFraction integer.2).bind fun fraction =>
      (takeExponent fraction.2).map fun exponent =>
        { sign := (takeMinus text).1, integer := integer.1, fraction := fraction.1, exponent := exponent }

/-- A text that is a number; the length of a string is an `Int`. -/
structure NumberLiteral where
  content : Literal
  isNumber : (matchNumber content).isSome = true
  fits : content.length < 2 ^ 31
deriving DecidableEq

/-! ## Normal forms -/

/-- The digits of an exponent with something added, the last of them first, and what is carried over. -/
def adjustDigits : Literal -> Int -> Literal × Int
  | [], carry => ([], carry)
  | char :: rest, carry =>
    let value := (digit char : Int) + carry
    let lower := (value.tmod 10 + 10).tmod 10
    let adjusted := adjustDigits rest ((value - lower).tdiv 10)
    (Nat.digitChar lower.toNat :: adjusted.1, adjusted.2)

def removePrefix (char : Char) (text : Literal) : Literal :=
  if text.head? = some char then text.tail else text

def ifEmptyZero (text : Literal) : Literal :=
  if text = [] then ['0'] else text

def adjustDecimalExponent (exponent : Literal) (adjustment : Int) : Literal :=
  let negative := exponent.head? = some '-'
  let magnitude := ifEmptyZero ((removePrefix '+' (removePrefix '-' exponent)).dropWhile (· = '0'))
  if magnitude.length ≤ 10 then
    intText ((if negative then -(decimal magnitude : Int) else decimal magnitude) + adjustment)
  else
    let adjusted := adjustDigits magnitude.reverse (if negative then -adjustment else adjustment)
    let reversed := if adjusted.2 ≠ 0 then adjusted.1 ++ intText adjusted.2 else adjusted.1
    let text := reversed.reverse.dropWhile (· = '0')
    if negative then '-' :: text else text

/-- Significant digits and exponent, the same for every spelling of a number. -/
def normalizedJsonNumber (value : Literal) : Option (Literal × Literal) :=
  (matchNumber value).map fun parts =>
    let digits := (parts.integer ++ parts.fraction).dropWhile (· = '0')
    if digits = [] then (['0'], ['0'])
    else
      let significantDigits := digits.rdropWhile (· = '0')
      let adjustment : Int := digits.length - significantDigits.length - parts.fraction.length
      (parts.sign ++ significantDigits, adjustDecimalExponent (ifEmptyZero parts.exponent) adjustment)

/-! ## Values -/

/-- The number an exponent stands for. -/
def exponentOf (text : Literal) : Int :=
  if text.head? = some '-' then -(decimal (unsigned text) : Int) else decimal (unsigned text)

/-- The number that the groups stand for. -/
def NumberParts.value (parts : NumberParts) : Rat :=
  (if parts.sign = ['-'] then -1 else 1) * decimal (parts.integer ++ parts.fraction) *
    10 ^ (exponentOf parts.exponent - parts.fraction.length)

def NumberLiteral.parts (literal : NumberLiteral) : NumberParts :=
  (matchNumber literal.content).get literal.isNumber

/-- The number that a text stands for. -/
def NumberLiteral.value (literal : NumberLiteral) : Rat :=
  literal.parts.value

/-! ## What is matched -/

/-- What the groups of a number are. -/
structure NumberParts.Matched (parts : NumberParts) (text : Literal) : Prop where
  sign : parts.sign = [] ∨ parts.sign = ['-']
  digits : (parts.integer ++ parts.fraction).all Char.isDigit = true
  exponent : parts.exponent = [] ∨ IsExponent parts.exponent
  length : (parts.integer ++ parts.fraction).length ≤ text.length

theorem takeMinus_cases (text : Literal) :
    ((takeMinus text).1 = [] ∨ (takeMinus text).1 = ['-']) ∧ (takeMinus text).2.length ≤ text.length := by
  fun_cases takeMinus text <;> simp

theorem digits_takeWhile (text : Literal) : (text.takeWhile Char.isDigit).all Char.isDigit = true ∧
    (text.takeWhile Char.isDigit).length + (text.dropWhile Char.isDigit).length = text.length := by
  rw [← List.length_append, List.takeWhile_append_dropWhile]
  exact ⟨List.all_eq_true.mpr fun char member => List.mem_takeWhile_imp member, rfl⟩

theorem takeInteger_cases {text : Literal} {integer : Literal × Literal} (taken : takeInteger text = some integer) :
    integer.1.all Char.isDigit = true ∧ integer.1.length + integer.2.length = text.length := by
  revert taken
  fun_cases takeInteger text with
  | case1 | case4 => exact fun taken => by cases taken
  | case2 rest =>
    rintro ⟨⟩
    exact ⟨rfl, Nat.add_comm _ _⟩
  | case3 char rest _ isDigit =>
    rintro ⟨⟩
    have digits := digits_takeWhile rest
    refine ⟨by rw [List.all_cons, isDigit, digits.1]; rfl, ?_⟩
    simp only [List.length_cons]
    omega

theorem takeFraction_cases {text : Literal} {fraction : Literal × Literal}
    (taken : takeFraction text = some fraction) :
    fraction.1.all Char.isDigit = true ∧ fraction.1.length ≤ text.length := by
  revert taken
  fun_cases takeFraction text with
  | case1 =>
    rintro ⟨⟩
    exact ⟨rfl, Nat.le_refl _⟩
  | case2 => exact fun taken => by cases taken
  | case3 rest =>
    rintro ⟨⟩
    have digits := digits_takeWhile rest
    refine ⟨digits.1, ?_⟩
    simp only [List.length_cons]
    omega
  | case4 =>
    rintro ⟨⟩
    exact ⟨rfl, Nat.zero_le _⟩

theorem takeExponent_cases {text exponent : Literal} (taken : takeExponent text = some exponent) :
    exponent = [] ∨ IsExponent exponent := by
  revert taken
  fun_cases takeExponent text with
  | case1 => exact fun same => .inl (Option.some.inj same).symm
  | case2 char rest isExponent => exact fun same => .inr (Option.some.inj same ▸ isExponent.2)
  | case3 => exact fun taken => by cases taken

theorem matched {text : Literal} {parts : NumberParts} (found : matchNumber text = some parts) :
    parts.Matched text := by
  rcases Option.bind_eq_some_iff.mp found with ⟨integer, takenInteger, found⟩
  rcases Option.bind_eq_some_iff.mp found with ⟨fraction, takenFraction, found⟩
  rcases Option.map_eq_some_iff.mp found with ⟨exponent, takenExponent, rfl⟩
  have minus := takeMinus_cases text
  have isInteger := takeInteger_cases takenInteger
  have isFraction := takeFraction_cases takenFraction
  refine ⟨minus.1, ?_, takeExponent_cases takenExponent, ?_⟩
  · rw [List.all_append, isInteger.1, isFraction.1]
    rfl
  · rw [List.length_append]
    dsimp only
    omega

/-! ## Exponents -/

/-- The least digit is taken upwards, whatever the sign. -/
theorem adjustDigits_cons (char : Char) (rest : Literal) (carry : Int) :
    adjustDigits (char :: rest) carry =
      (Nat.digitChar ((digit char + carry) % 10).toNat :: (adjustDigits rest ((digit char + carry) / 10)).1,
        (adjustDigits rest ((digit char + carry) / 10)).2) := by
  have lower (value : Int) : (value.tmod 10 + 10).tmod 10 = value % 10 := by
    have sign := Int.tmod_eq_emod (a := value) (b := 10)
    rw [Int.tmod_eq_emod_of_nonneg] <;> split at sign <;> omega
  have upper (value : Int) : (value - value % 10).tdiv 10 = value / 10 := by
    rw [show value - value % 10 = 10 * (value / 10) by omega, Int.mul_tdiv_cancel_left _ (by decide)]
  rw [adjustDigits, lower, upper]

/-- What comes out and what is carried over make the number with the addition. -/
theorem adjustDigits_eq {text : Literal} (carry : Int) (all : text.all Char.isDigit = true) :
    (adjustDigits text carry).1.all Char.isDigit = true ∧ (adjustDigits text carry).1.length = text.length ∧
      decimal text.reverse + carry =
        decimal (adjustDigits text carry).1.reverse + 10 ^ text.length * (adjustDigits text carry).2 := by
  induction text generalizing carry with
  | nil => simp [adjustDigits, decimal]
  | cons char rest ih =>
    rw [List.all_cons, Bool.and_eq_true] at all
    rw [adjustDigits_cons]
    generalize valueEq : (digit char : Int) + carry = value
    have lower : (value % 10).toNat < 10 := by
      omega
    rcases ih (value / 10) all.2 with ⟨digits, length, sum⟩
    refine ⟨?_, congrArg Nat.succ length, ?_⟩
    · rw [List.all_cons, digits, Nat.isDigit_digitChar, decide_eq_true lower]
      rfl
    · have isLower : digit (Nat.digitChar (value % 10).toNat) = (value % 10).toNat :=
        Nat.toNat_digitChar_sub_48_of_lt_ten lower
      rw [List.reverse_cons, decimal_concat, List.reverse_cons, decimal_concat, isLower, List.length_cons,
        Int.pow_succ, Int.mul_comm (10 ^ rest.length), Int.mul_assoc]
      generalize 10 ^ rest.length * (adjustDigits rest (value / 10)).2 = high at sum ⊢
      push_cast
      omega

/-- The magnitude is written without zeros in front. -/
theorem magnitude_eq {exponent : Literal} (isExponent : IsExponent exponent) :
    ifEmptyZero ((removePrefix '+' (removePrefix '-' exponent)).dropWhile (· = '0')) =
      Nat.toDigits 10 (decimal (unsigned exponent)) := by
  have plain : removePrefix '+' (removePrefix '-' exponent) = unsigned exponent := by
    cases exponent with
    | nil => rfl
    | cons char rest =>
      by_cases minus : char = '-'
      · subst minus
        have noPlus : rest.head? ≠ some '+' := by
          intro plus
          rcases List.head?_eq_some_iff.mp plus with ⟨others, rfl⟩
          exact absurd (List.all_eq_true.mp isExponent.2 '+' List.mem_cons_self) (by decide)
        exact if_neg noPlus
      · by_cases plus : char = '+' <;> simp [removePrefix, unsigned, minus, plus]
  rw [plain, dropZeros isExponent.2, ifEmptyZero]
  by_cases zero : decimal (unsigned exponent) = 0
  · rw [if_pos zero, if_pos rfl, zero]
    rfl
  · rw [if_neg zero, if_neg Nat.toDigits_ne_nil]

/-- A large magnitude keeps its sign: its digits with the addition are those of the sum. -/
theorem adjusted_eq {magnitude : Nat} {carry : Int} (large : 10 < (Nat.toDigits 10 magnitude).length)
    (low : -10 ^ 10 < carry) (high : carry < 10 ^ 10) :
    0 < magnitude + carry ∧
      (if (adjustDigits (Nat.toDigits 10 magnitude).reverse carry).2 ≠ 0 then
          (adjustDigits (Nat.toDigits 10 magnitude).reverse carry).1 ++
            intText (adjustDigits (Nat.toDigits 10 magnitude).reverse carry).2
        else (adjustDigits (Nat.toDigits 10 magnitude).reverse carry).1).reverse.dropWhile (· = '0') =
        Nat.toDigits 10 (magnitude + carry).toNat := by
  have digits := (isNumeral_toDigits magnitude).2.1
  have below := decimal_lt digits
  have atLeast : 10 ^ 10 ≤ magnitude := by
    by_contra less
    exact absurd ((Nat.length_toDigits_le_iff (by decide) (by decide)).mpr (Nat.not_le.mp less)) (by omega)
  rcases adjustDigits_eq carry (List.all_reverse.trans digits) with ⟨outDigits, outLength, sum⟩
  generalize adjustDigits (Nat.toDigits 10 magnitude).reverse carry = out at outDigits outLength sum ⊢
  rw [← List.all_reverse] at outDigits
  have outBelow := decimal_lt outDigits
  rw [List.length_reverse, outLength, List.length_reverse] at outBelow
  rw [List.reverse_reverse, decimal_toDigits, List.length_reverse] at sum
  rw [decimal_toDigits] at below
  have positive : 0 < magnitude + carry := by
    omega
  have final : out.2 = 0 ∨ out.2 = 1 := by
    have wide : (10 : Nat) ^ 10 ≤ 10 ^ (Nat.toDigits 10 magnitude).length :=
      Nat.pow_le_pow_right (by decide) (by omega)
    zify at below outBelow wide atLeast
    generalize (10 : Int) ^ (Nat.toDigits 10 magnitude).length = power at *
    have notLess : 0 ≤ out.2 := by
      by_contra less
      nlinarith
    have notMore : out.2 ≤ 1 := by
      by_contra more
      nlinarith
    omega
  have read : ∀ text : Literal, text.all Char.isDigit = true -> (decimal text : Int) = magnitude + carry ->
      text.dropWhile (· = '0') = Nat.toDigits 10 (magnitude + carry).toNat := by
    intro text all value
    rw [dropZeros all, if_neg (by omega), ← value, Int.toNat_natCast]
  refine ⟨positive, ?_⟩
  rcases final with none | one
  · rw [none, if_neg (not_not.mpr rfl)]
    refine read _ outDigits ?_
    rw [sum, none, Int.mul_zero, Int.add_zero]
  · have shape : (out.1 ++ intText 1).reverse = ['1'] ++ out.1.reverse := List.reverse_append
    rw [one, if_pos (by decide), shape]
    refine read _ ?_ ?_
    · rw [List.all_append, outDigits]
      rfl
    · have unit : decimal ['1'] = 1 := by
        decide
      rw [decimal_append, List.length_reverse, outLength, List.length_reverse, sum, one, unit]
      push_cast
      ring

/-- The adjusted exponent is the text of the sum. -/
theorem adjustDecimalExponent_eq {exponent : Literal} {adjustment : Int} (isExponent : IsExponent exponent)
    (low : -10 ^ 10 < adjustment) (high : adjustment < 10 ^ 10) :
    adjustDecimalExponent exponent adjustment = intText (exponentOf exponent + adjustment) := by
  rw [adjustDecimalExponent]
  dsimp only
  rw [magnitude_eq isExponent, decimal_toDigits, exponentOf]
  by_cases short : (Nat.toDigits 10 (decimal (unsigned exponent))).length ≤ 10
  · rw [if_pos short]
  · rw [if_neg short]
    by_cases negative : exponent.head? = some '-'
    · have turned : -10 ^ 10 < -adjustment := by
        omega
      have adjusted := adjusted_eq (Nat.lt_of_not_le short) turned (by omega)
      simp only [if_pos negative]
      rw [adjusted.2, ← intText_of_neg (by omega)]
      congr 1
      omega
    · have adjusted := adjusted_eq (Nat.lt_of_not_le short) low high
      simp only [if_neg negative]
      rw [adjusted.2, ← intText_of_nat]
      congr 1
      omega

/-! ## The normal form -/

namespace NumberLiteral

theorem exponentOf_ifEmptyZero {exponent : Literal} (isExponent : exponent = [] ∨ IsExponent exponent) :
    IsExponent (ifEmptyZero exponent) ∧ exponentOf (ifEmptyZero exponent) = exponentOf exponent := by
  rcases isExponent with rfl | isExponent
  · exact ⟨by decide, by decide⟩
  · rw [ifEmptyZero, if_neg fun none => isExponent.1 (by rw [none]; rfl)]
    exact ⟨isExponent, rfl⟩

/-- The normal form of a number is that of its reduced form. -/
theorem normalized_form (literal : NumberLiteral) :
    ∃ coefficient exponent, Reduced coefficient exponent ∧ literal.value = coefficient * 10 ^ exponent ∧
      normalizedJsonNumber literal.content = some (intText coefficient, intText exponent) := by
  have found : matchNumber literal.content = some literal.parts := (Option.some_get literal.isNumber).symm
  have fits := literal.fits
  have matched := Kotlin.matched found
  have wholeLength := matched.length
  rw [normalizedJsonNumber, found, Option.map_some, value, NumberParts.value]
  generalize literal.parts = parts at *
  have dropped := dropZeros matched.digits
  have droppedLength := (List.dropWhile_suffix (l := parts.integer ++ parts.fraction) (· = '0')).length_le
  rw [List.length_append] at wholeLength droppedLength
  dsimp only
  rw [dropped] at droppedLength ⊢
  generalize decimal (parts.integer ++ parts.fraction) = number at *
  by_cases zero : number = 0
  · refine ⟨0, 0, .inl ⟨rfl, rfl⟩, ?_, ?_⟩
    · rw [zero, Nat.cast_zero, mul_zero, zero_mul, Int.cast_zero, zero_mul]
    · rw [if_pos zero]
      rfl
  · have trimmed := numeral_trimZeros (Nat.pos_of_ne_zero zero)
    have whole := trimZeros (Nat.toDigits 10 number)
    have shorter := (List.rdropWhile_prefix (· = '0') (Nat.toDigits 10 number)).length_le
    have exponent := exponentOf_ifEmptyZero matched.exponent
    rw [if_neg zero] at droppedLength ⊢
    rw [decimal_toDigits] at whole
    rw [if_neg Nat.toDigits_ne_nil, adjustDecimalExponent_eq exponent.1 (by omega) (by omega), exponent.2]
    generalize (Nat.toDigits 10 number).rdropWhile (· = '0') = kept at *
    generalize shift : exponentOf parts.exponent +
      ((Nat.toDigits 10 number).length - kept.length - parts.fraction.length) = shifted
    have positive : 0 < decimal kept := by
      by_contra none
      exact trimmed.2 ⟨0, by omega⟩
    have scaled : (number : Rat) * 10 ^ (exponentOf parts.exponent - parts.fraction.length) =
        decimal kept * 10 ^ shifted := by
      have exponents : shifted = (((Nat.toDigits 10 number).length - kept.length : Nat) : Int) +
          (exponentOf parts.exponent - parts.fraction.length) := by
        omega
      rw [exponents, zpow_add₀ (by decide), zpow_natCast, ← mul_assoc]
      nth_rewrite 1 [whole]
      push_cast
      ring
    rcases matched.sign with plus | minus
    · refine ⟨decimal kept, shifted, .inr (by exact_mod_cast trimmed.2), ?_, ?_⟩
      · rw [plus, if_neg (by decide), one_mul, scaled, Int.cast_natCast]
      · rw [plus, intText_of_nat, toDigits_decimal trimmed.1, List.nil_append]
    · refine ⟨-(decimal kept), shifted, .inr (by rw [Int.dvd_neg]; exact_mod_cast trimmed.2), ?_, ?_⟩
      · rw [minus, if_pos rfl, mul_assoc, scaled, Int.cast_neg, Int.cast_natCast, neg_one_mul, neg_mul]
      · rw [minus, intText_of_neg positive, toDigits_decimal trimmed.1]
        rfl

/-- Two numbers have one normal form if and only if they are the same number. -/
theorem normalized_eq_iff (left right : NumberLiteral) :
    normalizedJsonNumber left.content = normalizedJsonNumber right.content ↔ left.value = right.value := by
  rcases left.normalized_form with ⟨coefficient, exponent, reduced, value, normal⟩
  rcases right.normalized_form with ⟨other, otherExponent, otherReduced, otherValue, otherNormal⟩
  rw [normal, otherNormal, value, otherValue, scaled_eq_iff reduced otherReduced, Option.some_inj, Prod.mk.injEq]
  constructor
  · exact fun same => ⟨intText_injective same.1, intText_injective same.2⟩
  · rintro ⟨rfl, rfl⟩
    exact ⟨rfl, rfl⟩

end NumberLiteral

/-! ## Equal values -/

/-- `==` of two numbers: the texts are the same. -/
def sameContent (left right : NumberLiteral) : Bool :=
  left.content == right.content

def sameNumber (left right : NumberLiteral) : Bool :=
  decide (left.value = right.value)

def sameKeys {V W : Type} (actual : List (Literal × V)) (expected : List (Literal × W)) : Bool :=
  (actual.all fun entry => (expected.lookup entry.1).isSome) &&
    expected.all fun entry => (actual.lookup entry.1).isSome

mutual

/-- Before values are taken apart they are compared as they are. -/
def jsonPatchValuesEqual : Document NumberLiteral -> Document NumberLiteral -> Bool
  | .object actual, .object expected =>
    equal sameContent (.object actual) (.object expected) ||
      (sameKeys actual expected && membersEqual actual expected)
  | .array actual, .array expected =>
    equal sameContent (.array actual) (.array expected) ||
      (actual.length == expected.length && itemsEqual actual expected)
  | .number actual, .number expected =>
    sameContent actual expected || ((normalizedJsonNumber actual.content).isSome &&
      normalizedJsonNumber actual.content == normalizedJsonNumber expected.content)
  | actual, expected => equal sameContent actual expected

def itemsEqual : List (Document NumberLiteral) -> List (Document NumberLiteral) -> Bool
  | actual :: rest, expected :: others => jsonPatchValuesEqual actual expected && itemsEqual rest others
  | _, _ => true

def membersEqual : List (Literal × Document NumberLiteral) -> List (Literal × Document NumberLiteral) -> Bool
  | [], _ => true
  | (key, value) :: rest, members =>
    (match members.lookup key with
      | some other => jsonPatchValuesEqual value other
      | none => false) && membersEqual rest members

end

/-- Numbers with one text are one number, and otherwise their normal forms tell. -/
theorem numbers_eq (actual expected : NumberLiteral) :
    (sameContent actual expected = true -> sameNumber actual expected = true) ∧
      (sameContent actual expected || ((normalizedJsonNumber actual.content).isSome &&
        normalizedJsonNumber actual.content == normalizedJsonNumber expected.content)) =
          sameNumber actual expected := by
  have same : sameContent actual expected = true -> sameNumber actual expected = true := by
    intro texts
    rw [sameNumber, decide_eq_true_iff, ← NumberLiteral.normalized_eq_iff, eq_of_beq texts]
  rcases actual.normalized_form with ⟨coefficient, exponent, -, -, normal⟩
  refine ⟨same, Bool.eq_iff_iff.mpr ?_⟩
  rw [Bool.or_eq_true, Bool.and_eq_true, beq_iff_eq, NumberLiteral.normalized_eq_iff, normal, sameNumber,
    decide_eq_true_iff]
  rw [sameNumber, decide_eq_true_iff] at same
  exact ⟨fun either => either.elim same And.right, fun value => .inr ⟨rfl, value⟩⟩

theorem keys_of_equalMembers {same : NumberLiteral -> NumberLiteral -> Bool}
    {members others : List (Literal × Document NumberLiteral)} (equal : equalMembers same members others = true) :
    (members.all fun entry => (others.lookup entry.1).isSome) = true := by
  induction members with
  | nil => rfl
  | cons member rest ih =>
    rw [equalMembers, Bool.and_eq_true] at equal
    rw [List.all_cons, ih equal.2, Bool.and_true]
    cases found : others.lookup member.1 with
    | none =>
      rw [found] at equal
      cases equal.1
    | some other => rfl

/-- Values are compared as the standard compares them. -/
theorem jsonPatchValuesEqual_eq (actual expected : Document NumberLiteral) :
    (equal sameContent actual expected = true -> equal sameNumber actual expected = true) ∧
      jsonPatchValuesEqual actual expected = equal sameNumber actual expected := by
  apply equal.induct
    (fun actual expected => (equal sameContent actual expected = true -> equal sameNumber actual expected = true) ∧
      jsonPatchValuesEqual actual expected = equal sameNumber actual expected)
    (fun actual expected =>
      (equalMembers sameContent actual expected = true -> equalMembers sameNumber actual expected = true) ∧
        membersEqual actual expected = equalMembers sameNumber actual expected)
    (fun actual expected =>
      (equalItems sameContent actual expected = true -> equalItems sameNumber actual expected = true) ∧
        (actual.length == expected.length && itemsEqual actual expected) = equalItems sameNumber actual expected)
  case case1 => simp [jsonPatchValuesEqual, equal]
  case case2 | case4 =>
    intro left right
    simp [jsonPatchValuesEqual, equal]
  case case3 =>
    intro left right
    rw [jsonPatchValuesEqual, equal, equal]
    exact numbers_eq left right
  case case5 =>
    intro left right items
    rw [jsonPatchValuesEqual, equal, equal, items.2]
    exact ⟨items.1, by simpa using items.1⟩
  case case6 =>
    intro left right members
    have forward := @keys_of_equalMembers sameNumber left right
    have weaker := members.1
    rw [jsonPatchValuesEqual, equal, equal, members.2, sameKeys]
    generalize (left.all fun entry => (right.lookup entry.1).isSome) = keys at *
    revert forward weaker
    cases equalMembers sameContent left right <;> cases equalMembers sameNumber left right <;> simp_all
  case case7 =>
    intro left right
    cases left <;> cases right <;> simp_all [jsonPatchValuesEqual, equal]
  case case8 => simp [itemsEqual, equalItems]
  case case9 =>
    intro left lefts right rights first rest
    refine ⟨fun both => ?_, ?_⟩
    · rw [equalItems, Bool.and_eq_true] at both ⊢
      exact ⟨first.1 both.1, rest.1 both.2⟩
    · have lengths : ((left :: lefts).length == (right :: rights).length) = (lefts.length == rights.length) := by
        simp
      rw [equalItems, itemsEqual, first.2, ← rest.2, lengths, Bool.and_left_comm]
  case case10 =>
    intro left right _ apart
    cases left with
    | nil => cases right <;> simp_all [itemsEqual, equalItems]
    | cons first rest =>
      cases right with
      | nil => simp [itemsEqual, equalItems]
      | cons other others => exact (apart _ _ _ _ rfl rfl).elim
  case case11 => simp [membersEqual, equalMembers]
  case case12 =>
    intro key value rest members first others
    rw [membersEqual, equalMembers, equalMembers, others.2]
    cases members.lookup key with
    | none => simp
    | some other =>
      dsimp only
      rw [(first other).2, Bool.and_eq_true, Bool.and_eq_true]
      exact ⟨fun both => ⟨(first other).1 both.1, others.1 both.2⟩, rfl⟩

/-- Numbers have one normal form exactly if they are one number, and so the values that are found equal are those
that the standard has equal. -/
theorem normalization_exact :
    (∀ left right : NumberLiteral,
      normalizedJsonNumber left.content = normalizedJsonNumber right.content ↔ left.value = right.value) ∧
    ∀ actual expected : Document NumberLiteral,
      jsonPatchValuesEqual actual expected = true ↔ equal sameNumber actual expected = true :=
  ⟨NumberLiteral.normalized_eq_iff, fun actual expected => by rw [(jsonPatchValuesEqual_eq actual expected).2]⟩

end Kotlin
end AgUi
