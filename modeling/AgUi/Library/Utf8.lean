import Mathlib.Algebra.Group.Nat.Defs
import Mathlib.Data.List.Basic

namespace AgUi
namespace Library
namespace Utf8

/-!
# Decoding UTF-8 as it arrives

The decoder takes one byte after the other and knows what it needs of the
next ones: the bits collected so far, how many bytes are missing and the
bounds of the next byte.  A byte outside the bounds ends the character begun
with a replacement character, and is then looked at as the first of a
character of its own.  Bytes may therefore be handed over in any portions.
-/

structure Decoder where
  codePoint : Nat := 0
  missing : Nat := 0
  lower : Nat := 0x80
  upper : Nat := 0xBF
deriving DecidableEq

def replacement : Char :=
  Char.ofNat 0xFFFD

/-- The first byte of a character. -/
def lead (byte : Nat) : Decoder × List Char :=
  if byte ≤ 0x7F then ({}, [Char.ofNat byte])
  else if 0xC2 ≤ byte ∧ byte ≤ 0xDF then ({ codePoint := byte % 0x20, missing := 1 }, [])
  else if 0xE0 ≤ byte ∧ byte ≤ 0xEF then
    ({ codePoint := byte % 0x10
       missing := 2
       lower := if byte = 0xE0 then 0xA0 else 0x80
       upper := if byte = 0xED then 0x9F else 0xBF }, [])
  else if 0xF0 ≤ byte ∧ byte ≤ 0xF4 then
    ({ codePoint := byte % 0x08
       missing := 3
       lower := if byte = 0xF0 then 0x90 else 0x80
       upper := if byte = 0xF4 then 0x8F else 0xBF }, [])
  else ({}, [replacement])

def Decoder.step (decoder : Decoder) (byte : Nat) : Decoder × List Char :=
  if decoder.missing = 0 then lead byte
  else if byte < decoder.lower ∨ decoder.upper < byte then ((lead byte).1, replacement :: (lead byte).2)
  else if decoder.missing = 1 then ({}, [Char.ofNat (decoder.codePoint * 0x40 + byte % 0x40)])
  else ({ codePoint := decoder.codePoint * 0x40 + byte % 0x40, missing := decoder.missing - 1 }, [])

def decode (decoder : Decoder) : List UInt8 -> Decoder × List Char
  | [] => (decoder, [])
  | byte :: rest =>
    let read := decoder.step byte.toNat
    let later := decode read.1 rest
    (later.1, read.2 ++ later.2)

/-- What the end of the bytes makes of a character begun. -/
def Decoder.flush (decoder : Decoder) : List Char :=
  if decoder.missing = 0 then [] else [replacement]

def encode (text : List Char) : List UInt8 :=
  text.flatMap String.utf8EncodeChar

theorem decode_append (decoder : Decoder) (first second : List UInt8) :
    decode decoder (first ++ second) =
      ((decode (decode decoder first).1 second).1,
        (decode decoder first).2 ++ (decode (decode decoder first).1 second).2) := by
  induction first generalizing decoder with
  | nil => rfl
  | cons byte rest ih =>
    simp only [List.cons_append, decode, ih, List.append_assoc]

theorem encode_append (first second : List Char) : encode (first ++ second) = encode first ++ encode second :=
  List.flatMap_append

/-! ## Reading back what was encoded -/

theorem step_missing {decoder : Decoder} {byte : Nat} (more : 2 ≤ decoder.missing)
    (least : decoder.lower ≤ byte) (most : byte ≤ decoder.upper) :
    decoder.step byte =
      ({ codePoint := decoder.codePoint * 0x40 + byte % 0x40, missing := decoder.missing - 1 }, []) := by
  rw [Decoder.step, if_neg (by omega), if_neg (by omega), if_neg (by omega)]

theorem step_last {decoder : Decoder} {byte : Nat} (last : decoder.missing = 1)
    (least : decoder.lower ≤ byte) (most : byte ≤ decoder.upper) :
    decoder.step byte = ({}, [Char.ofNat (decoder.codePoint * 0x40 + byte % 0x40)]) := by
  rw [Decoder.step, if_neg (by omega), if_neg (by omega), if_pos last]

theorem toNat_byte {value : Nat} (small : value < 0x100) : (UInt8.ofNat value).toNat = value := by
  rw [UInt8.toNat_ofNat']
  omega

theorem decode_lead {value : Nat} {begun : Decoder} (small : value < 0x100) (started : lead value = (begun, []))
    (rest : List UInt8) : decode {} (UInt8.ofNat value :: rest) = decode begun rest := by
  rw [decode, toNat_byte small, Decoder.step, if_pos rfl, started]
  rfl

theorem decode_missing {decoder : Decoder} {value : Nat} (more : 2 ≤ decoder.missing) (small : value < 0x40)
    (least : decoder.lower ≤ value + 0x80) (most : value + 0x80 ≤ decoder.upper) (rest : List UInt8) :
    decode decoder (UInt8.ofNat (value + 0x80) :: rest) =
      decode { codePoint := decoder.codePoint * 0x40 + value, missing := decoder.missing - 1 } rest := by
  rw [decode, toNat_byte (by omega), step_missing more least most, show (value + 0x80) % 0x40 = value by omega]
  rfl

theorem decode_last {decoder : Decoder} {value : Nat} (last : decoder.missing = 1) (small : value < 0x40)
    (least : decoder.lower ≤ value + 0x80) (most : value + 0x80 ≤ decoder.upper) :
    decode decoder [UInt8.ofNat (value + 0x80)] = ({}, [Char.ofNat (decoder.codePoint * 0x40 + value)]) := by
  rw [decode, toNat_byte (by omega), step_last last least most, show (value + 0x80) % 0x40 = value by omega]
  rfl

theorem decode_one {first : Nat} (ascii : first ≤ 0x7F) :
    decode {} [UInt8.ofNat first] = ({}, [Char.ofNat first]) := by
  have value : (UInt8.ofNat first).toNat = first := toNat_byte (by omega)
  simp only [decode, value, Decoder.step, lead, if_pos ascii, if_true, List.append_nil]

theorem decode_two {first second : Nat} (least : 0x02 ≤ first) (most : first < 0x20) (tail : second < 0x40) :
    decode {} [UInt8.ofNat (first + 0xC0), UInt8.ofNat (second + 0x80)] =
      ({}, [Char.ofNat (first * 0x40 + second)]) := by
  have started : lead (first + 0xC0) = ({ codePoint := first, missing := 1 }, []) := by
    rw [lead, if_neg (by omega), if_pos (by omega), show (first + 0xC0) % 0x20 = first by omega]
  rw [decode_lead (by omega) started, decode_last rfl tail (by simp) (by simp only; omega)]

theorem decode_three {first second third : Nat} (most : first < 0x10) (tail : second < 0x40) (last : third < 0x40)
    (shortest : first = 0 -> 0x20 ≤ second) (scalar : first = 0xD -> second < 0x20) :
    decode {} [UInt8.ofNat (first + 0xE0), UInt8.ofNat (second + 0x80), UInt8.ofNat (third + 0x80)] =
      ({}, [Char.ofNat ((first * 0x40 + second) * 0x40 + third)]) := by
  let bounds : Decoder :=
    { codePoint := first
      missing := 2
      lower := if first + 0xE0 = 0xE0 then 0xA0 else 0x80
      upper := if first + 0xE0 = 0xED then 0x9F else 0xBF }
  have started : lead (first + 0xE0) = (bounds, []) := by
    rw [lead, if_neg (by omega), if_neg (by omega), if_pos (by omega), show (first + 0xE0) % 0x10 = first by omega]
  rw [decode_lead (by omega) started, decode_missing (Nat.le_refl _) tail (by simp only [bounds]; split <;> omega)
    (by simp only [bounds]; split <;> omega)]
  exact decode_last rfl last (by simp) (by simp only; omega)

theorem decode_four {first second third fourth : Nat} (most : first ≤ 0x4) (tail : second < 0x40)
    (next : third < 0x40) (last : fourth < 0x40)
    (shortest : first = 0 -> 0x10 ≤ second) (scalar : first = 0x4 -> second < 0x10) :
    decode {} [UInt8.ofNat (first + 0xF0), UInt8.ofNat (second + 0x80), UInt8.ofNat (third + 0x80),
        UInt8.ofNat (fourth + 0x80)] =
      ({}, [Char.ofNat (((first * 0x40 + second) * 0x40 + third) * 0x40 + fourth)]) := by
  let bounds : Decoder :=
    { codePoint := first
      missing := 3
      lower := if first + 0xF0 = 0xF0 then 0x90 else 0x80
      upper := if first + 0xF0 = 0xF4 then 0x8F else 0xBF }
  have started : lead (first + 0xF0) = (bounds, []) := by
    rw [lead, if_neg (by omega), if_neg (by omega), if_neg (by omega), if_pos (by omega),
      show (first + 0xF0) % 0x08 = first by omega]
  rw [decode_lead (by omega) started, decode_missing (by simp [bounds]) tail (by simp only [bounds]; split <;> omega)
    (by simp only [bounds]; split <;> omega),
    decode_missing (Nat.le_refl _) next (by simp) (by simp only; omega)]
  exact decode_last rfl last (by simp) (by simp only; omega)

/-- A character is read back from its bytes, and nothing of it stays behind. -/
theorem decode_encodeChar (char : Char) : decode {} (String.utf8EncodeChar char) = ({}, [char]) := by
  have back : Char.ofNat char.val.toNat = char := Char.ofNat_toNat char
  have scalar : char.val.toNat < 0xD800 ∨ 0xDFFF < char.val.toNat ∧ char.val.toNat < 0x110000 := char.valid
  unfold String.utf8EncodeChar
  generalize char.val.toNat = value at back scalar
  simp only
  split
  · rename_i ascii
    rw [decode_one ascii, back]
  · split
    · rw [decode_two (by omega) (by omega) (by omega),
        show value / 64 % 0x20 * 0x40 + value % 0x40 = value by omega, back]
    · split
      · rw [decode_three (by omega) (by omega) (by omega) (by omega) (by omega),
          show (value / 4096 % 0x10 * 0x40 + value / 64 % 0x40) * 0x40 + value % 0x40 = value by omega, back]
      · rw [decode_four (by omega) (by omega) (by omega) (by omega) (by omega) (by omega),
          show ((value / 262144 % 0x08 * 0x40 + value / 4096 % 0x40) * 0x40 + value / 64 % 0x40) * 0x40 +
            value % 0x40 = value by omega, back]

theorem decode_encode (text : List Char) : decode {} (encode text) = ({}, text) := by
  induction text with
  | nil => rfl
  | cons char rest ih =>
    rw [encode, List.flatMap_cons, decode_append, decode_encodeChar, ← encode, ih]
    rfl

/-! ## The byte order mark -/

def byteOrderMark : Char :=
  Char.ofNat 0xFEFF

/-- A decoder that leaves out a byte order mark at the very beginning. -/
structure TextDecoder where
  decoder : Decoder := {}
  bomSeen : Bool := false
deriving DecidableEq

/-- What is handed on of the characters read. -/
def TextDecoder.serialize (bomSeen : Bool) : List Char -> Bool × List Char
  | [] => (bomSeen, [])
  | char :: rest => if !bomSeen && char == byteOrderMark then (true, rest) else (true, char :: rest)

/-- `decode` with `stream: true`. -/
def TextDecoder.decode (decoder : TextDecoder) (bytes : List UInt8) : TextDecoder × List Char :=
  let read := Utf8.decode decoder.decoder bytes
  let serialized := TextDecoder.serialize decoder.bomSeen read.2
  (⟨read.1, serialized.1⟩, serialized.2)

theorem TextDecoder.serialize_cons (bomSeen : Bool) (char : Char) (rest : List Char) :
    TextDecoder.serialize bomSeen (char :: rest) =
      if !bomSeen && char == byteOrderMark then (true, rest) else (true, char :: rest) :=
  rfl

theorem TextDecoder.serialize_true (chars : List Char) : TextDecoder.serialize true chars = (true, chars) := by
  cases chars <;> rfl

theorem TextDecoder.serialize_append (bomSeen : Bool) (first second : List Char) :
    TextDecoder.serialize bomSeen (first ++ second) =
      ((TextDecoder.serialize (TextDecoder.serialize bomSeen first).1 second).1,
        (TextDecoder.serialize bomSeen first).2 ++
          (TextDecoder.serialize (TextDecoder.serialize bomSeen first).1 second).2) := by
  cases first with
  | nil => rfl
  | cons char rest =>
    by_cases marked : (!bomSeen && char == byteOrderMark) = true
    · simp only [List.cons_append, serialize_cons, if_pos marked, serialize_true]
    · simp only [List.cons_append, serialize_cons, if_neg marked, serialize_true]

/-- Bytes may be handed over in any portions. -/
theorem TextDecoder.decode_append (decoder : TextDecoder) (first second : List UInt8) :
    decoder.decode (first ++ second) =
      (((decoder.decode first).1.decode second).1,
        (decoder.decode first).2 ++ ((decoder.decode first).1.decode second).2) := by
  simp only [TextDecoder.decode, Utf8.decode_append, TextDecoder.serialize_append]

theorem TextDecoder.decode_encode {text : List Char} (unmarked : text.head? ≠ some byteOrderMark) :
    (TextDecoder.decode {} (encode text)).2 = text ∧ (TextDecoder.decode {} (encode text)).1.decoder = {} := by
  simp only [TextDecoder.decode, Utf8.decode_encode, and_true]
  cases text with
  | nil => rfl
  | cons char rest =>
    have other : char ≠ byteOrderMark := fun same => unmarked (congrArg some same)
    simp [TextDecoder.serialize, other]

end Utf8
end Library
end AgUi
