import Mathlib.Data.List.Sort
import Mathlib.Data.List.DropRight
import AgUi.Library.Numbering

namespace AgUi
namespace Generator

open Library

/-!
# The wire freeze

The freeze owns what a slot of the binary transport is numbered.  A generation
reads it from its text, draws from it, and writes it back.  `WireFreeze` is a
numbering whose keys are slots and whose groups are messages and enums.
-/

/-- A string of the generator. -/
abbrev Text := List Char

scoped instance : Coe String Text := ⟨String.toList⟩

inductive GenerateError where
  | error (message : Text)
  | wireError (message : Text)
  /-- A chain of aliases that leads back to itself is followed without end. -/
  | unbounded
deriving DecidableEq

/-! ## Characters and lines -/

/-- `\w` -/
def isWord (char : Char) : Bool :=
  char.isAlphanum || char == '_'

/-- `[\w.]` -/
def isSlotChar (char : Char) : Bool :=
  isWord char || char == '.'

/-- `\s`, and what `trim` removes. -/
def isSpace (char : Char) : Bool :=
  decide ((9 ≤ char.toNat ∧ char.toNat ≤ 13) ∨ (0x2000 ≤ char.toNat ∧ char.toNat ≤ 0x200a) ∨
    char.toNat ∈ [0x20, 0xa0, 0x1680, 0x2028, 0x2029, 0x202f, 0x205f, 0x3000, 0xfeff])

def trimEnd (text : Text) : Text :=
  text.rdropWhile isSpace

def trim (text : Text) : Text :=
  trimEnd (text.dropWhile isSpace)

/-- `/^([\w.]+)\s*=\s*(\d+)$/` -/
def readSlot (line : Text) : Option (Text × Nat) :=
  let key := line.takeWhile isSlotChar
  match (line.dropWhile isSlotChar).dropWhile isSpace with
  | '=' :: rest =>
    let digits := rest.dropWhile isSpace
    if key ≠ [] ∧ digits ≠ [] ∧ digits.all Char.isDigit then some (key, Nat.ofDigitChars 10 digits 0) else none
  | _ => none

def slotLine (slot : Text × Nat) : Text :=
  slot.1 ++ " = " ++ Nat.toDigits 10 slot.2

def isComment (line : Text) : Bool :=
  line.isEmpty || ("#" : Text).isPrefixOf line || ("//" : Text).isPrefixOf line

/-! ## Groups -/

def startsLower : Text -> Bool
  | [] => false
  | char :: _ => char.isLower

/-- The segments a slot is numbered in, innermost first. -/
def enclosing : List Text -> List Text
  | segment :: next :: rest => if startsLower segment then enclosing (next :: rest) else segment :: next :: rest
  | segments => segments

def dotted (segments : List Text) : Text :=
  ['.'].intercalate segments

/--
The allocation group of a key.  A oneof segment is lowercase and shares the
number space of its message; a nested message has its own.
-/
def groupOf (key : Text) : Text :=
  dotted (enclosing (key.splitOn '.').reverse.tail).reverse

/-- The numbers given so far, by slot, in the groups that draw from one row. -/
abbrev WireFreeze := Numbering groupOf

namespace WireFreeze

/-- One line of the constructor's loop. -/
def readLine (freeze : WireFreeze) (raw : Text) : Except GenerateError WireFreeze :=
  let line := trim raw
  if isComment line then .ok freeze
  else
    match readSlot line with
    | some slot => .ok (freeze.record slot.1 slot.2)
    | none => .error (.error ("unreadable freeze line: \"" ++ line ++ "\""))

/-- The constructor. -/
def ofText (text : Text) : Except GenerateError WireFreeze :=
  (text.splitOn '\n').foldlM readLine Numbering.empty

def before (first second : Text × Nat) : Prop :=
  @List.le Char Char.instLT first.1 second.1

instance : DecidableRel before := fun first second =>
  @List.decidableLE Char instDecidableEqChar Char.instLT Char.instDecidableLt first.1 second.1

def slotLines (freeze : WireFreeze) : List Text :=
  (freeze.numbers.entries.insertionSort before).map slotLine

/-- The file, one line for each slot, sorted. -/
def emit (freeze : WireFreeze) (banner : Text) : Text :=
  ['\n'].intercalate ([trimEnd banner, []] ++ freeze.slotLines ++ [[]])

end WireFreeze

/-! ## The group of a slot -/

/-- A name of identifier characters. -/
def Identifier (name : Text) : Prop :=
  ∀ char ∈ name, isWord char = true

instance (name : Text) : Decidable (Identifier name) :=
  List.decidableBAll (fun char => isWord char = true) name

/-- `${scope}.${name}` -/
def slot (scope name : Text) : Text :=
  scope ++ '.' :: name

theorem dot_notMem {name : Text} (identifier : Identifier name) : '.' ∉ name := by
  intro member
  exact absurd (identifier '.' member) (by decide)

theorem splitOn_slot (scope : Text) {name : Text} (identifier : Identifier name) :
    (slot scope name).splitOn '.' = scope.splitOn '.' ++ [name] := by
  unfold slot
  rw [List.splitOn_append_cons_self, List.splitOn_eq_singleton (dot_notMem identifier)]

theorem groupOf_slot (scope : Text) {name : Text} (identifier : Identifier name) :
    groupOf (slot scope name) = dotted (enclosing (scope.splitOn '.').reverse).reverse := by
  unfold groupOf
  rw [splitOn_slot scope identifier, List.reverse_append, List.reverse_singleton]
  rfl

/-- A slot of a message is numbered in the message. -/
theorem groupOf_field {scope name : Text} (plainScope : Identifier scope) (identifier : Identifier name) :
    groupOf (slot scope name) = scope := by
  rw [groupOf_slot scope identifier, List.splitOn_eq_singleton (dot_notMem plainScope)]
  exact List.intercalate_singleton

/-- A oneof shares the number space of its message. -/
theorem groupOf_arm {scope oneof name : Text} (plainScope : Identifier scope) (plain : Identifier oneof)
    (lower : startsLower oneof = true) (identifier : Identifier name) :
    groupOf (slot (slot scope oneof) name) = scope := by
  rw [groupOf_slot _ identifier, splitOn_slot scope plain, List.splitOn_eq_singleton (dot_notMem plainScope)]
  simp only [List.singleton_append, List.reverse_cons, List.reverse_nil, List.nil_append, enclosing, if_pos lower]
  exact List.intercalate_singleton

/-- A nested message has a number space of its own. -/
theorem groupOf_nested {scope nested name : Text} (plainScope : Identifier scope) (plain : Identifier nested)
    (upper : startsLower nested = false) (identifier : Identifier name) :
    groupOf (slot (slot scope nested) name) = slot scope nested := by
  rw [groupOf_slot _ identifier, splitOn_slot scope plain, List.splitOn_eq_singleton (dot_notMem plainScope)]
  simp only [List.singleton_append, List.reverse_cons, List.reverse_nil, List.nil_append, enclosing, upper]
  unfold dotted slot
  simp

/-! ## Reading a line back -/

/-- A key that a line of the freeze can carry. -/
def Readable (key : Text) : Prop :=
  key ≠ [] ∧ ∀ char ∈ key, isSlotChar char = true

variable {char : Char}

theorem Identifier.isSlotChar {name : Text} (identifier : Identifier name) (member : char ∈ name) :
    isSlotChar char = true := by
  unfold Generator.isSlotChar
  rw [identifier char member, Bool.true_or]

theorem readable_slot {scope name : Text} (plainScope : ∀ char ∈ scope, isSlotChar char = true)
    (identifier : Identifier name) : Readable (slot scope name) := by
  constructor
  · simp [slot]
  · intro char member
    rcases List.mem_append.mp member with inScope | later
    · exact plainScope char inScope
    · rcases List.mem_cons.mp later with dot | inName
      · rw [dot]
        decide
      · exact identifier.isSlotChar inName

theorem not_isSpace_of_isSlotChar (slotChar : isSlotChar char = true) : isSpace char = false := by
  have bounds : 0x2e ≤ char.toNat ∧ char.toNat < 0x80 := by
    unfold isSlotChar isWord Char.isAlphanum Char.isAlpha Char.isUpper Char.isLower Char.isDigit at slotChar
    simp only [Bool.or_eq_true, Bool.and_eq_true, decide_eq_true_eq, beq_iff_eq, ge_iff_le, UInt32.le_iff_toNat_le]
      at slotChar
    have number : char.toNat = char.val.toNat := rfl
    rcases slotChar with (((upper | lower) | digit) | underscore) | dot
    · have first : 65 ≤ char.val.toNat := upper.1
      have last : char.val.toNat ≤ 90 := upper.2
      omega
    · have first : 97 ≤ char.val.toNat := lower.1
      have last : char.val.toNat ≤ 122 := lower.2
      omega
    · have first : 48 ≤ char.val.toNat := digit.1
      have last : char.val.toNat ≤ 57 := digit.2
      omega
    · rw [underscore]
      decide
    · rw [dot]
      decide
  unfold isSpace
  apply decide_eq_false
  rintro (small | large | listed)
  · omega
  · omega
  · simp only [List.mem_cons, List.not_mem_nil, or_false] at listed
    omega

theorem isSlotChar_of_isDigit (digit : char.isDigit = true) : isSlotChar char = true := by
  simp [isSlotChar, isWord, Char.isAlphanum, digit]

theorem slotLine_eq (key : Text) (number : Nat) :
    slotLine (key, number) = key ++ ' ' :: '=' :: ' ' :: Nat.toDigits 10 number := by
  unfold slotLine
  rw [show (" = " : Text) = [' ', '=', ' '] from rfl, List.append_assoc]
  rfl

theorem dropWhile_of_head {test : Char -> Bool} {text : Text} (nonempty : text ≠ [])
    (stops : ∀ char ∈ text, test char = false) : text.dropWhile test = text := by
  cases text with
  | nil => exact absurd rfl nonempty
  | cons char rest => rw [List.dropWhile_cons, stops char List.mem_cons_self]; rfl

theorem isDigit_toDigits {number : Nat} (member : char ∈ Nat.toDigits 10 number) : char.isDigit = true :=
  Nat.isDigit_of_mem_toDigits (by decide) (by decide) member

/-- A slot is read back from its line. -/
theorem readSlot_slotLine {key : Text} (readable : Readable key) (number : Nat) :
    readSlot (slotLine (key, number)) = some (key, number) := by
  have spaceStops : isSlotChar ' ' = false := by decide
  have digitsStop : (Nat.toDigits 10 number).dropWhile isSpace = Nat.toDigits 10 number :=
    dropWhile_of_head Nat.toDigits_ne_nil fun char member =>
      not_isSpace_of_isSlotChar (isSlotChar_of_isDigit (isDigit_toDigits member))
  have taken : (key ++ ' ' :: '=' :: ' ' :: Nat.toDigits 10 number).takeWhile isSlotChar = key := by
    rw [List.takeWhile_append_of_pos readable.2, List.takeWhile_cons, spaceStops]
    exact List.append_nil key
  have dropped : ((key ++ ' ' :: '=' :: ' ' :: Nat.toDigits 10 number).dropWhile isSlotChar).dropWhile isSpace =
      '=' :: ' ' :: Nat.toDigits 10 number := by
    rw [List.dropWhile_append_of_pos readable.2, List.dropWhile_cons, spaceStops]
    rfl
  have spaceDropped : (' ' :: Nat.toDigits 10 number).dropWhile isSpace = Nat.toDigits 10 number := by
    rw [List.dropWhile_cons, show isSpace ' ' = true from by decide]
    exact digitsStop
  unfold readSlot
  rw [slotLine_eq, taken, dropped]
  simp only [spaceDropped]
  rw [if_pos, Nat.ofDigitChars_toDigits (by decide) (by decide)]
  exact ⟨readable.1, Nat.toDigits_ne_nil, List.all_eq_true.mpr fun char member => isDigit_toDigits member⟩

theorem trim_slotLine {key : Text} (readable : Readable key) (number : Nat) :
    trim (slotLine (key, number)) = slotLine (key, number) := by
  rw [slotLine_eq]
  have started : (key ++ ' ' :: '=' :: ' ' :: Nat.toDigits 10 number).dropWhile isSpace =
      key ++ ' ' :: '=' :: ' ' :: Nat.toDigits 10 number := by
    rcases List.exists_cons_of_ne_nil readable.1 with ⟨char, rest, equal⟩
    rw [equal, List.cons_append, List.dropWhile_cons,
      not_isSpace_of_isSlotChar (readable.2 char (equal ▸ List.mem_cons_self))]
    rfl
  unfold trim trimEnd
  rw [started, List.rdropWhile_eq_self_iff]
  intro nonempty
  have digitsEnd := List.getLast_append_of_right_ne_nil (key ++ [' ', '=', ' ']) (Nat.toDigits 10 number)
    Nat.toDigits_ne_nil
  have lastDigit := isDigit_toDigits (List.getLast_mem (Nat.toDigits_ne_nil (b := 10) (n := number)))
  have same : (key ++ ' ' :: '=' :: ' ' :: Nat.toDigits 10 number).getLast nonempty =
      (Nat.toDigits 10 number).getLast Nat.toDigits_ne_nil := by
    rw [← digitsEnd]
    congr 1
    simp
  rw [same, not_isSpace_of_isSlotChar (isSlotChar_of_isDigit lastDigit)]
  exact Bool.false_ne_true

theorem not_isComment_slotLine {key : Text} (readable : Readable key) (number : Nat) :
    isComment (slotLine (key, number)) = false := by
  rcases List.exists_cons_of_ne_nil readable.1 with ⟨char, rest, equal⟩
  have slotChar := readable.2 char (equal ▸ List.mem_cons_self)
  have notHash : ('#' == char) = false := by
    apply beq_false_of_ne
    rintro rfl
    exact absurd slotChar (by decide)
  have notSlash : ('/' == char) = false := by
    apply beq_false_of_ne
    rintro rfl
    exact absurd slotChar (by decide)
  rw [slotLine_eq, equal]
  unfold isComment
  rw [show ("#" : Text) = ['#'] from rfl, show ("//" : Text) = ['/', '/'] from rfl]
  simp [List.isPrefixOf, notHash, notSlash]

namespace WireFreeze

variable (freeze : WireFreeze)

theorem readLine_slotLine {key : Text} (readable : Readable key) (number : Nat) :
    freeze.readLine (slotLine (key, number)) = .ok (freeze.record key number) := by
  unfold readLine
  dsimp only
  rw [trim_slotLine readable, not_isComment_slotLine readable, readSlot_slotLine readable]
  rfl

theorem readLine_comment {line : Text} (comment : isComment (trim line) = true) :
    freeze.readLine line = .ok freeze := by
  unfold readLine
  dsimp only
  rw [comment]
  rfl

theorem readLines_cons {freeze next : WireFreeze} {line : Text} (read : freeze.readLine line = .ok next)
    (rest : List Text) : (line :: rest).foldlM readLine freeze = rest.foldlM readLine next := by
  rw [List.foldlM_cons, read]
  rfl

theorem readLines_append {freeze next : WireFreeze} {first : List Text}
    (read : first.foldlM readLine freeze = .ok next) (rest : List Text) :
    (first ++ rest).foldlM readLine freeze = rest.foldlM readLine next := by
  rw [List.foldlM_append, read]
  rfl

theorem readLines_comments {lines : List Text}
    (comments : ∀ line ∈ lines, isComment (trim line) = true) :
    lines.foldlM readLine freeze = .ok freeze := by
  induction lines with
  | nil => rfl
  | cons line rest ih =>
    rw [readLines_cons (readLine_comment freeze (comments line List.mem_cons_self))]
    exact ih fun other member => comments other (List.mem_cons_of_mem line member)

theorem readLines_slotLines {slots : List (Text × Nat)}
    (readable : ∀ slot ∈ slots, Readable slot.1) :
    (slots.map slotLine).foldlM readLine freeze =
      .ok (slots.foldl (fun filled slot => filled.record slot.1 slot.2) freeze) := by
  induction slots generalizing freeze with
  | nil => rfl
  | cons slot rest ih =>
    rw [List.map_cons, readLines_cons (readLine_slotLine freeze (readable slot List.mem_cons_self) slot.2)]
    exact ih _ fun other member => readable other (List.mem_cons_of_mem slot member)

theorem numbers_foldl_record (slots : List (Text × Nat)) (freeze : WireFreeze) :
    (slots.foldl (fun filled slot => filled.record slot.1 slot.2) freeze).numbers =
      slots.foldl (fun numbers slot => numbers.set slot.1 slot.2) freeze.numbers := by
  induction slots generalizing freeze with
  | nil => rfl
  | cons slot rest ih => exact ih (freeze.record slot.1 slot.2)

theorem live_foldl_record (slots : List (Text × Nat)) (freeze : WireFreeze) :
    (slots.foldl (fun filled slot => filled.record slot.1 slot.2) freeze).live = freeze.live := by
  induction slots generalizing freeze with
  | nil => rfl
  | cons slot rest ih => exact ih (freeze.record slot.1 slot.2)

theorem entries_perm :
    (freeze.numbers.entries.insertionSort before).Perm freeze.numbers.entries :=
  List.perm_insertionSort before freeze.numbers.entries

/-- Every slot of a freeze can stand on a line of its text. -/
def Written (freeze : WireFreeze) : Prop :=
  ∀ key, freeze.numbers.has key = true -> Readable key

theorem lineFeed_notMem_slotLine {key : Text} (readable : Readable key) (number : Nat) :
    '\n' ∉ slotLine (key, number) := by
  rw [slotLine_eq]
  intro member
  have cases' : '\n' ∈ key ∨ '\n' ∈ Nat.toDigits 10 number := by
    simpa using member
  rcases cases' with inKey | inNumber
  · exact absurd (readable.2 _ inKey) (by decide)
  · exact absurd (isDigit_toDigits inNumber) (by decide)

theorem intercalate_append_cons (separator : Text) {first : List Text} (nonempty : first ≠ []) (next : Text)
    (rest : List Text) :
    separator.intercalate (separator.intercalate first :: next :: rest) =
      separator.intercalate (first ++ next :: rest) := by
  rw [List.intercalate_cons_cons]
  induction first with
  | nil => exact absurd rfl nonempty
  | cons line others ih =>
    cases others with
    | nil => rw [List.intercalate_singleton, List.singleton_append, List.intercalate_cons_cons]
    | cons second more =>
      rw [List.intercalate_cons_cons, List.cons_append, List.cons_append, List.intercalate_cons_cons]
      rw [← List.cons_append, ← ih (List.cons_ne_nil second more)]
      simp only [List.append_assoc]

theorem readable_of_written {freeze : WireFreeze} (written : freeze.Written) {entry : Text × Nat}
    (member : entry ∈ freeze.numbers.entries.insertionSort before) : Readable entry.1 := by
  apply written
  rw [← OrderedMap.mem_keys_iff]
  exact List.mem_map.mpr ⟨entry, freeze.entries_perm.mem_iff.mp member, rfl⟩

variable {comments : List Text}

/-- The lines of a freeze: its banner, a blank line, and a line for every slot. -/
theorem splitOn_emit {freeze : WireFreeze} (written : freeze.Written) {banner : Text}
    (bannerLines : trimEnd banner = ['\n'].intercalate comments) (nonempty : comments ≠ [])
    (plain : ∀ line ∈ comments, '\n' ∉ line) :
    (freeze.emit banner).splitOn '\n' = comments ++ [] :: (freeze.slotLines ++ [[]]) := by
  unfold emit
  rw [bannerLines, List.cons_append, List.cons_append, List.cons_append, List.cons_append, List.nil_append,
    intercalate_append_cons _ nonempty]
  apply List.splitOn_intercalate
  · intro line member
    rcases List.mem_append.mp member with inBanner | later
    · exact plain line inBanner
    · rcases List.mem_cons.mp later with blank | inSlots
      · rw [blank]
        exact List.not_mem_nil
      · rcases List.mem_append.mp inSlots with inSlots | blank
        · rcases List.mem_map.mp inSlots with ⟨⟨key, number⟩, listed, rfl⟩
          exact lineFeed_notMem_slotLine (readable_of_written written listed) number
        · rw [List.mem_singleton.mp blank]
          exact List.not_mem_nil
  · simp

/-- The numbers of a freeze, recorded in the order of its lines. -/
def recorded (freeze start : WireFreeze) : WireFreeze :=
  (freeze.numbers.entries.insertionSort before).foldl (fun filled slot => filled.record slot.1 slot.2) start

/-- A text is read as its banner is, and then slot by slot. -/
theorem ofText_emit {freeze start : WireFreeze} (written : freeze.Written) {banner : Text}
    (bannerLines : trimEnd banner = ['\n'].intercalate comments) (nonempty : comments ≠ [])
    (plain : ∀ line ∈ comments, '\n' ∉ line) (reads : comments.foldlM readLine Numbering.empty = .ok start) :
    ofText (freeze.emit banner) = .ok (freeze.recorded start) := by
  have blank : ∀ freeze : WireFreeze, freeze.readLine [] = .ok freeze :=
    fun freeze => readLine_comment freeze rfl
  unfold ofText
  rw [splitOn_emit written bannerLines nonempty plain, readLines_append reads, readLines_cons (blank start),
    slotLines, readLines_append (readLines_slotLines _ fun entry member => readable_of_written written member),
    readLines_cons (blank _)]
  rfl

theorem live_recorded (freeze start : WireFreeze) : (freeze.recorded start).live = start.live :=
  live_foldl_record _ start

/-- What a freeze writes under a banner of comments is read back: the same numbers. -/
theorem get?_recorded (key : Text) :
    (freeze.recorded Numbering.empty).numbers.get? key = freeze.numbers.get? key := by
  unfold recorded
  rw [numbers_foldl_record]
  exact freeze.numbers.get?_ofList_of_perm freeze.entries_perm key

/-- A text lists a slot with a number: a line of it, no comment, says so. -/
def Lists (text : Text) (key : Text) (number : Nat) : Prop :=
  ∃ line ∈ text.splitOn '\n', isComment (trim line) = false ∧ readSlot (trim line) = some (key, number)

theorem lists_emit_iff {freeze : WireFreeze} (written : freeze.Written) {banner : Text}
    (bannerLines : trimEnd banner = ['\n'].intercalate comments) (nonempty : comments ≠ [])
    (commented : ∀ line ∈ comments, '\n' ∉ line ∧ isComment (trim line) = true) (key : Text)
    (number : Nat) : Lists (freeze.emit banner) key number ↔ freeze.numbers.get? key = some number := by
  unfold Lists
  rw [splitOn_emit written bannerLines nonempty fun line member => (commented line member).1,
    ← OrderedMap.mem_entries_iff,
    ← freeze.entries_perm.mem_iff]
  constructor
  · rintro ⟨line, member, uncommented, reads⟩
    have blank : isComment (trim []) = true := rfl
    rcases List.mem_append.mp member with inBanner | later
    · rw [(commented line inBanner).2] at uncommented
      cases uncommented
    · rcases List.mem_cons.mp later with equal | inSlots
      · rw [equal, blank] at uncommented
        cases uncommented
      · rcases List.mem_append.mp inSlots with inSlots | equal
        · rcases List.mem_map.mp inSlots with ⟨⟨other, count⟩, listed, rfl⟩
          have readable := readable_of_written written listed
          rw [trim_slotLine readable, readSlot_slotLine readable] at reads
          cases reads
          exact listed
        · rw [List.mem_singleton.mp equal, blank] at uncommented
          cases uncommented
  · intro listed
    have readable : Readable key := readable_of_written written listed
    refine ⟨slotLine (key, number), ?_, ?_, ?_⟩
    · apply List.mem_append_right
      exact List.mem_cons_of_mem _ (List.mem_append_left _ (List.mem_map.mpr ⟨(key, number), listed, rfl⟩))
    · rw [trim_slotLine readable, not_isComment_slotLine readable]
    · rw [trim_slotLine readable, readSlot_slotLine readable]

end WireFreeze

end Generator
end AgUi
