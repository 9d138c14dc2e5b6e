import Mathlib.Algebra.GroupWithZero.Nat
import Mathlib.Data.List.Perm.Subperm
import AgUi.Library.JsonPatch

namespace AgUi
namespace Library
namespace JsonText

/-!
# JSON texts

A text is cut into tokens one character at a time, and the tokens are read by a
machine that keeps the containers it is inside of on a stack.  A string is
collected as code units, so that a character outside the basic plane may be
written as two escapes.

A document cannot hold more strings than its text has pairs of quotes.
-/

open JsonPatch

/-- Numbers are kept as they are written. -/
abbrev Value := Document Text

/-! ## Code units -/

/-- The UTF-16 units of a character. -/
def utf16 (char : Char) : List Nat :=
  if char.toNat < 0x10000 then [char.toNat]
  else [0xD800 + (char.toNat - 0x10000) / 0x400, 0xDC00 + (char.toNat - 0x10000) % 0x400]

def IsHigh (unit : Nat) : Prop :=
  0xD800 ≤ unit ∧ unit < 0xDC00

def IsLow (unit : Nat) : Prop :=
  0xDC00 ≤ unit ∧ unit < 0xE000

instance (unit : Nat) : Decidable (IsHigh unit) :=
  inferInstanceAs (Decidable (_ ∧ _))

instance (unit : Nat) : Decidable (IsLow unit) :=
  inferInstanceAs (Decidable (_ ∧ _))

/-- The characters of code units; half a pair is none. -/
def decodeUtf16 : List Nat -> Option Text
  | [] => some []
  | [unit] => if IsHigh unit ∨ IsLow unit then none else some [Char.ofNat unit]
  | unit :: next :: rest =>
    if IsHigh unit then
      if IsLow next then
        (decodeUtf16 rest).map (Char.ofNat (0x10000 + (unit - 0xD800) * 0x400 + (next - 0xDC00)) :: ·)
      else none
    else if IsLow unit then none
    else (decodeUtf16 (next :: rest)).map (Char.ofNat unit :: ·)

theorem decodeUtf16_cons {unit : Nat} (single : ¬ IsHigh unit ∧ ¬ IsLow unit) (rest : List Nat) :
    decodeUtf16 (unit :: rest) = (decodeUtf16 rest).map (Char.ofNat unit :: ·) := by
  cases rest with
  | nil => exact if_neg (not_or.mpr single)
  | cons next rest => rw [decodeUtf16, if_neg single.1, if_neg single.2]

theorem toNat_bounds (char : Char) :
    char.toNat < 0xD800 ∨ (0xDFFF < char.toNat ∧ char.toNat < 0x110000) :=
  char.valid

theorem decodeUtf16_utf16 (char : Char) (rest : List Nat) :
    decodeUtf16 (utf16 char ++ rest) = (decodeUtf16 rest).map (char :: ·) := by
  have bounds := toNat_bounds char
  unfold utf16
  split
  case isTrue basic =>
    rw [List.singleton_append, decodeUtf16_cons (by unfold IsHigh IsLow; omega), Char.ofNat_toNat]
  case isFalse astral =>
    have whole : 0x10000 + (0xD800 + (char.toNat - 0x10000) / 0x400 - 0xD800) * 0x400 +
        (0xDC00 + (char.toNat - 0x10000) % 0x400 - 0xDC00) = char.toNat := by
      omega
    rw [List.cons_append, List.cons_append, List.nil_append, decodeUtf16, if_pos (by unfold IsHigh; omega),
      if_pos (by unfold IsLow; omega), whole, Char.ofNat_toNat]

theorem decodeUtf16_flatMap (text : Text) : decodeUtf16 (text.flatMap utf16) = some text := by
  induction text with
  | nil => rfl
  | cons char text ih =>
    rw [List.flatMap_cons, decodeUtf16_utf16, ih]
    rfl

/-! ## Tokens -/

/-- A value that is neither a string nor a container. -/
inductive Scalar where
  | null
  | bool (value : Bool)
  | number (literal : Text)

def Scalar.value : Scalar -> Value
  | .null => .null
  | .bool value => .bool value
  | .number literal => .number literal

inductive Token where
  | openObject
  | closeObject
  | openArray
  | closeArray
  | colon
  | comma
  | string (text : Text)
  | scalar (value : Scalar)

def Token.isString : Token -> Bool
  | .string _ => true
  | _ => false

def punctuation? (char : Char) : Option Token :=
  if char = '\x7b' then some .openObject
  else if char = '\x7d' then some .closeObject
  else if char = '[' then some .openArray
  else if char = ']' then some .closeArray
  else if char = ':' then some .colon
  else if char = ',' then some .comma
  else none

def isBlank (char : Char) : Bool :=
  char = ' ' || char = '\t' || char = '\n' || char = '\r'

/-- Characters that end a number or a name. -/
def isDelimiter (char : Char) : Bool :=
  isBlank char || (punctuation? char).isSome || char = '"' || char = '\\'

def dropDigits (text : Text) : Option Text :=
  if text.head?.any Char.isDigit then some (text.dropWhile Char.isDigit) else none

def dropMinus : Text -> Text
  | '-' :: rest => rest
  | text => text

def dropInteger : Text -> Option Text
  | '0' :: rest => some rest
  | text => dropDigits text

def dropFraction : Text -> Option Text
  | '.' :: rest => dropDigits rest
  | text => some text

def dropExponent : Text -> Option Text
  | 'e' :: '-' :: rest | 'e' :: '+' :: rest | 'E' :: '-' :: rest | 'E' :: '+' :: rest => dropDigits rest
  | 'e' :: rest | 'E' :: rest => dropDigits rest
  | text => some text

def isNumber (word : Text) : Bool :=
  ((dropInteger (dropMinus word)).bind dropFraction).bind dropExponent = some []

def scalar? (word : Text) : Option Scalar :=
  if word = ['n', 'u', 'l', 'l'] then some .null
  else if word = ['t', 'r', 'u', 'e'] then some (.bool true)
  else if word = ['f', 'a', 'l', 's', 'e'] then some (.bool false)
  else if isNumber word then some (.number word)
  else none

def hexDigit? (char : Char) : Option Nat :=
  if char.isDigit then some (char.toNat - 48)
  else if 'a' ≤ char ∧ char ≤ 'f' then some (char.toNat - 87)
  else if 'A' ≤ char ∧ char ≤ 'F' then some (char.toNat - 55)
  else none

def shortEscape? (char : Char) : Option Char :=
  if char = '"' ∨ char = '\\' ∨ char = '/' then some char
  else if char = 'b' then some '\x08'
  else if char = 'f' then some '\x0c'
  else if char = 'n' then some '\n'
  else if char = 'r' then some '\r'
  else if char = 't' then some '\t'
  else none

/-- What a text is cut into tokens with. -/
inductive Mode where
  | outside
  | word (letters : Text)
  | string (units : List Nat)
  | escape (units : List Nat)
  /-- In an escape by number, with some digits still to come. -/
  | unicode (units : List Nat) (number missing : Nat)

namespace Mode

/-- A character between two tokens. -/
def start (char : Char) : Option (List Token × Mode) :=
  if isBlank char then some ([], .outside)
  else if char = '"' then some ([], .string [])
  else if char = '\\' then none
  else
    match punctuation? char with
    | some token => some ([token], .outside)
    | none => some ([], .word [char])

/-- The token a word is, before others. -/
def endWord (letters : Text) (later : List Token × Mode) : Option (List Token × Mode) :=
  (scalar? letters).map fun value => (.scalar value :: later.1, later.2)

def step : Mode -> Char -> Option (List Token × Mode)
  | .outside, char => start char
  | .word letters, char =>
    if isDelimiter char then (start char).bind (endWord letters) else some ([], .word (letters ++ [char]))
  | .string units, char =>
    if char = '"' then (decodeUtf16 units).map fun text => ([.string text], .outside)
    else if char = '\\' then some ([], .escape units)
    else if char < ' ' then none
    else some ([], .string (units ++ utf16 char))
  | .escape units, char =>
    if char = 'u' then some ([], .unicode units 0 4)
    else (shortEscape? char).map fun meant => ([], .string (units ++ utf16 meant))
  | .unicode units number missing, char =>
    (hexDigit? char).map fun digit =>
      if missing = 1 then ([], .string (units ++ [number * 16 + digit]))
      else ([], .unicode units (number * 16 + digit) (missing - 1))

def finish : Mode -> Option (List Token)
  | .outside => some []
  | .word letters => (scalar? letters).map fun value => [.scalar value]
  | _ => none

end Mode

/-- The tokens of a text. -/
def lex : Mode -> Text -> Option (List Token)
  | mode, [] => mode.finish
  | mode, char :: rest => (mode.step char).bind fun taken => (lex taken.2 rest).map (taken.1 ++ ·)

/-! ## Documents -/

/-- A container that is being read. -/
inductive Frame where
  | array (items : List Value)
  | object (members : List (Text × Value)) (key : Text)

/-- What is to come. -/
inductive Reading where
  | value (stack : List Frame)
  | firstItem (stack : List Frame)
  | firstKey (stack : List Frame)
  | nextKey (members : List (Text × Value)) (stack : List Frame)
  | colon (members : List (Text × Value)) (key : Text) (stack : List Frame)
  /-- A value has been read, and its container goes on or ends. -/
  | done (value : Value) (stack : List Frame)

namespace Reading

def readValue (stack : List Frame) : Token -> Option Reading
  | .string text => some (.done (.string text) stack)
  | .scalar read => some (.done read.value stack)
  | .openObject => some (.firstKey stack)
  | .openArray => some (.firstItem stack)
  | _ => none

def step : Reading -> Token -> Option Reading
  | .value stack, token => readValue stack token
  | .firstItem stack, .closeArray => some (.done (.array []) stack)
  | .firstItem stack, token => readValue (.array [] :: stack) token
  | .firstKey stack, .closeObject => some (.done (.object []) stack)
  | .firstKey stack, .string key => some (.colon [] key stack)
  | .nextKey members stack, .string key => some (.colon members key stack)
  | .colon members key stack, .colon => some (.value (.object members key :: stack))
  | .done read (.array items :: stack), .comma => some (.value (.array (items ++ [read]) :: stack))
  | .done read (.array items :: stack), .closeArray => some (.done (.array (items ++ [read])) stack)
  | .done read (.object members key :: stack), .comma => some (.nextKey (members ++ [(key, read)]) stack)
  | .done read (.object members key :: stack), .closeObject =>
    some (.done (.object (members ++ [(key, read)])) stack)
  | _, _ => none

def finish : Reading -> Option Value
  | .done read [] => some read
  | _ => none

end Reading

/-- The document a text is of. -/
def parse (text : Text) : Option Value :=
  (lex .outside text).bind fun tokens => (tokens.foldlM Reading.step (.value [])).bind Reading.finish
example : (parse "[-1.5e3, \x7b\"a\": [true, null], \"b\": \"\\ud83d\\ude00\"\x7d]".toList).isSome = true := by
  decide +kernel

example : (parse "\x7b\"a\": 1,\x7d".toList).isSome = false := by decide +kernel

/-- What an object has under a name; of two members of one name the later counts. -/
def member? (members : List (Text × Value)) (name : Text) : Option Value :=
  members.reverse.lookup name

/-! ## Strings -/

def hex4 (unit : Nat) : Text :=
  [Nat.digitChar (unit / 0x1000), Nat.digitChar (unit / 0x100 % 16), Nat.digitChar (unit / 16 % 16),
    Nat.digitChar (unit % 16)]

def escapeUnit (unit : Nat) : Text :=
  '\\' :: 'u' :: hex4 unit

/-- A character of a string, in printable ASCII. -/
def escapeChar (char : Char) : Text :=
  if char = '"' then ['\\', '"']
  else if char = '\\' then ['\\', '\\']
  else if char = '\n' then ['\\', 'n']
  else if char = '\r' then ['\\', 'r']
  else if char = '\t' then ['\\', 't']
  else if char = '\x0c' then ['\\', 'f']
  else if char = '\x08' then ['\\', 'b']
  else if ' ' ≤ char ∧ char ≤ '~' then [char]
  else (utf16 char).flatMap escapeUnit

def escape (text : Text) : Text :=
  text.flatMap escapeChar

theorem hexDigit_digitChar {digit : Nat} (small : digit < 16) : hexDigit? (Nat.digitChar digit) = some digit := by
  revert digit
  decide

variable {char : Char}

theorem lex_cons {mode next : Mode} {out : List Token} (stepped : mode.step char = some (out, next))
    (rest : Text) : lex mode (char :: rest) = (lex next rest).map (out ++ ·) := by
  rw [lex, stepped]
  rfl

/-- A character that ends no token. -/
theorem lex_silent {mode next : Mode} (stepped : mode.step char = some ([], next)) (rest : Text) :
    lex mode (char :: rest) = lex next rest := by
  rw [lex_cons stepped]
  exact congrFun Option.map_id _

theorem lex_hex4 {unit : Nat} (small : unit < 0x10000) (units : List Nat) (rest : Text) :
    lex (.unicode units 0 4) (hex4 unit ++ rest) = lex (.string (units ++ [unit])) rest := by
  have digit : ∀ {value : Nat}, value < 16 -> ∀ number missing, 1 < missing ->
      Mode.step (.unicode units number missing) (Nat.digitChar value) =
        some ([], .unicode units (number * 16 + value) (missing - 1)) := by
    intro value below number missing more
    rw [Mode.step, hexDigit_digitChar below, Option.map_some, if_neg (by omega)]
  have last : Mode.step (.unicode units ((unit / 0x1000 * 16 + unit / 0x100 % 16) * 16 + unit / 16 % 16) 1)
      (Nat.digitChar (unit % 16)) = some ([], .string (units ++ [unit])) := by
    rw [Mode.step, hexDigit_digitChar (Nat.mod_lt _ (by decide)), Option.map_some, if_pos rfl]
    congr 5
    omega
  change lex _ (_ :: _ :: _ :: _ :: rest) = _
  rw [lex_silent (digit (by omega) 0 4 (by decide)), lex_silent (digit (by omega) _ _ (by decide)),
    lex_silent (digit (by omega) _ _ (by decide)), Nat.zero_mul, Nat.zero_add]
  exact lex_silent last rest

theorem lex_escapeUnit {unit : Nat} (small : unit < 0x10000) (units : List Nat) (rest : Text) :
    lex (.string units) (escapeUnit unit ++ rest) = lex (.string (units ++ [unit])) rest := by
  have backslash : Mode.step (.string units) '\\' = some ([], .escape units) := rfl
  have unicode : Mode.step (.escape units) 'u' = some ([], .unicode units 0 4) := rfl
  rw [escapeUnit, List.cons_append, List.cons_append, lex_silent backslash, lex_silent unicode, lex_hex4 small]

theorem utf16_small {unit : Nat} (member : unit ∈ utf16 char) : unit < 0x10000 := by
  have bounds := toNat_bounds char
  unfold utf16 at member
  split at member
  · simp only [List.mem_singleton] at member
    omega
  · simp only [List.mem_cons, List.not_mem_nil, or_false] at member
    omega

theorem lex_escapeUnits {written : List Nat} (small : ∀ unit ∈ written, unit < 0x10000) (units : List Nat)
    (rest : Text) :
    lex (.string units) (written.flatMap escapeUnit ++ rest) = lex (.string (units ++ written)) rest := by
  induction written generalizing units with
  | nil => rw [List.flatMap_nil, List.nil_append, List.append_nil]
  | cons unit written ih =>
    rw [List.flatMap_cons, List.append_assoc, lex_escapeUnit (small unit List.mem_cons_self),
      ih (List.forall_mem_cons.mp small).2, List.append_assoc,
      List.singleton_append]

/-- An escaped character is read as its code units. -/
theorem lex_escapeChar (char : Char) (units : List Nat) (rest : Text) :
    lex (.string units) (escapeChar char ++ rest) = lex (.string (units ++ utf16 char)) rest := by
  have short : ∀ {letter : Char}, letter ≠ 'u' -> shortEscape? letter = some char ->
      lex (.string units) (['\\', letter] ++ rest) = lex (.string (units ++ utf16 char)) rest := by
    intro letter notNumber meant
    have backslash : Mode.step (.string units) '\\' = some ([], .escape units) := rfl
    have escaped : Mode.step (.escape units) letter = some ([], .string (units ++ utf16 char)) := by
      rw [Mode.step, if_neg notNumber, meant]
      rfl
    rw [List.cons_append, List.cons_append, List.nil_append, lex_silent backslash, lex_silent escaped]
  unfold escapeChar
  split_ifs with quote backslash newline return_ tab formFeed backspace printable
  · exact short (by decide) (by rw [quote]; decide)
  · exact short (by decide) (by rw [backslash]; decide)
  · exact short (by decide) (by rw [newline]; decide)
  · exact short (by decide) (by rw [return_]; decide)
  · exact short (by decide) (by rw [tab]; decide)
  · exact short (by decide) (by rw [formFeed]; decide)
  · exact short (by decide) (by rw [backspace]; decide)
  · apply lex_silent
    rw [Mode.step, if_neg quote, if_neg backslash, if_neg (Char.not_lt.mpr printable.1)]
  · exact lex_escapeUnits (fun _ => utf16_small) units rest

theorem lex_escape (text : Text) (units : List Nat) (rest : Text) :
    lex (.string units) (escape text ++ rest) = lex (.string (units ++ text.flatMap utf16)) rest := by
  unfold escape
  induction text generalizing units with
  | nil => rw [List.flatMap_nil, List.flatMap_nil, List.nil_append, List.append_nil]
  | cons char text ih =>
    rw [List.flatMap_cons, List.flatMap_cons, List.append_assoc, lex_escapeChar, ih, List.append_assoc]

/-- An escaped text between quotes is a string token. -/
theorem lex_quoted (text rest : Text) :
    lex .outside ('"' :: (escape text ++ '"' :: rest)) = (lex .outside rest).map (.string text :: ·) := by
  have opening : Mode.step .outside '"' = some ([], .string []) := rfl
  have closing : Mode.step (.string (text.flatMap utf16)) '"' = some ([.string text], .outside) := by
    rw [Mode.step, if_pos rfl, decodeUtf16_flatMap]
    rfl
  rw [lex_silent opening, lex_escape, List.nil_append, lex_cons closing]
  rfl

theorem escape_append (first second : Text) : escape (first ++ second) = escape first ++ escape second :=
  List.flatMap_append

/-- An object of one string. -/
theorem parse_single (key text : Text) :
    parse ("\x7b\"".toList ++ escape key ++ "\": \"".toList ++ escape text ++ "\"\x7d".toList) =
      some (.object [(key, .string text)]) := by
  have opening : Mode.step .outside '\x7b' = some ([.openObject], .outside) := rfl
  have colon : Mode.step .outside ':' = some ([.colon], .outside) := rfl
  have blank : Mode.step .outside ' ' = some ([], .outside) := rfl
  have closing : Mode.step .outside '\x7d' = some ([.closeObject], .outside) := rfl
  have spelled : "\x7b\"".toList ++ escape key ++ "\": \"".toList ++ escape text ++ "\"\x7d".toList =
      '\x7b' :: '"' :: (escape key ++ '"' :: ':' :: ' ' :: '"' :: (escape text ++ '"' :: '\x7d' :: [])) := by
    simp
  rw [parse, spelled, lex_cons opening, lex_quoted, lex_cons colon, lex_silent blank, lex_quoted, lex_cons closing]
  rfl

/-! ## Quotes and strings -/

/-- The quotes of a text that are not escaped; the flag says whether the first character is. -/
def quotes : Bool -> Text -> Nat
  | _, [] => 0
  | true, _ :: rest => quotes false rest
  | false, char :: rest =>
    if char = '\\' then quotes true rest
    else if char = '"' then quotes false rest + 1
    else quotes false rest

namespace Mode

def isEscaped : Mode -> Bool
  | .escape _ => true
  | _ => false

/-- The quotes of the string that is being read. -/
def opened : Mode -> Nat
  | .outside | .word _ => 0
  | _ => 1

end Mode

def strings (tokens : List Token) : Nat :=
  tokens.countP Token.isString

theorem quotes_plain (notBackslash : char ≠ '\\') (rest : Text) :
    quotes false rest ≤ quotes false (char :: rest) := by
  rw [quotes, if_neg notBackslash]
  split
  · exact Nat.le_succ _
  · exact Nat.le_refl _

theorem strings_punctuation {token : Token} (found : punctuation? char = some token) :
    strings [token] = 0 := by
  unfold punctuation? at found
  split_ifs at found <;> cases found <;> rfl

theorem quotes_start {out : List Token} {next : Mode} (started : Mode.start char = some (out, next))
    (rest : Text) : 2 * strings out + (quotes next.isEscaped rest + next.opened) ≤ quotes false (char :: rest) := by
  unfold Mode.start at started
  split_ifs at started with blank quote backslash
  · cases started
    have notBackslash : char ≠ '\\' := by
      rintro rfl
      exact absurd blank (by decide)
    simpa [strings, Mode.isEscaped, Mode.opened] using quotes_plain notBackslash rest
  · cases started
    rw [quote, quotes, if_neg (by decide), if_pos rfl]
    simp [strings, Mode.isEscaped, Mode.opened]
  · split at started
    case h_1 token found =>
      cases started
      rw [strings_punctuation found]
      simpa [Mode.isEscaped, Mode.opened] using quotes_plain backslash rest
    case h_2 =>
      cases started
      simpa [strings, Mode.isEscaped, Mode.opened] using quotes_plain backslash rest

/-- Each string token takes the quotes it is read between. -/
theorem quotes_step {mode next : Mode} {out : List Token} (stepped : mode.step char = some (out, next))
    (rest : Text) :
    2 * strings out + (quotes next.isEscaped rest + next.opened) ≤
      quotes mode.isEscaped (char :: rest) + mode.opened := by
  cases mode with
  | outside => exact quotes_start stepped rest
  | word letters =>
    rw [Mode.step] at stepped
    split at stepped
    case isTrue =>
      rcases Option.bind_eq_some_iff.mp stepped with ⟨⟨later, ending⟩, started, ended⟩
      rcases Option.map_eq_some_iff.mp ended with ⟨value, _, same⟩
      cases same
      have counted := quotes_start started rest
      simpa [strings, Token.isString, Mode.isEscaped, Mode.opened] using counted
    case isFalse other =>
      cases stepped
      have notBackslash : char ≠ '\\' := by
        rintro rfl
        exact other (by decide)
      simpa [strings, Mode.isEscaped, Mode.opened] using quotes_plain notBackslash rest
  | string units =>
    rw [Mode.step] at stepped
    split_ifs at stepped with quote backslash control
    · rcases Option.map_eq_some_iff.mp stepped with ⟨text, _, same⟩
      cases same
      rw [quote]
      simp [strings, Token.isString, Mode.isEscaped, Mode.opened, quotes]
      omega
    · cases stepped
      rw [backslash]
      simp [strings, Mode.isEscaped, Mode.opened, quotes]
    · cases stepped
      simpa [strings, Mode.isEscaped, Mode.opened] using quotes_plain backslash rest
  | escape units =>
    have nothing : out = [] ∧ next.isEscaped = false ∧ next.opened = 1 := by
      rw [Mode.step] at stepped
      split_ifs at stepped
      · cases stepped
        exact ⟨rfl, rfl, rfl⟩
      · rcases Option.map_eq_some_iff.mp stepped with ⟨meant, _, same⟩
        cases same
        exact ⟨rfl, rfl, rfl⟩
    rw [nothing.1, nothing.2.1, nothing.2.2]
    simp [strings, Mode.isEscaped, Mode.opened, quotes]
  | unicode units number missing =>
    rcases Option.map_eq_some_iff.mp stepped with ⟨digit, hex, same⟩
    have notBackslash : char ≠ '\\' := by
      rintro rfl
      rw [show hexDigit? '\\' = none by decide] at hex
      cases hex
    have nothing : out = [] ∧ next.isEscaped = false ∧ next.opened = 1 := by
      split at same <;> cases same <;> exact ⟨rfl, rfl, rfl⟩
    rw [nothing.1, nothing.2.1, nothing.2.2]
    simpa [strings, Mode.isEscaped, Mode.opened] using quotes_plain notBackslash rest

theorem two_strings_le_quotes {mode : Mode} {text : Text} {tokens : List Token} (cut : lex mode text = some tokens) :
    2 * strings tokens ≤ quotes mode.isEscaped text + mode.opened := by
  induction text generalizing mode tokens with
  | nil =>
    rw [lex] at cut
    cases mode with
    | outside =>
      cases cut
      exact Nat.zero_le _
    | word letters =>
      rcases Option.map_eq_some_iff.mp cut with ⟨value, _, rfl⟩
      exact Nat.zero_le _
    | _ => cases cut
  | cons char rest ih =>
    rw [lex] at cut
    rcases Option.bind_eq_some_iff.mp cut with ⟨⟨out, next⟩, stepped, later⟩
    rcases Option.map_eq_some_iff.mp later with ⟨tokens, cutLater, rfl⟩
    have here := quotes_step stepped rest
    have there := ih cutLater
    rw [strings, List.countP_append]
    unfold strings at here there
    dsimp only at here there ⊢
    omega

/-! ## Strings of a document -/

def isText : Value -> Bool
  | .string _ => true
  | _ => false

/-- The names of members, and those of their values that are strings. -/
def memberTexts (members : List (Text × Value)) : Nat :=
  members.length + members.countP fun member => isText member.2

/-- The strings at the top of a document. -/
def texts : Value -> Nat
  | .string _ => 1
  | .object members => memberTexts members
  | _ => 0

def Frame.texts : Frame -> Nat
  | .array _ => 0
  | .object members _ => memberTexts members + 1

def stackTexts (stack : List Frame) : Nat :=
  (stack.map Frame.texts).sum

def Reading.texts : Reading -> Nat
  | .value stack | .firstItem stack | .firstKey stack => stackTexts stack
  | .nextKey members stack => memberTexts members + stackTexts stack
  | .colon members _ stack => memberTexts members + 1 + stackTexts stack
  | .done read stack => JsonText.texts read + stackTexts stack

theorem stackTexts_cons (frame : Frame) (stack : List Frame) :
    stackTexts (frame :: stack) = frame.texts + stackTexts stack :=
  List.sum_cons

/-- A member's name is counted when it is read, its value when it has been read. -/
theorem memberTexts_concat (members : List (Text × Value)) (key : Text) (read : Value) :
    memberTexts (members ++ [(key, read)]) ≤ texts read + (memberTexts members + 1) := by
  have value : (if isText read = true then 1 else 0) ≤ texts read := by
    cases read <;> simp [isText, texts]
  rw [memberTexts, memberTexts, List.length_append, List.countP_append, List.countP_singleton]
  simp only [List.length_singleton]
  omega

theorem texts_readValue {stack : List Frame} {token : Token} {next : Reading}
    (read : Reading.readValue stack token = some next) :
    next.texts ≤ stackTexts stack + strings [token] := by
  cases token with
  | string text =>
    cases read
    exact Nat.le_of_eq (Nat.add_comm _ _)
  | scalar value =>
    cases read
    have none : texts value.value = 0 := by
      cases value <;> rfl
    rw [Reading.texts, none, Nat.zero_add]
    exact Nat.le_add_right _ _
  | openObject | openArray =>
    cases read
    exact Nat.le_add_right _ _
  | _ => cases read

theorem texts_step {reading next : Reading} {token : Token} (stepped : reading.step token = some next) :
    next.texts ≤ reading.texts + strings [token] := by
  have kept : ∀ {count : Nat}, next.texts ≤ count -> next.texts ≤ count + strings [token] :=
    fun bounded => Nat.le_trans bounded (Nat.le_add_right _ _)
  cases reading with
  | value stack => exact texts_readValue stepped
  | firstItem stack =>
    have inside : Reading.readValue (.array [] :: stack) token = some next ->
        next.texts ≤ stackTexts stack + strings [token] := by
      intro read
      simpa [stackTexts_cons, Frame.texts] using texts_readValue read
    cases token with
    | closeArray =>
      cases stepped
      exact kept (by simp [Reading.texts, texts])
    | _ => exact inside stepped
  | firstKey stack =>
    cases token with
    | closeObject =>
      cases stepped
      exact kept (by simp [Reading.texts, texts, memberTexts])
    | string key =>
      cases stepped
      simp [Reading.texts, memberTexts, strings, Token.isString, Nat.add_comm]
    | _ => cases stepped
  | nextKey members stack =>
    cases token with
    | string key =>
      cases stepped
      exact Nat.le_of_eq (Nat.add_right_comm _ _ _)
    | _ => cases stepped
  | colon members key stack =>
    cases token with
    | colon =>
      cases stepped
      exact kept (by simp [Reading.texts, stackTexts_cons, Frame.texts])
    | _ => cases stepped
  | done read stack =>
    cases stack with
    | nil => cases stepped
    | cons frame stack =>
      cases frame with
      | array items =>
        cases token with
        | comma | closeArray =>
          cases stepped
          exact kept (by simp [Reading.texts, stackTexts_cons, Frame.texts, texts])
        | _ => cases stepped
      | object members key =>
        have ended : memberTexts (members ++ [(key, read)]) + stackTexts stack ≤
            texts read + stackTexts (.object members key :: stack) := by
          have grown := memberTexts_concat members key read
          have frame : Frame.texts (.object members key) = memberTexts members + 1 := rfl
          rw [stackTexts_cons, frame]
          omega
        cases token with
        | comma | closeObject =>
          cases stepped
          exact kept ended
        | _ => cases stepped

theorem texts_run {reading final : Reading} {tokens : List Token}
    (run : tokens.foldlM Reading.step reading = some final) :
    final.texts ≤ reading.texts + strings tokens := by
  induction tokens generalizing reading with
  | nil =>
    cases run
    exact Nat.le_refl _
  | cons token tokens ih =>
    rw [List.foldlM_cons] at run
    rcases Option.bind_eq_some_iff.mp run with ⟨next, stepped, later⟩
    have here := texts_step stepped
    have there := ih later
    have counted : strings (token :: tokens) = strings [token] + strings tokens := by
      rw [strings, ← List.singleton_append, List.countP_append]
      rfl
    omega

/-- A document has no more strings at its top than half the quotes of its text. -/
theorem two_texts_le_quotes {text : Text} {document : Value} (parsed : parse text = some document) :
    2 * texts document ≤ quotes false text := by
  rcases Option.bind_eq_some_iff.mp parsed with ⟨tokens, cut, read⟩
  rcases Option.bind_eq_some_iff.mp read with ⟨final, run, finished⟩
  have counted := two_strings_le_quotes cut
  have bounded := texts_run run
  have whole : final.texts = texts document := by
    cases final with
    | done read stack =>
      cases stack with
      | nil =>
        cases finished
        rfl
      | cons frame stack => cases finished
    | _ => cases finished
  rw [whole] at bounded
  change 2 * strings tokens ≤ quotes false text at counted
  change texts document ≤ 0 + strings tokens at bounded
  omega

/-! ## Quotes of a text written in pieces -/

theorem quotes_other (notBackslash : char ≠ '\\') (notQuote : char ≠ '"') (rest : Text) :
    quotes false (char :: rest) = quotes false rest := by
  rw [quotes, if_neg notBackslash, if_neg notQuote]

theorem quotes_backslash (char : Char) (rest : Text) : quotes false ('\\' :: char :: rest) = quotes false rest := by
  rw [quotes, if_pos rfl, quotes]

theorem quotes_digitChar {digit : Nat} (small : digit < 16) (rest : Text) :
    quotes false (Nat.digitChar digit :: rest) = quotes false rest := by
  have plain : ∀ digit, digit < 16 -> Nat.digitChar digit ≠ '\\' ∧ Nat.digitChar digit ≠ '"' := by
    decide
  exact quotes_other (plain digit small).1 (plain digit small).2 rest

theorem quotes_escapeUnits (units : List Nat) (small : ∀ unit ∈ units, unit < 0x10000) (rest : Text) :
    quotes false (units.flatMap escapeUnit ++ rest) = quotes false rest := by
  induction units with
  | nil => rfl
  | cons unit units ih =>
    have below := small unit List.mem_cons_self
    rw [List.flatMap_cons, List.append_assoc, ← ih (List.forall_mem_cons.mp small).2]
    change quotes false ('\\' :: 'u' :: _ :: _ :: _ :: _ :: _) = _
    rw [quotes_backslash, quotes_digitChar (by omega), quotes_digitChar (by omega), quotes_digitChar (by omega),
      quotes_digitChar (by omega)]
    rfl

theorem quotes_escapeChar (char : Char) (rest : Text) :
    quotes false (escapeChar char ++ rest) = quotes false rest := by
  unfold escapeChar
  split_ifs with quote backslash newline return_ tab formFeed backspace printable
  rotate_left 7
  · exact quotes_other backslash quote rest
  · exact quotes_escapeUnits _ (fun _ => utf16_small) rest
  all_goals exact quotes_backslash _ rest

/-- An escaped text has no quotes of its own. -/
theorem quotes_escape (text rest : Text) : quotes false (escape text ++ rest) = quotes false rest := by
  unfold escape
  induction text with
  | nil => rfl
  | cons char text ih =>
    rw [List.flatMap_cons, List.append_assoc, quotes_escapeChar, ih]

/-! ## Members -/

/-- Names that are found with a string are names of that many members. -/
theorem two_names_le_memberTexts {members : List (Text × Value)} {names : List Text} (distinct : names.Nodup)
    (found : ∀ name ∈ names, ∃ text, member? members name = some (.string text)) :
    2 * names.length ≤ memberTexts members := by
  have listed : ∀ name ∈ names,
      name ∈ (members.filter fun member => isText member.2).map Prod.fst := by
    intro name member
    rcases found name member with ⟨text, same⟩
    have present : (name, Document.string text) ∈ members := by
      rcases List.lookup_eq_some_iff.mp same with ⟨earlier, later, split, _⟩
      rw [← List.mem_reverse, split]
      exact List.mem_append_right _ List.mem_cons_self
    exact List.mem_map.mpr ⟨_, List.mem_filter.mpr ⟨present, rfl⟩, rfl⟩
  have bounded := (distinct.subperm listed).length_le
  have filtered := List.length_filter_le (fun member : Text × Value => isText member.2) members
  rw [List.length_map] at bounded
  rw [memberTexts, List.countP_eq_length_filter]
  omega

end JsonText
end Library
end AgUi
