import AgUi.Protocol.Values

namespace AgUi
namespace ManagedAgents

open Library Protocol

/-!
# Displayed text

What a turn shows of the content blocks of a managed session.  What the language
of the integration decides, namely what is a character, a prefix or white space
and how a numeric entity is read, is a `TextPort`.  `TextPort.typescript` is the
one that is modelled.

A string is the list of its characters.  Where a string is cut in the middle of
a surrogate pair, the half that is left becomes U+FFFD, which is what any UTF-8
encoder makes of it.
-/

/-- A block of a search result, or of a message. -/
structure TextBlock where
  type : String
  text : Option String := none
deriving DecidableEq

/-- A content block as the session API types it. -/
structure ContentBlock extends TextBlock where
  title : Option String := none
  source : Option String := none
  content : Option (List TextBlock) := none
deriving DecidableEq

/-- What a language's own string type decides. -/
structure TextPort where
  /-- The character of a decimal reference, given its digits. -/
  decimal : List Char -> Char
  /-- The character of a hexadecimal reference, given its digits. -/
  hexadecimal : List Char -> Char
  /-- At most this long a prefix, in the language's own units. -/
  slice : Nat -> List Char -> List Char
  isSpace : Char -> Bool

/-! ## Characters -/

/-- U+FFFD, substituted for any entity that does not denote a usable character. -/
def replacementCharacter : Char := '\uFFFD'

/-- The character an entity's code point denotes, or U+FFFD. -/
def codePointOf (n : Nat) : Char :=
  if n ≤ 0x10ffff ∧ ¬ (0xd800 ≤ n ∧ n ≤ 0xdfff) then Char.ofNat n else replacementCharacter

def digitValue (digit : Char) : Nat :=
  if digit.isDigit then digit.toNat - '0'.toNat
  else if 'a' ≤ digit then digit.toNat - 'a'.toNat + 10
  else digit.toNat - 'A'.toNat + 10

/-- `parseInt(digits, base)` of nothing but digits. -/
def parseDigits (base : Nat) (digits : List Char) : Nat :=
  digits.foldl (fun value digit => value * base + digitValue digit) 0

def isHexDigit (char : Char) : Bool :=
  char.isDigit || (decide ('a' ≤ char) && decide (char ≤ 'f')) || (decide ('A' ≤ char) && decide (char ≤ 'F'))

/-- How many UTF-16 units a character takes. -/
def units (char : Char) : Nat :=
  if char.toNat ≤ 0xffff then 1 else 2

/-- `text.slice(0, length)`, counted in UTF-16 units. -/
def sliceUnits : Nat -> List Char -> List Char
  | _, [] => []
  | length, char :: rest =>
    if units char ≤ length then char :: sliceUnits (length - units char) rest
    else if length = 0 then []
    else [replacementCharacter]

/-- White space, as `String.prototype.trim` reads it. -/
def isWhiteSpace (char : Char) : Bool :=
  let code := char.toNat
  (9 ≤ code && code ≤ 13) || code = 0x20 || code = 0xa0 || code = 0x1680 || (0x2000 ≤ code && code ≤ 0x200a) ||
    code = 0x2028 || code = 0x2029 || code = 0x202f || code = 0x205f || code = 0x3000 || code = 0xfeff

def trimBy (isSpace : Char -> Bool) (text : List Char) : List Char :=
  ((text.dropWhile isSpace).reverse.dropWhile isSpace).reverse

/-- `text.trim()` -/
def trim (text : String) : String :=
  String.ofList (trimBy isWhiteSpace text.toList)

/-- The text functions of `text.ts`. -/
def TextPort.typescript : TextPort where
  decimal digits := codePointOf (parseDigits 10 digits)
  hexadecimal digits := codePointOf (parseDigits 16 digits)
  slice := sliceUnits
  isSpace := isWhiteSpace

/-! ## Entities -/

/-- What one match of the entity pattern captures. -/
inductive Reference where
  | hexadecimal (digits : List Char)
  | decimal (digits : List Char)
  | named (character : Char)
deriving DecidableEq

def namedEntities : List (List Char × Char) :=
  [(['q', 'u', 'o', 't'], '"'), (['l', 't'], '<'), (['g', 't'], '>'), (['a', 'm', 'p'], '&')]

/-- A run of digits with its closing semicolon, and what follows. -/
def digits? (isDigit : Char -> Bool) (text : List Char) : Option (List Char × List Char) :=
  match text.takeWhile isDigit, text.dropWhile isDigit with
  | [], _ => none
  | digits, ';' :: rest => some (digits, rest)
  | _, _ => none

def hexadecimal? : List Char -> Option (Reference × List Char)
  | 'x' :: text | 'X' :: text => (digits? isHexDigit text).map fun found => (.hexadecimal found.1, found.2)
  | _ => none

def decimal? (text : List Char) : Option (Reference × List Char) :=
  (digits? Char.isDigit text).map fun found => (.decimal found.1, found.2)

def named? (text : List Char) : Option (Reference × List Char) :=
  namedEntities.findSome? fun entity =>
    if (entity.1 ++ [';']).isPrefixOf text then some (.named entity.2, text.drop (entity.1.length + 1)) else none

/-- The entity pattern, right behind its `&`. -/
def reference? : List Char -> Option (Reference × List Char)
  | '#' :: text => (hexadecimal? text).or (decimal? text)
  | text => named? text

variable (port : TextPort)

def TextPort.resolve : Reference -> Char
  | .hexadecimal digits => port.hexadecimal digits
  | .decimal digits => port.decimal digits
  | .named character => character

/-- Each match is resolved exactly once, from left to right. -/
def decodeFrom : Nat -> List Char -> List Char
  | 0, text => text
  | _, [] => []
  | fuel + 1, '&' :: rest =>
    match reference? rest with
    | some (reference, after) => port.resolve reference :: decodeFrom fuel after
    | none => '&' :: decodeFrom fuel rest
  | fuel + 1, char :: rest => char :: decodeFrom fuel rest

/-- Decode HTML entities in one pass. -/
def decodeEntities (text : List Char) : List Char :=
  decodeFrom port text.length text

/-! ## Blocks -/

def toolResultMaxChars : Nat := 4000

def searchResultPreviewChars : Nat := 300

/-- Concatenate the text of every `text` block. -/
def textOf (content : List TextBlock) : String :=
  String.join (content.filterMap fun block => if block.type = "text" then block.text else none)

def searchResultBody (inner : String) : List Char :=
  if inner = "" then [] else '\n' :: port.slice searchResultPreviewChars (decodeEntities port inner.toList)

def describeSearchResult (block : ContentBlock) : List Char :=
  "[search result] ".toList ++ decodeEntities port (block.title.getD "").toList ++ " — ".toList ++
    (block.source.getD "").toList ++ searchResultBody port (textOf (block.content.getD []))

/-- A `text` block is passed through verbatim; only the body of a search
result is decoded. -/
def describeBlock (block : ContentBlock) : List Char :=
  match if block.type = "text" then block.text else none with
  | some text => text.toList
  | none =>
    if block.type = "search_result" then describeSearchResult port block
    else '[' :: block.type.toList ++ [']']

/-- Flatten the mixed block types of a tool result into a readable string. -/
def describeToolResult (content : List ContentBlock) : List Char :=
  trimBy port.isSpace (['\n'].intercalate (content.map (describeBlock port)))

/-- What the UI is shown of a tool result. -/
def shownToolResult (content : List ContentBlock) : String :=
  String.ofList (port.slice toolResultMaxChars (describeToolResult port content))

/-- An escaped entity stays an entity. -/
example : decodeEntities .typescript "&#38;lt; &#x41;&#0000000066;&amp;&#xD800;&#;".toList =
    "&lt; AB&\uFFFD&#;".toList := by
  decide

end ManagedAgents
end AgUi
