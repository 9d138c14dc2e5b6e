import Mathlib.Data.List.InsertIdx
import AgUi.Library.Decimals
import AgUi.Library.OrderedMap

namespace AgUi
namespace Library
namespace JsonPatch

/-!
# Patches of documents

Pointers and the six operations as the standards have them.  A document may
be absent: removing all of it leaves none, and only adding the whole puts one
back.  A patch fails where an operation does, and where it leaves no document.

How numbers compare is a parameter.
-/

open Decimals

universe u

abbrev Text := List Char

inductive Document (N : Type u) where
  | null
  | bool (value : Bool)
  | number (value : N)
  | string (value : Text)
  | array (items : List (Document N))
  | object (members : List (Text × Document N))

variable {N : Type u}

/-! ## Pointers -/

def unescape : Text -> Option Text
  | [] => some []
  | [char] => if char = '~' then none else some [char]
  | char :: next :: rest =>
    if char = '~' then
      if next = '0' then (unescape rest).map ('~' :: ·)
      else if next = '1' then (unescape rest).map ('/' :: ·)
      else none
    else (unescape (next :: rest)).map (char :: ·)

/-- The tokens of a pointer. -/
def tokensOf : Text -> Option (List Text)
  | [] => some []
  | char :: rest => if char = '/' then (rest.splitOn '/').mapM unescape else none

theorem unescape_cons {char : Char} (notTilde : char ≠ '~') (text : Text) :
    unescape (char :: text) = (unescape text).map (char :: ·) := by
  cases text with
  | nil => simp [unescape, notTilde]
  | cons next rest => rw [unescape, if_neg notTilde]

theorem unescape_zero (text : Text) : unescape ('~' :: '0' :: text) = (unescape text).map ('~' :: ·) := by
  rw [unescape, if_pos rfl, if_pos rfl]

theorem unescape_one (text : Text) : unescape ('~' :: '1' :: text) = (unescape text).map ('/' :: ·) := by
  rw [unescape, if_pos rfl, if_neg (by decide), if_pos rfl]

theorem unescape_other {next : Char} (notZero : next ≠ '0') (notOne : next ≠ '1') (text : Text) :
    unescape ('~' :: next :: text) = none := by
  rw [unescape, if_pos rfl, if_neg notZero, if_neg notOne]

/-- Characters before a text stand before its first token. -/
theorem mapM_modifyHead {put read : Text -> Text}
    (each : ∀ text, unescape (put text) = (unescape text).map read) (pieces : List Text) :
    (pieces.modifyHead put).mapM unescape = (pieces.mapM unescape).map (List.modifyHead read) := by
  cases pieces with
  | nil => rfl
  | cons piece pieces =>
    rw [List.modifyHead_cons, List.mapM_cons, List.mapM_cons, each]
    cases unescape piece with
    | none => rfl
    | some token =>
      cases pieces.mapM unescape with
      | none => rfl
      | some tokens => rfl

theorem splitOn_slash (text : Text) : ('/' :: text).splitOn '/' = [] :: text.splitOn '/' := by
  rw [List.splitOn_eq_splitOnP, List.splitOn_eq_splitOnP, List.splitOnP_cons_eq_if_modifyHead,
    if_pos (beq_self_eq_true '/')]

theorem splitOn_other {char : Char} (notSlash : char ≠ '/') (text : Text) :
    (char :: text).splitOn '/' = (text.splitOn '/').modifyHead (char :: ·) := by
  rw [List.splitOn_eq_splitOnP, List.splitOn_eq_splitOnP, List.splitOnP_cons_eq_if_modifyHead,
    if_neg (by simpa using notSlash)]

/-- A tilde that escapes nothing makes a text no pointer. -/
theorem mapM_splitOn_tilde {next : Char} (notZero : next ≠ '0') (notOne : next ≠ '1') (text : Text) :
    (('~' :: next :: text).splitOn '/').mapM unescape = none := by
  rw [splitOn_other (by decide)]
  by_cases slash : next = '/'
  · subst slash
    rw [splitOn_slash, List.modifyHead_cons, List.mapM_cons]
    rfl
  · rw [splitOn_other slash, List.modifyHead_modifyHead]
    cases pieces : text.splitOn '/' with
    | nil => exact absurd pieces (List.splitOn_ne_nil '/' text)
    | cons piece others =>
      rw [List.modifyHead_cons, List.mapM_cons, Function.comp_apply, unescape_other notZero notOne]
      rfl

/-- A token that names a place of an array is the numeral of the place. -/
def index (token : Text) : Option Nat :=
  if IsNumeral token then some (decimal token) else none

/-! ## Places -/

def child (document : Document N) (token : Text) : Option (Document N) :=
  match document with
  | .object members => members.lookup token
  | .array items => (index token).bind fun place => items[place]?
  | _ => none

/-- The value at a place. -/
def get (tokens : List Text) (document : Document N) : Option (Document N) :=
  tokens.foldlM child document

/-- Another value for a child. -/
def setChild (document : Document N) (token : Text) (value : Document N) : Document N :=
  match document with
  | .object members => .object (OrderedMap.setEntries token value members)
  | .array items => .array ((index token).elim items fun place => items.set place value)
  | document => document

def addChild (token : Text) (value : Document N) (document : Document N) : Option (Document N) :=
  match document with
  | .object members => some (.object (OrderedMap.setEntries token value members))
  | .array items =>
    if token = ['-'] then some (.array (items ++ [value]))
    else
      (index token).bind fun place =>
        if place ≤ items.length then some (.array (items.insertIdx place value)) else none
  | _ => none

def removeChild (token : Text) (document : Document N) : Option (Document N) :=
  match document with
  | .object members =>
    if (members.lookup token).isSome then some (.object (members.filter fun entry => entry.1 ≠ token)) else none
  | .array items =>
    (index token).bind fun place =>
      if place < items.length then some (.array (items.eraseIdx place)) else none
  | _ => none

/-- A change of the parent of a place; the parent has to exist. -/
def changeParent (change : Text -> Document N -> Option (Document N)) :
    List Text -> Document N -> Option (Document N)
  | [], _ => none
  | [token], document => change token document
  | token :: next :: rest, document =>
    (child document token).bind fun inner =>
      (changeParent change (next :: rest) inner).map fun changed => setChild document token changed

def add (tokens : List Text) (value document : Document N) : Option (Document N) :=
  if tokens = [] then some value else changeParent (fun token parent => addChild token value parent) tokens document

/-- What is left, which is no document where all of it is removed. -/
def remove (tokens : List Text) (document : Document N) : Option (Option (Document N)) :=
  if tokens = [] then some none else (changeParent removeChild tokens document).map some

def replaceChild (value : Document N) (token : Text) (document : Document N) : Option (Document N) :=
  (child document token).map fun _ => setChild document token value

def replace (tokens : List Text) (value document : Document N) : Option (Document N) :=
  if tokens = [] then some value else changeParent (replaceChild value) tokens document

theorem get_cons (token : Text) (rest : List Text) (document : Document N) :
    get (token :: rest) document = (child document token).bind (get rest) := by
  rfl

theorem child_array (items : List (Document N)) (token : Text) :
    child (.array items) token = (index token).bind fun place => items[place]? := by
  rfl

theorem setChild_of_index {items : List (Document N)} {token : Text} {place : Nat} (read : index token = some place)
    (value : Document N) : setChild (.array items) token value = .array (items.set place value) := by
  rw [setChild, read, Option.elim_some]

theorem changeParent_cons (change : Text -> Document N -> Option (Document N)) (token next : Text)
    (rest : List Text) (document : Document N) :
    changeParent change (token :: next :: rest) document =
      (child document token).bind fun inner =>
        (changeParent change (next :: rest) inner).map (setChild document token) := by
  rfl

theorem replace_cons (token : Text) (rest : List Text) (value document : Document N) :
    replace (token :: rest) value document =
      (child document token).bind fun inner => (replace rest value inner).map (setChild document token) := by
  cases rest with
  | nil =>
    rw [replace, if_neg (by simp), changeParent, replaceChild]
    cases child document token with
    | none => rfl
    | some inner => rfl
  | cons next rest => rfl

theorem replace_eq_none {tokens : List Text} (value : Document N) : ∀ {document : Document N},
    get tokens document = none -> replace tokens value document = none := by
  induction tokens with
  | nil =>
    intro document missing
    cases missing
  | cons token rest ih =>
    intro document missing
    rw [get_cons] at missing
    rw [replace_cons]
    cases entered : child document token with
    | none => rfl
    | some inner =>
      rw [entered, Option.bind_some] at missing
      rw [Option.bind_some, ih missing]
      rfl

/-! ## Values -/

section

variable (sameNumber : N -> N -> Bool)

mutual

/-- Objects have the same keys, in any order, and equal values at them. -/
def equal : Document N -> Document N -> Bool
  | .null, .null => true
  | .bool left, .bool right => left == right
  | .number left, .number right => sameNumber left right
  | .string left, .string right => left == right
  | .array left, .array right => equalItems left right
  | .object left, .object right =>
    equalMembers left right && right.all fun entry => (left.lookup entry.1).isSome
  | _, _ => false

def equalItems : List (Document N) -> List (Document N) -> Bool
  | [], [] => true
  | left :: lefts, right :: rights => equal left right && equalItems lefts rights
  | _, _ => false

def equalMembers : List (Text × Document N) -> List (Text × Document N) -> Bool
  | [], _ => true
  | (key, value) :: rest, members =>
    (match members.lookup key with
      | some other => equal value other
      | none => false) && equalMembers rest members

end

/-! ## Operations -/

inductive Operation (N : Type u) where
  | add (path : List Text) (value : Document N)
  | remove (path : List Text)
  | replace (path : List Text) (value : Document N)
  | move (source path : List Text)
  | copy (source path : List Text)
  | test (path : List Text) (value : Document N)

def addTo (path : List Text) (value : Document N) : Option (Document N) -> Option (Document N)
  | none => if path = [] then some value else none
  | some document => add path value document

/-- One operation on a document that may be absent; a failure is `none`.  A value that is moved to where it is stays
there. -/
def perform (operation : Operation N) (document : Option (Document N)) : Option (Option (Document N)) :=
  match operation with
  | .add path value => (addTo path value document).map some
  | .remove path => document.bind (remove path)
  | .replace path value => document.bind fun document => (replace path value document).map some
  | .move source path =>
    document.bind fun document =>
      if source = path then (get source document).map fun _ => some document
      else if source.isPrefixOf path then none
      else
        (get source document).bind fun value =>
          (remove source document).bind fun rest => (addTo path value rest).map some
  | .copy source path =>
    document.bind fun document => (get source document).bind fun value => (add path value document).map some
  | .test path value =>
    document.bind fun document =>
      (get path document).bind fun actual => if equal sameNumber actual value then some (some document) else none

def performAll (patch : List (Operation N)) (document : Option (Document N)) : Option (Option (Document N)) :=
  patch.foldlM (fun document operation => perform sameNumber operation document) document

/-- The document a patch makes of a document. -/
def evaluate (patch : List (Operation N)) (document : Document N) : Option (Document N) :=
  (performAll sameNumber patch (some document)).join

/-! ## Patches as documents -/

def memberOf (document : Document N) (key : Text) : Option (Document N) :=
  match document with
  | .object members => members.lookup key
  | _ => none

def textOf (document : Document N) (key : Text) : Option Text :=
  match memberOf document key with
  | some (.string text) => some text
  | _ => none

/-- What is read of a member that is a text. -/
def readOf {A : Type} (read : Text -> Option A) (document : Document N) (key : Text) : Option A :=
  (textOf document key).bind read

/-- An operation has the members its name asks for; what other members it has makes no difference.  How pointers are
read is a parameter. -/
def operationNamed (pointer : Text -> Option (List Text)) (document : Document N) (name : Text) (path : List Text) :
    Option (Operation N) :=
  if name = "add".toList then (memberOf document "value".toList).map (.add path)
  else if name = "remove".toList then some (.remove path)
  else if name = "replace".toList then (memberOf document "value".toList).map (.replace path)
  else if name = "move".toList then (readOf pointer document "from".toList).map (.move · path)
  else if name = "copy".toList then (readOf pointer document "from".toList).map (.copy · path)
  else if name = "test".toList then (memberOf document "value".toList).map (.test path)
  else none

def readOperation (pointer : Text -> Option (List Text)) (document : Document N) : Option (Operation N) :=
  (textOf document "op".toList).bind fun name =>
    (readOf pointer document "path".toList).bind (operationNamed pointer document name)

def evaluateAll (patch : List (Document N)) (document : Document N) : Option (Document N) :=
  (patch.mapM (readOperation tokensOf)).bind fun operations => evaluate sameNumber operations document

end

end JsonPatch
end Library
end AgUi
