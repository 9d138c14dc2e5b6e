import Mathlib.Algebra.GroupWithZero.Nat
import AgUi.Library.JsonPatch

namespace AgUi
namespace Cpp

open Library Decimals JsonPatch

/-!
# The state of an agent in C++

`applyPatch` takes the operations of a patch one after the other and goes back
to the state before the patch where one throws.  Before the state changes, the
history keeps it, as long as the history is enabled.

The documents and their comparison are the JSON library's: numbers are a
parameter, and so is whether two of them are the same.
-/

abbrev Doc (N : Type) := Document N

/-- What is thrown: an error with its message, or the JSON library's own exception. -/
inductive PatchError where
  | agent (message : Text)
  | json
deriving DecidableEq

def raise {A : Type} (parts : List Text) : Except PatchError A :=
  .error (.agent parts.flatten)

/-! ## Numbers in texts -/

/-- `isspace` -/
def isSpace (char : Char) : Bool :=
  char = ' ' || ('\t' ≤ char && char ≤ '\r')

/-- `std::stoul`: leading spaces, a sign, and as many digits as there are; what follows is not looked at. -/
inductive Stoul where
  | invalid
  | outOfRange
  | value (number : Nat)
deriving DecidableEq

/-- `std::stoul` takes a minus sign and wraps around. -/
def stoulDigits (negative : Bool) (digits : Text) : Stoul :=
  if digits.isEmpty then .invalid
  else if 2 ^ 64 ≤ decimal digits then .outOfRange
  else .value (if negative then (2 ^ 64 - decimal digits) % 2 ^ 64 else decimal digits)

/-- Space, a sign, digits: what stands behind the digits is not looked at. -/
def stoul (text : Text) : Stoul :=
  match text.dropWhile isSpace with
  | [] => .invalid
  | first :: rest =>
    if first = '-' then stoulDigits true (rest.takeWhile Char.isDigit)
    else if first = '+' then stoulDigits false (rest.takeWhile Char.isDigit)
    else stoulDigits false ((first :: rest).takeWhile Char.isDigit)

/-- An index is what `std::stoul` reads at the beginning of the segment. -/
def parseArrayIndex (segment path : Text) : Except PatchError Nat :=
  match stoul segment with
  | .value number => .ok number
  | .invalid => raise ["Invalid array index '".toList, segment, "' in path: ".toList, path]
  | .outOfRange => raise ["Array index out of range '".toList, segment, "' in path: ".toList, path]

/-! ## Operations -/

inductive PatchOperation where
  | add
  | remove
  | replace
  | move
  | copy
  | test
deriving DecidableEq

/-- An operation as it is parsed.  `source` is the member `from`. -/
structure JsonPatchOp (N : Type) where
  op : PatchOperation
  path : Text
  value : Doc N := .null
  hasValue : Bool := false
  source : Text := []

/-- `j.at(key).get<std::string>()` -/
def textAt {N : Type} (json : Doc N) (key : Text) : Except PatchError Text :=
  match json with
  | .object members =>
    match members.lookup key with
    | some (.string text) => .ok text
    | _ => .error .json
  | _ => .error .json

/-- The member of an object, if there is one. -/
def memberAt {N : Type} (json : Doc N) (key : Text) : Option (Doc N) :=
  match json with
  | .object members => members.lookup key
  | _ => none

def operationNames : List (Text × PatchOperation) :=
  [("add".toList, .add), ("remove".toList, .remove), ("replace".toList, .replace), ("move".toList, .move),
    ("copy".toList, .copy), ("test".toList, .test)]

namespace JsonPatchOp

variable {N : Type}

def fromJson (json : Doc N) : Except PatchError (JsonPatchOp N) := do
  let opStr ← textAt json "op".toList
  match operationNames.lookup opStr with
  | none => raise ["Unknown patch operation: ".toList, opStr]
  | some op => do
      let path ← textAt json "path".toList
      let value := memberAt json "value".toList
      let source ← if (memberAt json "from".toList).isSome then textAt json "from".toList else .ok []
      .ok { op := op, path := path, value := value.getD .null, hasValue := value.isSome, source := source }

end JsonPatchOp

/-! ## Paths -/

/-- A tilde that escapes nothing stands for itself. -/
def readSegments : Text -> Text -> List Text
  | current, [] => [current]
  | current, [char] => if char = '/' then [current, []] else [current ++ [char]]
  | current, char :: next :: rest =>
    if char = '/' then current :: readSegments [] (next :: rest)
    else if char = '~' ∧ next = '0' then readSegments (current ++ ['~']) rest
    else if char = '~' ∧ next = '1' then readSegments (current ++ ['/']) rest
    else readSegments (current ++ [char]) (next :: rest)

/-- A path that does not begin with a slash has no segments, and neither has "/". -/
def parsePath (path : Text) : List Text :=
  match path with
  | [] => []
  | char :: rest => if char ≠ '/' then [] else if rest = [] then [] else readSegments [] rest

/-- `path.empty() || path == "/"` -/
def isRoot (path : Text) : Bool :=
  path.isEmpty || path == ['/']

section Places

variable {N : Type}

/-- The element at an index that has been read. -/
def elementAt (items : List (Doc N)) (place : Nat) (otherwise : List Text) : Except PatchError (Doc N) :=
  match items[place]? with
  | some item => .ok item
  | none => raise otherwise

/-! ## Navigation -/

/-- What stands at the segments; `none` is a path that is not found. -/
def valueAt (path : Text) : List Text -> Doc N -> Except PatchError (Option (Doc N))
  | [], current => .ok (some current)
  | segment :: rest, current =>
    match current with
    | .object members =>
      match members.lookup segment with
      | some inner => valueAt path rest inner
      | none => .ok none
    | .array items => do
        let place ← parseArrayIndex segment path
        match items[place]? with
        | some inner => valueAt path rest inner
        | none => .ok none
    | _ => .ok none

/-- The value at a path, if there is one.  An index that cannot be read is an error. -/
def getValueAtPath (path : Text) (state : Doc N) : Except PatchError (Option (Doc N)) :=
  if isRoot path then .ok (some state)
  else
    match parsePath path with
    | [] => .ok none
    | segments => valueAt path segments state

/-- A member that is missing on the way is made an empty object. -/
def addAt (path : Text) (value : Doc N) : List Text -> Doc N -> Except PatchError (Doc N)
  | [], _ => raise ["Invalid path: ".toList, path]
  | [segment], current =>
    match current with
    | .object members => .ok (.object (OrderedMap.setEntries segment value members))
    | .array items =>
      if segment = ['-'] then .ok (.array (items ++ [value]))
      else do
        let place ← parseArrayIndex segment path
        if items.length < place then raise ["Array index out of bounds: ".toList, segment]
        else .ok (.array (items.insertIdx place value))
    | _ => raise ["Cannot add to non-object/array".toList]
  | segment :: next :: rest, current =>
    match current with
    | .object members => do
        let changed ← addAt path value (next :: rest) ((members.lookup segment).getD (.object []))
        .ok (.object (OrderedMap.setEntries segment changed members))
    | .array items => do
        let place ← parseArrayIndex segment path
        let inner ← elementAt items place ["Array index out of bounds: ".toList, segment]
        let changed ← addAt path value (next :: rest) inner
        .ok (.array (items.set place changed))
    | _ => raise ["Cannot navigate through non-object/array: ".toList, path]

/-- The root is replaced; at any other place missing parents are made. -/
def applyAdd (path : Text) (value state : Doc N) : Except PatchError (Doc N) :=
  if isRoot path then .ok value else addAt path value (parsePath path) state

def removeAt (path : Text) : List Text -> Doc N -> Except PatchError (Doc N)
  | [], _ => raise ["Invalid path: ".toList, path]
  | [segment], current =>
    match current with
    | .object members =>
      if (members.lookup segment).isSome then .ok (.object (members.filter fun entry => entry.1 ≠ segment))
      else raise ["Key not found: ".toList, segment]
    | .array items => do
        let place ← parseArrayIndex segment path
        if items.length ≤ place then raise ["Array index out of bounds: ".toList, segment]
        else .ok (.array (items.eraseIdx place))
    | _ => raise ["Cannot remove from non-object/array".toList]
  | segment :: next :: rest, current =>
    match current with
    | .object members =>
      match members.lookup segment with
      | none => raise ["Path not found: ".toList, path]
      | some inner => do
          let changed ← removeAt path (next :: rest) inner
          .ok (.object (OrderedMap.setEntries segment changed members))
    | .array items => do
        let place ← parseArrayIndex segment path
        let inner ← elementAt items place ["Array index out of bounds: ".toList, segment]
        let changed ← removeAt path (next :: rest) inner
        .ok (.array (items.set place changed))
    | _ => raise ["Cannot navigate through non-object/array: ".toList, path]

/-- The root stays. -/
def applyRemove (path : Text) (state : Doc N) : Except PatchError (Doc N) :=
  if isRoot path then raise ["Cannot remove root".toList] else removeAt path (parsePath path) state

/-- `*target = value` -/
def assignAt (value : Doc N) : List Text -> Doc N -> Doc N
  | [], _ => value
  | segment :: rest, current =>
    match current with
    | .object members =>
      match members.lookup segment with
      | some inner => .object (OrderedMap.setEntries segment (assignAt value rest inner) members)
      | none => current
    | .array items =>
      match stoul segment with
      | .value place =>
        match items[place]? with
        | some inner => .array (items.set place (assignAt value rest inner))
        | none => current
      | _ => current
    | _ => current

/-- Only what is there is replaced. -/
def applyReplace (path : Text) (value state : Doc N) : Except PatchError (Doc N) :=
  if isRoot path then .ok value
  else do
    match ← getValueAtPath path state with
    | none => raise ["Path not found: ".toList, path]
    | some _ => .ok (assignAt value (parsePath path) state)

/-- What stands at the source of a move or a copy. -/
def sourceAt (source : Text) (state : Doc N) : Except PatchError (Doc N) := do
  match ← getValueAtPath source state with
  | none => raise ["Source path not found: ".toList, source]
  | some value => .ok value

/-- The value is copied before it is removed. -/
def applyMove (source path : Text) (state : Doc N) : Except PatchError (Doc N) := do
  let value ← sourceAt source state
  let rest ← applyRemove source state
  applyAdd path value rest

/-- What an addition makes on the way to its place, before it looks at the value. -/
def makeParents (path : Text) : List Text -> Doc N -> Except PatchError (Doc N)
  | segment :: next :: rest, current =>
    match current with
    | .object members => do
        let made ← makeParents path (next :: rest) ((members.lookup segment).getD (.object []))
        .ok (.object (OrderedMap.setEntries segment made members))
    | .array items => do
        let place ← parseArrayIndex segment path
        let inner ← elementAt items place ["Array index out of bounds: ".toList, segment]
        let made ← makeParents path (next :: rest) inner
        .ok (.array (items.set place made))
    | _ => raise ["Cannot navigate through non-object/array: ".toList, path]
  | _, current => .ok current

/-- The value is handed over by reference: it is copied where it is added, when the parents of its place are made. -/
def applyCopy (source path : Text) (state : Doc N) : Except PatchError (Doc N) := do
  let _ ← sourceAt source state
  let made ← if isRoot path then .ok state else makeParents path (parsePath path) state
  let value ← sourceAt source made
  applyAdd path value made

variable (sameNumber : N -> N -> Bool)

/-- The target is compared as JSON values are. -/
def applyTest (path : Text) (value state : Doc N) : Except PatchError (Doc N) := do
  match ← getValueAtPath path state with
  | none => raise ["Path not found: ".toList, path]
  | some target =>
    if equal sameNumber target value then .ok state
    else raise ["Test failed: value mismatch at ".toList, path]

def applyPatchOp (op : JsonPatchOp N) (state : Doc N) : Except PatchError (Doc N) :=
  match op.op with
  | .add => applyAdd op.path op.value state
  | .remove => applyRemove op.path state
  | .replace => applyReplace op.path op.value state
  | .move => applyMove op.source op.path state
  | .copy => applyCopy op.source op.path state
  | .test => applyTest sameNumber op.path op.value state

/-- The operations of a patch, up to the first that throws. -/
def applyOps (patch : List (Doc N)) (state : Doc N) : Except PatchError (Doc N) :=
  patch.foldlM (fun state json => (JsonPatchOp.fromJson json).bind fun op => applyPatchOp sameNumber op state) state

end Places

/-! ## The manager -/

/-- The state and, where it is enabled, the history of what it was. -/
structure StateManager (N : Type) where
  currentState : Doc N
  historyEnabled : Bool := false
  maxHistorySize : Nat := 10
  /-- The oldest state first. -/
  history : List (Doc N) := []

namespace StateManager

variable {N : Type} (manager : StateManager N)

/-- Where the history is full, the oldest state goes. -/
def addToHistory (state : Doc N) : StateManager N :=
  let history := manager.history ++ [state]
  { manager with
    history := if 0 < manager.maxHistorySize ∧ manager.maxHistorySize < history.length then history.tail else history }

/-- The state is kept, if the history is enabled, and another one takes its place. -/
def supersede (superseded state : Doc N) : StateManager N :=
  { (if manager.historyEnabled then manager.addToHistory superseded else manager) with currentState := state }

def setState (state : Doc N) : StateManager N :=
  manager.supersede manager.currentState state

def restoreFromSnapshot (snapshot : Doc N) : StateManager N :=
  manager.supersede manager.currentState snapshot

def clear : StateManager N :=
  manager.supersede manager.currentState (.object [])

/-- Switching the history off forgets it. -/
def enableHistory (enable : Bool) (maxSize : Nat) : StateManager N :=
  { manager with
    historyEnabled := enable, maxHistorySize := maxSize, history := if enable then manager.history else [] }

/-- The last state superseded comes back. -/
def rollback : StateManager N × Bool :=
  match manager.history.getLast? with
  | none => (manager, false)
  | some state => ({ manager with currentState := state, history := manager.history.dropLast }, true)

variable (sameNumber : N -> N -> Bool)

/-- A patch that throws leaves the backup of the state behind. -/
def applyPatch (patch : Doc N) : StateManager N × Option PatchError :=
  match patch with
  | .array operations =>
    let backup := manager.currentState
    match applyOps sameNumber operations manager.currentState with
    | .ok state => (manager.supersede backup state, none)
    | .error error => ({ manager with currentState := backup }, some error)
  | _ => (manager, some (.agent "Patch must be an array".toList))

end StateManager

end Cpp
end AgUi
