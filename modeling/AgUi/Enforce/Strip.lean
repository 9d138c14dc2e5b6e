import AgUi.Protocol.Values

namespace AgUi
namespace Enforce

open Library Protocol

/-!
# Stripping what a schema does not describe

`stripUnknown` removes three things from a value: a property its object
schema does not describe, an unrecognised member of a discriminated union,
and what a dropped member takes with it.  A malformed value on a described
field stays in place, for the validator to reject.

The stripper reads a schema through `unwrap` only, one position at a time, so
it is written here for any type of schemas that can be unwrapped.  A schema
may then refer to itself: the recursion is on the value.
-/

/-- What a schema is, once its wrappers are off. -/
inductive Description (S : Type) where
  /-- A leaf or an opaque position; `only` is the value of a literal. -/
  | leaf (only : Option String)
  | object (shape : List (String × S)) (specOpen : Bool)
  | array (element : S)
  | record (valueType : S)
  | discriminatedUnion (discriminator : String) (options : List S)
  | union (options : List S)

namespace Description

variable {S : Type}

def isObject : Description S -> Bool
  | object _ _ => true
  | _ => false

/-- `literalValue`. -/
def literal? : Description S -> Option String
  | leaf only => only
  | _ => none

end Description

/-- A type of schemas, as the stripper sees it. -/
class Schematic (S : Type) where
  unwrap : S -> Description S
  /-- `schema.safeParse(undefined).success`. -/
  admitsUndefined : S -> Bool

open Schematic

variable {S : Type} [Schematic S]

/-- `literalValueOf`. -/
def literalValueOf (schema : Option S) : Option String :=
  schema.bind fun schema => (unwrap schema).literal?

/-- `literalValueOf(…) === tag`, where both may be undefined. -/
def literalIs (literal : Option String) (tag : Option Json) : Bool :=
  match literal, tag with
  | none, none => true
  | some text, some (.string value) => text == value
  | _, _ => false

/-- How one value is taken apart. -/
inductive Descent (S : Type) where
  | fields (shape : List (String × S)) (specOpen : Bool)
  | items (element : S)
  | entries (valueType : S)
  /-- Nothing below this position is looked at. -/
  | whole
  /-- An unrecognised union member. -/
  | unrecognised

/-- The option a discriminated union takes a tagged object for. -/
def taggedOption (discriminator : String) (options : List S) (members : List (String × Json)) :
    Option (List (String × S) × Bool) :=
  options.findSome? fun option =>
    match unwrap option with
    | .object shape specOpen =>
      if literalIs (literalValueOf (shape.lookup discriminator)) (members.lookup discriminator) then
        some (shape, specOpen)
      else none
    | _ => none

/-- How an object is taken apart. -/
def descendObject (description : Description S) (members : List (String × Json)) : Descent S :=
  match description with
  | .object shape specOpen => .fields shape specOpen
  | .record valueType => .entries valueType
  | .discriminatedUnion discriminator options =>
    match taggedOption discriminator options members with
    | some (shape, specOpen) => .fields shape specOpen
    | none => .unrecognised
  | .union options =>
    -- With two object options there is no tag to choose by, so neither is chosen.
    match options.filterMap (fun option =>
      match unwrap option with
      | .object shape specOpen => some (shape, specOpen)
      | _ => none) with
    | [(shape, specOpen)] => .fields shape specOpen
    | _ => .whole
  | _ => .whole

/-- How an array is taken apart. -/
def descendArray (description : Description S) : Descent S :=
  match description with
  | .array element => .items element
  | .union options =>
    match options.findSome? (fun option =>
      match unwrap option with
      | .array element => some element
      | _ => none) with
    | some element => .items element
    | none => .whole
  | _ => .whole

/-- `result[key] = value` on an object literal.  Assigning to `__proto__`
makes no property. -/
def assign (key : String) (value : Json) (rest : List (String × Json)) : List (String × Json) :=
  if key = "__proto__" then rest else (key, value) :: rest

mutual

/-- What is kept of a value, with the paths of what was removed; nothing is
kept of a value that is unrecognisable where it stands. -/
def stripAgainst (path : String) : Json -> S -> Option (Json × List String)
  | .object members, schema =>
    match descendObject (unwrap schema) members with
    | .fields shape specOpen =>
      (stripFields path shape specOpen members).map fun result => (.object result.1, result.2)
    | .entries valueType =>
      let result := stripEntries path valueType members
      some (.object result.1, result.2)
    | .unrecognised => none
    | _ => some (.object members, [])
  | .array items, schema =>
    match descendArray (unwrap schema) with
    | .items element =>
      let result := stripItems path element 0 items
      some (.array result.1, result.2)
    | _ => some (.array items, [])
  | value, _ => some (value, [])

/-- The keys are the producer's, so only the shape's own fields are looked up. -/
def stripFields (path : String) (shape : List (String × S)) (specOpen : Bool) :
    List (String × Json) -> Option (List (String × Json) × List String)
  | [] => some ([], [])
  | (key, value) :: rest =>
    match stripFields path shape specOpen rest with
    | none => none
    | some (later, removed) =>
      match shape.lookup key with
      | none =>
        if specOpen then some (assign key value later, removed)
        else some (later, (path ++ "/" ++ key) :: removed)
      | some field =>
        match stripAgainst (path ++ "/" ++ key) value field with
        | some (child, inside) => some (assign key child later, inside ++ removed)
        | none =>
          -- In a required position the whole object is unrecognisable.
          if admitsUndefined field then some (later, (path ++ "/" ++ key) :: removed) else none

def stripItems (path : String) (element : S) (index : Nat) : List Json -> List Json × List String
  | [] => ([], [])
  | item :: rest =>
    let later := stripItems path element (index + 1) rest
    match stripAgainst (path ++ "/" ++ toString index) item element with
    | some (child, inside) => (child :: later.1, inside ++ later.2)
    | none => (later.1, (path ++ "/" ++ toString index) :: later.2)

def stripEntries (path : String) (valueType : S) :
    List (String × Json) -> List (String × Json) × List String
  | [] => ([], [])
  | (key, value) :: rest =>
    let later := stripEntries path valueType rest
    match stripAgainst (path ++ "/" ++ key) value valueType with
    | some (child, inside) => (assign key child later.1, inside ++ later.2)
    | none => (later.1, (path ++ "/" ++ key) :: later.2)

end

/-- Nothing is the internal error thrown for a value that is unrecognisable as a whole. -/
def stripUnknown (value : Json) (schema : S) : Option (Json × List String) :=
  stripAgainst "" value schema

end Enforce
end AgUi
