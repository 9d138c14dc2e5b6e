import Mathlib.Data.Rat.Defs
import AgUi.Enforce.Strip

namespace AgUi
namespace Enforce

open Library Protocol

/-!
# Schemas and their validation

The part of the schema language the generated validators are written in.
Every object is tolerant: `parse` keeps the properties it does not describe.
An undefined value is `none`, on either side of `parse`.
-/

/-- A position whose value is looked at as a whole. -/
inductive Leaf where
  | string
  | enum (values : List String)
  | literal (value : String)
  | boolean
  /-- `z.int().min(minimum).max(maximum)`. -/
  | integer (minimum maximum : Int)
  /-- `z.string().regex(…)` for a JSON Pointer. -/
  | jsonPointer
  /-- `z.custom` for an object that is not an array. -/
  | plainObject
  | any
  /-- `z.any().refine((value) => value !== null)`. -/
  | notNull
  /-- `z.any().refine((value) => value !== undefined)`. -/
  | defined

/-- What may follow the first slash of a JSON Pointer. -/
def pointerTokens : List Char -> Bool
  | [] => true
  | '~' :: '0' :: rest => pointerTokens rest
  | '~' :: '1' :: rest => pointerTokens rest
  | '~' :: _ => false
  | _ :: rest => pointerTokens rest

/-- `/^(\/([^/~]|~[01])*)*$/`. -/
def isJsonPointer (text : String) : Bool :=
  match text.toList with
  | [] => true
  | '/' :: rest => pointerTokens rest
  | _ => false

def Leaf.accepts (leaf : Leaf) (value : Option Json) : Bool :=
  match leaf, value with
  | any, _ => true
  | notNull, some .null => false
  | notNull, _ => true
  | defined, value => value.isSome
  | string, some (.string _) => true
  | enum values, some (.string text) => values.contains text
  | literal only, some (.string text) => text == only
  | boolean, some (.bool _) => true
  | integer minimum maximum, some (.number value) =>
    value.den == 1 && decide (minimum ≤ value.num) && decide (value.num ≤ maximum)
  | jsonPointer, some (.string text) => isJsonPointer text
  | plainObject, some (.object _) => true
  | _, _ => false

/-- The schemas the generator writes, with the wrappers of the validator. -/
inductive Schema where
  | leaf (kind : Leaf)
  | object (shape : List (String × Schema)) (specOpen : Bool)
  | array (element : Schema) (atLeast : Nat)
  | record (valueType : Schema)
  | discriminatedUnion (discriminator : String) (options : List Schema)
  | union (options : List Schema)
  | optional (inner : Schema)
  | nullable (inner : Schema)
  | default (inner : Schema) (value : Json)
  /-- `.transform((value) => value ?? undefined)`. -/
  | nullAsUndefined (inner : Schema)

namespace Schema

/-- What is left of a schema without its wrappers, as the stripper looks at it. -/
def unwrap : Schema -> Description Schema
  | leaf (.literal value) => .leaf (some value)
  | leaf _ => .leaf none
  | object shape specOpen => .object shape specOpen
  | array element _ => .array element
  | record valueType => .record valueType
  | discriminatedUnion discriminator options => .discriminatedUnion discriminator options
  | union options => .union options
  | optional inner => inner.unwrap
  | nullable inner => inner.unwrap
  | default inner _ => inner.unwrap
  | nullAsUndefined inner => inner.unwrap

/-- The tag an option of a discriminated union is chosen by. -/
def tag? (discriminator : String) : Schema -> Option String
  | object shape _ => (shape.lookup discriminator).bind fun field => field.unwrap.literal?
  | _ => none

mutual

/-- `schema.safeParse(value)`: nothing if the value is rejected. -/
def parse : Schema -> Option Json -> Option (Option Json)
  | leaf kind, value => if kind.accepts value then some value else none
  | object shape _, some (.object members) =>
    (parseFields shape members).map fun described =>
      some (.object (described ++ members.filter fun member => (shape.lookup member.1).isNone))
  | array element atLeast, some (.array items) =>
    if items.length < atLeast then none
    else
      (items.mapM fun item => (parse element (some item)).bind id).map fun items => some (.array items)
  | record valueType, some (.object members) =>
    (members.mapM fun member => ((parse valueType (some member.2)).bind id).map fun value =>
      (member.1, value)).map fun members => some (.object members)
  | discriminatedUnion discriminator options, some (.object members) =>
    parseTagged discriminator options members
  | union options, value => parseFirst options value
  | optional _, none => some none
  | optional inner, value => parse inner value
  | nullable _, some .null => some (some .null)
  | nullable inner, value => parse inner value
  | default _ value, none => some (some value)
  | default inner _, value => parse inner value
  | nullAsUndefined inner, value =>
    (parse inner value).map fun parsed =>
      match parsed with
      | some .null => none
      | parsed => parsed
  | _, _ => none

/-- The described properties, in the order of the shape. -/
def parseFields : List (String × Schema) -> List (String × Json) -> Option (List (String × Json))
  | [], _ => some []
  | (key, field) :: rest, members =>
    match parse field (members.lookup key) with
    | none => none
    | some none => parseFields rest members
    | some (some value) => (parseFields rest members).map fun later => (key, value) :: later

/-- The alternative is the one whose tag the value has. -/
def parseTagged (discriminator : String) :
    List Schema -> List (String × Json) -> Option (Option Json)
  | [], _ => none
  | option :: rest, members =>
    if literalIs (option.tag? discriminator) (members.lookup discriminator) then
      parse option (some (.object members))
    else parseTagged discriminator rest members

/-- The first alternative that accepts the value. -/
def parseFirst : List Schema -> Option Json -> Option (Option Json)
  | [], _ => none
  | option :: rest, value =>
    match parse option value with
    | some parsed => some parsed
    | none => parseFirst rest value

end

instance : Schematic Schema where
  unwrap := unwrap
  admitsUndefined schema := (schema.parse none).isSome

end Schema

end Enforce
end AgUi
