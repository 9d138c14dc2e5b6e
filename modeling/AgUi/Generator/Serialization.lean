import AgUi.Generator.Wire
import AgUi.Protocol.Values

namespace AgUi
namespace Generator

open Library Protocol

/-!
# Omitting optional nulls

`emitSerialization` computes the shapes of the definitions and writes them
into a module.  `omitOptionalNulls` of that module walks a value along them.

A recursion takes a bound on its depth, as in the wire model.  The walk tells
an object that is left alone from a copy of it by comparing references; here
it returns either the argument itself or a value that is new.
-/

/-! ## Shapes -/

/-- What of a value may hold optional nulls. -/
inductive Shape where
  | named (name : String)
  | array (items : Shape)
  | object (optional : List String) (fields : List (String × Shape))
  | variants (discriminator : String) (variants : List (String × String))

abbrev Shapes := OrderedMap String Shape

def spelled (name : Text) : String :=
  String.ofList name

/-- What an entry of the emitted literal gives.  Its key `__proto__` sets a
prototype there; it becomes no property. -/
def literalEntries {A : Type} (entries : List (String × A)) : List (String × A) :=
  (OrderedMap.ofList entries).entries.filter fun entry => entry.1 != "__proto__"

def readingUndefined : GenerateError :=
  .error "Cannot read properties of undefined (reading 'kind')"

variable (definitions : Definitions)

/-- Whether a member without a shape is no object and no array. -/
def isScalar : Nat -> TypeExpr -> Except GenerateError Bool
  | 0, _ => .error .unbounded
  | depth + 1, .ref name =>
    match definitions.get? name with
    | none => .error readingUndefined
    | some (.enum _) => .ok true
    | some (.alias target) => isScalar depth target.type
    | some _ => .ok false
  | _ + 1, .string => .ok true
  | _ + 1, .integer => .ok true
  | _ + 1, .boolean => .ok true
  | _ + 1, .literal _ => .ok true
  | _ + 1, .stringEnum => .ok true
  | _ + 1, _ => .ok false

def structuredUnion : GenerateError :=
  .error "Optional-null serialization requires a discriminator for structured unions"

/-- The one arm of an inline union that can be walked, if there is one. -/
def armOf (depth : Nat) (members : List (TypeExpr × Option Shape)) : Except GenerateError (Option Shape) :=
  match members.filterMap Prod.snd with
  | [] => .ok none
  | [.named _] => .error structuredUnion
  | [arm] => do
      let guessed <- members.anyM fun member =>
        if member.2.isNone then (isScalar definitions depth member.1).map not else .ok false
      if guessed then .error structuredUnion else .ok (some arm)
  | _ => .error structuredUnion

/-- The shape of a type, if there is anything in it to look at.  The fuel bounds the references followed. -/
def shapeOfType : Nat -> TypeExpr -> Except GenerateError (Option Shape)
  | 0, _ => .error .unbounded
  | depth + 1, .ref name =>
    match definitions.get? name with
    | none => .error readingUndefined
    | some (.alias definition) => shapeOfType depth definition.type
    | some (.enum _) => .ok none
    | some _ => .ok (some (.named (spelled name)))
  | depth + 1, .array items => (shapeOfType depth items).map fun shape => shape.map Shape.array
  | depth + 1, .union members => do
      let shapes <- members.mapM fun member => shapeOfType depth member
      armOf definitions depth (members.zip shapes)
  | _ + 1, _ => .ok none

/-- The variant of a union that a member names by its discriminator literal. -/
def variantOf (discriminator : Text) (name : Text) : Except GenerateError (String × String) :=
  match definitions.get? name with
  | none => .error readingUndefined
  | some (.object member) =>
    match (member.fields.find? fun field => field.name = discriminator).map Field.type with
    | some (.literal value) => .ok (spelled value, spelled name)
    | _ => .error (.error (name ++ (": missing discriminator literal" : Text)))
  | some _ => .error (.error (name ++ (": missing discriminator literal" : Text)))

def shapeOfField (depth : Nat) (field : Field) : Except GenerateError (Option (String × Shape)) :=
  (shapeOfType definitions depth field.type).map fun shape => shape.map fun shape => (spelled field.name, shape)

/-- An object has the shapes of its fields, and its optional fields by name. -/
def shapeOfDefinition (depth : Nat) : Definition -> Except GenerateError (Option Shape)
  | .object definition => do
      let fields <- definition.fields.mapM (shapeOfField definitions depth)
      .ok (some (.object ((definition.fields.filter fun field => !field.required).map fun field => spelled field.name)
        (literalEntries (fields.filterMap id))))
  | .union definition =>
    match definition.discriminator with
    | none | some [] =>
      .error (.error (definition.name ++ (": optional-null serialization requires a discriminator" : Text)))
    | some discriminator => do
        let variants <- definition.members.mapM (variantOf definitions discriminator)
        .ok (some (.variants (spelled discriminator) (literalEntries variants)))
  | _ => .ok none

def ProtocolModel.defs (model : ProtocolModel) : Definitions :=
  OrderedMap.ofList (model.definitions.map fun definition => (definition.name, definition))

/-- The table of the emitted module.  A definition named `__proto__` becomes
its prototype, where a read of that name finds it as well. -/
def emitSerialization (depth : Nat) (model : ProtocolModel) : Except GenerateError Shapes := do
  let entries <- model.definitions.mapM fun definition => do
    let shape <- shapeOfDefinition model.defs depth definition
    .ok (shape.map fun shape => (spelled definition.name, shape))
  .ok (OrderedMap.ofList (entries.filterMap id))

/-! ## The walk -/

/-- What a walk hands back: its argument, or a value that is not it. -/
inductive Returned where
  | argument
  | fresh (value : Json)

def Returned.value (argument : Json) : Returned -> Json
  | .argument => argument
  | .fresh value => value

def Returned.isArgument : Returned -> Bool
  | .argument => true
  | .fresh _ => false

/-- `{ ...object }` is made before the first change; later changes are to it. -/
abbrev Copy := Option (List (String × Json))

/-- The first loop: optional properties that are null are deleted. -/
def deleteNulls (members : List (String × Json)) : List String -> Copy -> Copy
  | [], copy => copy
  | key :: rest, copy =>
    if (members.lookup key).any Json.isNull then
      deleteNulls members rest (some ((copy.getD members).filter fun member => member.1 != key))
    else deleteNulls members rest copy

/-- The second loop: what the shape describes below a property. -/
def walkFields (walk : Json -> Shape -> Except GenerateError Returned) (members : List (String × Json)) :
    List (String × Shape) -> Copy -> Except GenerateError Copy
  | [], copy => .ok copy
  | (key, child) :: rest, copy =>
    match (copy.getD members).lookup key with
    | none => walkFields walk members rest copy
    | some value => do
        match <- walk value child with
        | .argument => walkFields walk members rest copy
        | .fresh next => walkFields walk members rest (some (OrderedMap.setEntries key next (copy.getD members)))

def inUndefined : GenerateError :=
  .error "Cannot use 'in' operator to search for 'array' in undefined"

/-- `omit` -/
def omitNulls (shapes : Shapes) : Nat -> Json -> Shape -> Except GenerateError Returned
  | 0, _, _ => .error .unbounded
  | depth + 1, value, .named name =>
    match shapes.get? name with
    | none => .error inUndefined
    | some shape => omitNulls shapes depth value shape
  | depth + 1, .array items, .array shape => do
      let results <- items.mapM fun item => omitNulls shapes depth item shape
      if results.all Returned.isArgument then .ok .argument
      else .ok (.fresh (.array (List.zipWith Returned.value items results)))
  | _ + 1, _, .array _ => .ok .argument
  | depth + 1, .object members, .variants discriminator variants =>
    match members.lookup discriminator with
    | some (.string tag) =>
      match variants.lookup tag with
      | some name => omitNulls shapes depth (.object members) (.named name)
      | none => .ok .argument
    | _ => .ok .argument
  | depth + 1, .object members, .object optional fields => do
      match <- walkFields (omitNulls shapes depth) members fields (deleteNulls members optional none) with
      | none => .ok .argument
      | some copy => .ok (.fresh (.object copy))
  | _ + 1, _, _ => .ok .argument

inductive Root where
  | event
  | runAgentInput
deriving DecidableEq

def Root.name : Root -> Text
  | event => "Event"
  | runAgentInput => "RunAgentInput"

/-- The value without the nulls of its optional fields. -/
def omitOptionalNulls (shapes : Shapes) (depth : Nat) (value : Json) (root : Root) : Except GenerateError Returned :=
  omitNulls shapes depth value (.named (spelled root.name))

end Generator
end AgUi
