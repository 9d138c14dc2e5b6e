import AgUi.Library.DepthFirst
import AgUi.Protocol.Values

namespace AgUi
namespace A2uiToolkit

open Library Protocol

/-!
# Validation of component trees

The Python validator, a port of the TypeScript one.  It reads a flat array of
components that refer to each other by id, and lists what is wrong with it.
`none` stands for an exception: a catalog that is not one of component schemas
can make the validator raise.

What `int` makes of a text and `str` of a value is Python's own and stays a
parameter.
-/

/-! ## References -/

def textMember? (value : Json) (key : String) : Option String :=
  (value.member? key).bind Json.asString?

/-- `value.get(key)` of a dictionary, an absent key reading as `None`. -/
def memberOrNone (value : Json) (key : String) : Json :=
  (value.member? key).getD .null

/-- A reference is a bare id or an object with a `componentId`; anything else is none. -/
def pushRef : Json -> List String
  | .string ref => [ref]
  | value => (textMember? value "componentId").toList

/-- The ids a value refers to, whether it is one reference or a list of them. -/
def collectChildRefs : Json -> List String
  | .array items => items.flatMap pushRef
  | value => pushRef value

/-- Each reference with the path of the field it stands in. -/
def pushSingle (field : String) (value : Json) : List (String × String) :=
  (collectChildRefs value).map fun ref => (field, ref)

def pushList (field : String) : Json -> List (String × String)
  | .array items =>
    items.zipIdx.flatMap fun entry => pushSingle (field ++ "[" ++ toString entry.2 ++ "]") entry.1
  | value => pushSingle field value

/-- The references of a field whose schema marks it. -/
def markedEdges (field : String) (schema value : Json) : List (String × String) :=
  if textMember? schema "format" = some "componentRef" then pushSingle field value
  else if textMember? schema "format" = some "componentRefList" then pushList field value
  else []

/-- The marked fields of one element of an array of objects. -/
def itemEdges (field : String) (itemProps : List (String × Json)) (k : Nat) (item : Json) : List (String × String) :=
  if item.isObject then
    itemProps.flatMap fun entry =>
      if entry.2.isObject then
        markedEdges (field ++ "[" ++ toString k ++ "]." ++ entry.1) entry.2 (memberOrNone item entry.1)
      else []
  else []

def arrayEdges (field : String) (propSchema value : Json) : List (String × String) :=
  match memberOrNone (memberOrNone propSchema "items") "properties", value with
  | .object itemProps, .array items => items.zipIdx.flatMap fun entry => itemEdges field itemProps entry.2 entry.1
  | _, _ => []

/-- The references of a field the catalog describes; the implicit ones are collected apart. -/
def propEdges (comp : Json) (field : String) (propSchema : Json) : List (String × String) :=
  if field = "child" ∨ field = "children" ∨ propSchema.isObject = false then []
  else if textMember? propSchema "format" = some "componentRef" ∨
      textMember? propSchema "format" = some "componentRefList" then
    markedEdges field propSchema (memberOrNone comp field)
  else if textMember? propSchema "type" = some "array" then arrayEdges field propSchema (memberOrNone comp field)
  else []

/-- What a component refers to, each with the path of the reference. -/
def collectComponentRefEdges (comp schema : Json) : List (String × String) :=
  pushSingle "child" (memberOrNone comp "child") ++ pushList "children" (memberOrNone comp "children") ++
    match memberOrNone schema "properties" with
    | .object props => props.flatMap fun entry => propEdges comp entry.1 entry.2
    | _ => []

/-! ## The catalog -/

abbrev Catalog := List (String × Json)

/-- An empty catalog counts as none. -/
def catalogComponents : Option Catalog -> Json
  | some (entry :: rest) => (List.lookup "components" (entry :: rest)).getD (.object [])
  | _ => .object []

/-- `value.get(key)`, which raises on what is no dictionary. -/
def get (value : Json) (key : String) : Option Json :=
  match value with
  | .object members => some ((members.lookup key).getD .null)
  | _ => none

/-- The schema of a component's type.  Looking it up raises where the catalog is no dictionary. -/
def schemaOf (catalog : Option Catalog) (comp : Json) : Option Json :=
  match textMember? comp "component" with
  | some ctype => get (catalogComponents catalog) ctype
  | none => some .null

/-! ## Cycles of references -/

def refsOf (comp schema : Json) : List String :=
  (collectComponentRefEdges comp schema).map Prod.snd

def adjoin (catalog : Option Catalog) (adj : OrderedMap String (List String)) (comp : Json) :
    Option (OrderedMap String (List String)) :=
  match textMember? comp "id" with
  | some id => (schemaOf catalog comp).map fun schema => adj.set id (refsOf comp schema)
  | none => some adj

/-- Which component refers to which. -/
def childAdjacency (components : List Json) (catalog : Option Catalog) : Option (OrderedMap String (List String)) :=
  components.foldlM (adjoin catalog) .empty

/-- The place of the smallest id; of equal ones the first. -/
def smallestFrom (best : Nat) (least : String) : Nat -> List String -> Nat
  | _, [] => best
  | place, node :: rest =>
    if node < least then smallestFrom place node (place + 1) rest else smallestFrom best least (place + 1) rest

def smallest : List String -> Nat
  | [] => 0
  | node :: rest => smallestFrom 0 node 1 rest

/-- The cycle turned so that its smallest id leads. -/
def canonical (nodes : List String) : List String :=
  nodes.drop (smallest nodes) ++ nodes.take (smallest nodes)

/-- A cycle is kept under the text of its rotation, so that it is kept once. -/
def recordCycle (cycles : OrderedMap String (List String)) (path : List String) : OrderedMap String (List String) :=
  let cycle := canonical path
  let key := " ".intercalate cycle
  if cycles.has key then cycles else cycles.set key cycle

def neighbors (adj : OrderedMap String (List String)) (node : String) : List String :=
  (adj.get? node).getD []

/-- Every id that has references or is referred to. -/
def nodesOf (adj : OrderedMap String (List String)) : List String :=
  adj.keys ++ adj.entries.flatMap Prod.snd

/-- The search from every id, with a bound on the turns of its loop. -/
def searchCycles (adj : OrderedMap String (List String)) : Option (List (List String)) :=
  (DepthFirst.searchAll (neighbors adj) recordCycle (DepthFirst.enough (neighbors adj) (nodesOf adj)) adj.keys
    .empty).map fun search => search.found.entries.map Prod.snd

/-- The cycles of references, in the order the search closes them. -/
def findChildCycles (components : List Json) (catalog : Option Catalog) : Option (List (List String)) :=
  (childAdjacency components catalog).bind searchCycles

/-! ## Bindings -/

mutual

/-- The absolute paths bound anywhere in a value. -/
def collectAbsoluteBindingPaths : Json -> List String
  | .array items => bindingPathsOfItems items
  | .object members =>
    (((members.lookup "path").bind Json.asString?).filter fun path => path.startsWith "/").toList ++
      bindingPathsOfMembers members
  | _ => []

def bindingPathsOfItems : List Json -> List String
  | [] => []
  | item :: rest => collectAbsoluteBindingPaths item ++ bindingPathsOfItems rest

def bindingPathsOfMembers : List (String × Json) -> List String
  | [] => []
  | (key, value) :: rest =>
    (if key = "path" then [] else collectAbsoluteBindingPaths value) ++ bindingPathsOfMembers rest

end

section

variable (int : String -> Option Int) (str : Json -> String)

/-- The segments lead to a place of the data; a negative index leads to none. -/
def segmentsResolve : List String -> Json -> Bool
  | [], _ => true
  | segment :: rest, .array items =>
    match int segment with
    | none => false
    | some index =>
      if index < 0 then false
      else match items[index.toNat]? with
        | none => false
        | some item => segmentsResolve rest item
  | segment :: rest, .object members =>
    match members.lookup segment with
    | none => false
    | some value => segmentsResolve rest value
  | _ :: _, _ => false

def absolutePathResolves (path : String) (data : Json) : Bool :=
  segmentsResolve int ((path.splitOn "/").filter fun segment => segment ≠ "") data

/-! ## Errors -/

structure A2UIValidationError where
  code : String
  path : String
  message : String
deriving DecidableEq

structure ValidateA2UIResult where
  valid : Bool
  errors : List A2UIValidationError

def emptyComponents : A2UIValidationError :=
  { code := "empty_components", path := "components", message := "A2UI components must be a non-empty array" }

def duplicateId (cid : String) : A2UIValidationError :=
  { code := "duplicate_id", path := "components[id=" ++ cid ++ "]",
    message := "Duplicate component id '" ++ cid ++ "'" }

def indexPath (i : Nat) (field : String) : String :=
  "components[" ++ toString i ++ "]" ++ field

def missingId (i : Nat) : A2UIValidationError :=
  { code := "missing_id", path := indexPath i ".id"
    message := "Component at index " ++ toString i ++ " is missing a string 'id'" }

def missingComponentType (i : Nat) : A2UIValidationError :=
  { code := "missing_component_type", path := indexPath i ".component"
    message := "Component at index " ++ toString i ++ " is missing a string 'component' type" }

def unknownComponent (i : Nat) (ctype : String) : A2UIValidationError :=
  { code := "unknown_component", path := indexPath i ".component"
    message := "Component type '" ++ ctype ++ "' is not in the catalog" }

def missingRequiredProp (i : Nat) (ctype req : String) : A2UIValidationError :=
  { code := "missing_required_prop", path := indexPath i ("." ++ req)
    message := "Component '" ++ ctype ++ "' (index " ++ toString i ++ ") is missing required prop '" ++ req ++ "'" }

def unresolvedChild (i : Nat) (refPath ref : String) : A2UIValidationError :=
  { code := "unresolved_child", path := indexPath i ("." ++ refPath)
    message := "Child reference '" ++ ref ++ "' does not match any component id" }

def unresolvedBinding (i : Nat) (path : String) : A2UIValidationError :=
  { code := "unresolved_binding", path := indexPath i ""
    message := "Binding path '" ++ path ++ "' does not resolve in the data model" }

def childCycle (cycle : List String) : A2UIValidationError :=
  { code := "child_cycle", path := "components[id=" ++ cycle.headD "" ++ "]"
    message := "Child reference cycle detected: " ++ " -> ".intercalate (cycle ++ cycle.head?.toList) }

def noRoot : A2UIValidationError :=
  { code := "no_root", path := "components", message := "No component has id 'root'" }

/-! ## Checks -/

def idsOf (components : List Json) : List String :=
  components.filterMap fun comp => textMember? comp "id"

/-- One finding for every id that has stood before. -/
def duplicateErrors : List String -> List String -> List A2UIValidationError
  | _, [] => []
  | seen, cid :: rest => (if cid ∈ seen then [duplicateId cid] else []) ++ duplicateErrors (cid :: seen) rest

/-- What a `for` goes through, which raises on what cannot be gone through; a falsy value counts as the empty list. -/
def iterate : Json -> Option (List Json)
  | .null => some []
  | .bool value => if value then none else some []
  | .number value => if value = 0 then some [] else none
  | .string text => some (text.toList.map fun c => .string (String.singleton c))
  | .array items => some items
  | .object members => some (members.map fun entry => .string entry.1)

/-- A list or a dictionary is no key: to look it up raises. -/
def requiredErrors (i : Nat) (ctype : String) (comp req : Json) : Option (List A2UIValidationError) :=
  match req with
  | .array _ => none
  | .object _ => none
  | .string name => some (if (comp.member? name).isSome then [] else [missingRequiredProp i ctype name])
  | req => some [missingRequiredProp i ctype (str req)]

/-- A type without a schema is unknown; otherwise the properties it requires are looked for. -/
def schemaErrors (i : Nat) (ctype : String) (comp schema : Json) : Option (List A2UIValidationError) :=
  if schema.isNull then some [unknownComponent i ctype]
  else do
    let required <- get schema "required"
    let reqs <- iterate required
    let errors <- reqs.mapM (requiredErrors str i ctype comp)
    some errors.flatten

/-- An empty catalog checks nothing. -/
def catalogErrors (catalog : Option Catalog) (i : Nat) (comp : Json) : Option (List A2UIValidationError) :=
  match textMember? comp "component" with
  | none => some []
  | some ctype =>
    if (catalog.getD []).isEmpty then some []
    else (schemaOf catalog comp).bind fun schema => schemaErrors str i ctype comp schema

/-- A component is to have an id and a type, neither of them empty. -/
def identityErrors (i : Nat) (comp : Json) : List A2UIValidationError :=
  (if (textMember? comp "id").getD "" = "" then [missingId i] else []) ++
    if (textMember? comp "component").getD "" = "" then [missingComponentType i] else []

/-- References to no component. -/
def refErrors (ids : List String) (i : Nat) (comp schema : Json) : List A2UIValidationError :=
  ((collectComponentRefEdges comp schema).filter fun edge => edge.2 ∉ ids).map fun edge =>
    unresolvedChild i edge.1 edge.2

/-- Bindings that lead to no place of the data model. -/
def bindingErrors (data : Json) (i : Nat) (comp : Json) : List A2UIValidationError :=
  ((collectAbsoluteBindingPaths comp).filter fun path => !absolutePathResolves int path data).map (unresolvedBinding i)

def componentErrors (ids : List String) (data : Option (List (String × Json))) (catalog : Option Catalog)
    (validateBindings : Bool) (i : Nat) (comp : Json) : Option (List A2UIValidationError) := do
  let ofCatalog <- catalogErrors str catalog i comp
  let schema <- schemaOf catalog comp
  let ofRefs := if comp.isObject then refErrors ids i comp schema else []
  let ofBindings := if comp.isObject && validateBindings then bindingErrors int (.object (data.getD [])) i comp else []
  some (identityErrors i comp ++ ofCatalog ++ ofRefs ++ ofBindings)

/-- All findings, in the order of the checks. -/
def validateComponents (components : List Json) (data : Option (List (String × Json))) (catalog : Option Catalog)
    (validateBindings : Bool) : Option (List A2UIValidationError) := do
  let ids := idsOf components
  let ofComponents <- components.zipIdx.mapM fun entry =>
    componentErrors int str ids data catalog validateBindings entry.2 entry.1
  let cycles <- findChildCycles components catalog
  some (duplicateErrors [] ids ++ ofComponents.flatten ++ cycles.map childCycle ++
    if "root" ∈ ids then [] else [noRoot])

/-- `validate_a2ui_components`; it raises where the catalog cannot be read. -/
def validateA2UIComponents (components : Json) (data : Option (List (String × Json))) (catalog : Option Catalog)
    (validateBindings : Bool) : Option ValidateA2UIResult :=
  match components with
  | .array (comp :: rest) =>
    (validateComponents int str (comp :: rest) data catalog validateBindings).map fun errors =>
      { valid := errors.isEmpty, errors }
  | _ => some { valid := false, errors := [emptyComponents] }

end

end A2uiToolkit
end AgUi
