import AgUi.Library.DepthFirstSweep
import AgUi.A2uiToolkit.Validate

namespace AgUi
namespace A2uiToolkit

open Library Protocol

/-!
# The .NET validator of component trees

`A2UIComponentValidator`, written apart from the Python one and said to mirror
it.  Its errors are the same records.  It never raises: a catalog is a
dictionary of component schemas by type, and what has not the form it looks
for is passed over.

What `int.TryParse` makes of a text stays a parameter.
-/

namespace A2UIComponentValidator

/-! ## References -/

/-- A bare id, or the `componentId` of a template. -/
def refId : Json -> Option String
  | .string text => some text
  | value => textMember? value "componentId"

def addSingle (path : String) (value : Json) : List (String × String) :=
  (refId value).toList.map fun id => (path, id)

/-! The places a component may refer from, with what is made of the value at each. -/

section Places

variable {A : Type} (single : String -> Json -> List A)

/-- The places of a list one by one; a value that is no list is one place. -/
def placesOfList (path : String) : Json -> List A
  | .array items => items.zipIdx.flatMap fun entry => single (path ++ "[" ++ toString entry.2 ++ "]") entry.1
  | value => single path value

/-- The switch over the format of a schema. -/
def placesMarked (path : String) (schema value : Json) : List A :=
  if textMember? schema "format" = some "componentRef" then single path value
  else if textMember? schema "format" = some "componentRefList" then placesOfList single path value
  else []

def placesOfElement (name : String) (itemProperties : List (String × Json)) (k : Nat) (element : Json) : List A :=
  if element.isObject then
    itemProperties.flatMap fun entry =>
      if entry.2.isObject then
        placesMarked single (name ++ "[" ++ toString k ++ "]." ++ entry.1) entry.2 (memberOrNone element entry.1)
      else []
  else []

/-- The elements of an array whose item schema has properties. -/
def placesOfElements (name : String) (propertySchema value : Json) : List A :=
  match memberOrNone (memberOrNone propertySchema "items") "properties", value with
  | .object itemProperties, .array elements =>
    elements.zipIdx.flatMap fun entry => placesOfElement single name itemProperties entry.2 entry.1
  | _, _ => []

/-- A property the catalog marks, or an array whose elements may have marked ones. -/
def placesOfProperty (component : Json) (name : String) (propertySchema : Json) : List A :=
  if name = "child" ∨ name = "children" ∨ propertySchema.isObject = false then []
  else if textMember? propertySchema "format" = some "componentRef" ∨
      textMember? propertySchema "format" = some "componentRefList" then
    placesMarked single name propertySchema (memberOrNone component name)
  else if textMember? propertySchema "type" = some "array" then
    placesOfElements single name propertySchema (memberOrNone component name)
  else []

/-- Every place of a component where a reference may stand. -/
def placesOfComponent (component schema : Json) : List A :=
  single "child" (memberOrNone component "child") ++
    placesOfList single "children" (memberOrNone component "children") ++
    match memberOrNone schema "properties" with
    | .object properties => properties.flatMap fun entry => placesOfProperty single component entry.1 entry.2
    | _ => []

end Places

def collectComponentRefEdges (component schema : Json) : List (String × String) :=
  placesOfComponent addSingle component schema

/-! ## The catalog -/

abbrev Components := List (String × Json)

/-- The schema of a component's type, if the catalog has an object for it. -/
def componentSchema (catalog : Option Components) (component : Json) : Json :=
  match catalog, textMember? component "component" with
  | some components, some componentType =>
    ((components.lookup componentType).filter Json.isObject).getD .null
  | _, _ => .null

/-! ## Cycles of references -/

/-- Where two components have one id, the later one's references stand. -/
def buildChildAdjacency (components : List Json) (catalog : Option Components) : OrderedMap String (List String) :=
  components.foldl (fun adjacency component =>
    match textMember? component "id" with
    | some id =>
      adjacency.set id ((collectComponentRefEdges component (componentSchema catalog component)).map Prod.snd)
    | none => adjacency) .empty

/-- The code units of a text. -/
def codeUnits (text : String) : List Nat :=
  text.toList.flatMap fun c =>
    if c.toNat < 0x10000 then [c.toNat]
    else [0xD800 + (c.toNat - 0x10000) / 0x400, 0xDC00 + (c.toNat - 0x10000) % 0x400]

/-- `string.CompareOrdinal(left, right) < 0`. -/
def ordinalBefore (left right : String) : Bool :=
  decide (codeUnits left < codeUnits right)

def leastFrom (best : Nat) (least : String) : Nat -> List String -> Nat
  | _, [] => best
  | place, node :: rest =>
    if ordinalBefore node least then leastFrom place node (place + 1) rest else leastFrom best least (place + 1) rest

def least : List String -> Nat
  | [] => 0
  | node :: rest => leastFrom 0 node 1 rest

/-- The cycle, begun at the first id in ordinal order. -/
def canonicalize (nodes : List String) : List String :=
  nodes.drop (least nodes) ++ nodes.take (least nodes)

/-- The keys that were seen, and the cycles found. -/
structure Found where
  seenKeys : OrderedSet String := OrderedMap.empty
  cycles : List (List String) := []

/-- A cycle is reported once, wherever on it the search came in. -/
def recordLoop (found : Found) (path : List String) : Found :=
  let cycle := canonicalize path
  let key := " ".intercalate cycle
  if found.seenKeys.has key then found
  else { seenKeys := found.seenKeys.add key, cycles := found.cycles ++ [cycle] }

/-- The search from every id.  A frame is swept down to the first neighbor that is new. -/
def findChildCycles (components : List Json) (catalog : Option Components) : Option (List (List String)) :=
  let adjacency := buildChildAdjacency components catalog
  (DepthFirst.sweepAll (neighbors adjacency) recordLoop (DepthFirst.enough (neighbors adjacency) (nodesOf adjacency))
    adjacency.keys {}).map fun search => search.found.cycles

/-! ## Bindings -/

section

variable (tryParse : String -> Option Int)

/-- Empty segments are passed over, and an array wants an index in its bounds. -/
def pathResolves : List String -> Json -> Bool
  | [], _ => true
  | segment :: rest, cursor =>
    if segment = "" then pathResolves rest cursor
    else
      match cursor with
      | .array items =>
        match tryParse segment with
        | none => false
        | some index =>
          if index < 0 then false
          else match items[index.toNat]? with
            | none => false
            | some item => pathResolves rest item
      | .object members =>
        match members.lookup segment with
        | none => false
        | some value => pathResolves rest value
      | _ => false

def absolutePathResolves (path : String) (data : Option (List (String × Json))) : Bool :=
  pathResolves tryParse (path.splitOn "/") ((data.map Json.object).getD .null)

/-! ## Checks -/

/-- The ids that count: an empty one is only reported as missing. -/
def usableIds (components : List Json) : List String :=
  (idsOf components).filter fun id => id ≠ ""

/-- Only a list of required names is looked at, and of it only the texts. -/
def requiredErrors (i : Nat) (componentType : String) (component : Json) : Json -> List A2UIValidationError
  | .array required =>
    (required.filterMap Json.asString?).flatMap fun requiredProp =>
      if (component.member? requiredProp).isSome then [] else [missingRequiredProp i componentType requiredProp]
  | _ => []

/-- A component whose type has no object for a schema is unknown. -/
def catalogErrors (catalog : Option Components) (i : Nat) (component : Json) : List A2UIValidationError :=
  match catalog, textMember? component "component" with
  | some _, some componentType =>
    let schema := componentSchema catalog component
    if schema.isObject then requiredErrors i componentType component (memberOrNone schema "required")
    else [unknownComponent i componentType]
  | _, _ => []

def refErrors (catalog : Option Components) (ids : List String) (i : Nat) (component : Json) :
    List A2UIValidationError :=
  ((collectComponentRefEdges component (componentSchema catalog component)).filter fun edge => edge.2 ∉ ids).map
    fun edge => unresolvedChild i edge.1 edge.2

def bindingErrors (data : Option (List (String × Json))) (i : Nat) (component : Json) : List A2UIValidationError :=
  ((collectAbsoluteBindingPaths component).filter fun path => !absolutePathResolves tryParse path data).map
    (unresolvedBinding i)

def componentErrors (ids : List String) (data : Option (List (String × Json))) (catalog : Option Components)
    (validateBindings : Bool) (i : Nat) (component : Json) : List A2UIValidationError :=
  identityErrors i component ++ catalogErrors catalog i component ++
    (if component.isObject then refErrors catalog ids i component else []) ++
    if component.isObject && validateBindings then bindingErrors tryParse data i component else []

/-- None is a search that does not end. -/
def validate (components : List Json) (data : Option (List (String × Json))) (catalog : Option Components)
    (validateBindings : Bool) : Option ValidateA2UIResult :=
  if components.isEmpty then some { valid := false, errors := [emptyComponents] }
  else
    (findChildCycles components catalog).map fun cycles =>
      let ids := usableIds components
      let errors := duplicateErrors [] ids ++
        (components.zipIdx.flatMap fun entry =>
          componentErrors tryParse ids data catalog validateBindings entry.2 entry.1) ++
        cycles.map childCycle ++ if "root" ∈ idsOf components then [] else [noRoot]
      { valid := errors.isEmpty, errors }

end

end A2UIComponentValidator

end A2uiToolkit
end AgUi
