import AgUi.Generator.Freeze

namespace AgUi
namespace Generator

open Library

/-!
# The wire model

`buildWireModel` reads a schema model and a freeze and says what the binary
transport looks like: its enums, its messages, the number of every slot, and
the numbers each of them reserves.  The walk starts at the events.  What it
reaches is emitted by strategy.

A failure ends a generation, and nothing is written.  Recursion through the
schema takes a bound on its depth; where the source would go round a chain of
aliases without end, every bound is exceeded.

The case mappings of the language are a parameter, on which nothing rests.
-/

/-- The case mappings of JavaScript. -/
class Casing where
  toLowerCase : Text -> Text
  toUpperCase : Text -> Text

/-! ## The schema model -/

/-- The types of the schema. -/
inductive TypeExpr where
  | string
  | integer
  | boolean
  | literal (value : Text)
  | any
  | openMap
  | ref (name : Text)
  | stringEnum
  | array (items : TypeExpr)
  | union (members : List TypeExpr)

namespace TypeExpr

def kind : TypeExpr -> Text
  | string => "string"
  | integer => "integer"
  | boolean => "boolean"
  | literal _ => "literal"
  | any => "any"
  | openMap => "openMap"
  | ref _ => "ref"
  | stringEnum => "stringEnum"
  | array _ => "array"
  | union _ => "union"

def isUnion : TypeExpr -> Bool
  | union _ => true
  | _ => false

end TypeExpr

structure Field where
  name : Text
  description : Text
  required : Bool
  type : TypeExpr

structure ObjectDefinition where
  name : Text
  description : Text
  fields : List Field

structure UnionDefinition where
  name : Text
  description : Text
  members : List Text
  discriminator : Option Text := none

structure EnumDefinition where
  name : Text
  description : Text
  values : List Text

structure AliasDefinition where
  name : Text
  description : Text
  type : TypeExpr

inductive Definition where
  | object (definition : ObjectDefinition)
  | union (definition : UnionDefinition)
  | enum (definition : EnumDefinition)
  | alias (definition : AliasDefinition)

def Definition.name : Definition -> Text
  | object definition => definition.name
  | union definition => definition.name
  | enum definition => definition.name
  | «alias» definition => definition.name

/-- The schema as it is read: its definitions, and the shapes that events share. -/
structure ProtocolModel where
  schemaId : Text
  definitions : List Definition
  mixinShapes : List ObjectDefinition

abbrev Definitions := OrderedMap Text Definition

/-! ## Tables -/

section Tables

variable [Casing]

/-- A schema field name in the spelling of the transport. -/
def snakeCase (name : Text) : Text :=
  match Casing.toLowerCase (name.flatMap fun char => if char.isUpper then ['_', char] else [char]) with
  | '_' :: rest => rest
  | spelled => spelled

/-- `PROTO_NAME` -/
def protoNames : List (Text × Text) :=
  [("TokenUsage", "Usage"),
    ("ContentPart", "InputContent"),
    ("TextPart", "TextInputPart"),
    ("ImagePart", "ImageInputPart"),
    ("AudioPart", "AudioInputPart"),
    ("VideoPart", "VideoInputPart"),
    ("DocumentPart", "DocumentInputPart"),
    ("PartSource", "InputContentSource"),
    ("DataSource", "InputContentDataSource"),
    ("UrlSource", "InputContentUrlSource"),
    ("FileSource", "InputContentFileSource")]

/-- The name of a definition on the wire. -/
def protoName (definitionName : Text) : Text :=
  (protoNames.lookup definitionName).getD definitionName

/-- What becomes of a union on the wire. -/
inductive Strategy where
  | envelope
  | merge
  | oneof
  | flatten
  | tagged
deriving DecidableEq

def Strategy.text : Strategy -> Text
  | envelope => "envelope"
  | merge => "merge"
  | oneof => "oneof"
  | flatten => "flatten"
  | tagged => "tagged"

/-- `UNION_STRATEGY` -/
def unionStrategies : List (Text × Strategy) :=
  [("Event", .envelope),
    ("Message", .merge),
    ("ContentPart", .oneof),
    ("PartSource", .oneof),
    ("RunFinishedOutcome", .flatten),
    ("SubagentFinishedOutcome", .flatten),
    ("JsonPatchOperation", .tagged)]

/-- `MERGE_SPLIT` -/
def mergeBucket : TypeExpr -> Option (Text -> Text)
  | .string => some id
  | .array _ => some fun field => field ++ "_parts"
  | .openMap => some fun field => "activity_" ++ field
  | _ => none

/-- `WIRE_TYPE_OVERRIDE` -/
def wireTypeOverrides : List (Text × Text) :=
  [("Interrupt.response_schema", "google.protobuf.Value"),
    ("Interrupt.metadata", "google.protobuf.Value")]

/-- `FILE_OF` -/
def files : List (Text × Text) :=
  [("EventType", "events.proto"),
    ("BaseEvent", "events.proto"),
    ("TokenUsage", "events.proto"),
    ("Event", "events.proto"),
    ("JsonPatchOperation", "patch.proto")]

/-- The file a definition is written to. -/
def fileOf (name : Text) : Text :=
  (files.lookup name).getD "types.proto"

/-- `NOT_ON_THE_WIRE` -/
def notOnTheWire : List Text :=
  ["AgentCapabilities", "ExecutionCapabilities", "HumanInTheLoopCapabilities", "IdentityCapabilities",
    "MultiAgentCapabilities", "MultimodalCapabilities", "MultimodalInputCapabilities",
    "MultimodalOutputCapabilities", "OutputCapabilities", "ReasoningCapabilities", "StateCapabilities",
    "ToolsCapabilities", "TransportCapabilities", "SubagentInfo"]

/-- The fields of every definition and mixin, as a table spells them. -/
def fieldsOf (model : ProtocolModel) (spellDefinition spellField : Text -> Text) : OrderedMap Text (List Text) :=
  OrderedMap.ofList
    ((model.definitions.map fun definition =>
      (spellDefinition definition.name,
        match definition with
        | .object object => object.fields.map fun field => spellField field.name
        | _ => [])) ++
    model.mixinShapes.map fun mixin =>
      (spellDefinition mixin.name, mixin.fields.map fun field => spellField field.name))

/-- What is wrong with one key of a table. -/
def complaint (fields : OrderedMap Text (List Text)) (key : Text) : Option Text :=
  let definitionName := key.takeWhile (· != '.')
  match fields.get? definitionName with
  | none => some (key ++ " (no definition named " ++ definitionName ++ ")")
  | some names =>
    match key.dropWhile (· != '.') with
    | [] => none
    | _ :: fieldName =>
      if fieldName ∈ names then none
      else some (key ++ " (" ++ definitionName ++ " has no field " ++ fieldName ++ ")")

/-- Every key of a table is to name something of the schema. -/
def assertTableKeys (table : Text) (keys : List Text) (model : ProtocolModel)
    (spellDefinition spellField : Text -> Text) : Except GenerateError Unit :=
  let complaints := keys.filterMap (complaint (fieldsOf model spellDefinition spellField))
  if complaints = [] then .ok ()
  else
    .error (.error (table ++ " names things the schema does not have: " ++
      (", " : Text).intercalate complaints ++ (" — the table is keyed by name, so a rename does not fail it, " ++
      "it just stops matching and reverts the entry to the emitter's default; update the table" : String)))

end Tables

/-! ## The wire -/

inductive Label where
  | plain
  | optional
  | repeated
deriving DecidableEq

def labelOf (repeated optional : Bool) : Label :=
  if repeated then .repeated else if optional then .optional else .plain

structure WireField where
  name : Text
  type : Text
  label : Label
  number : Nat
  comment : Option Text := none
  jsonName : Option Text := none

/-- The oneofs of the transport are named here, and nowhere else. -/
inductive OneofName where
  | event
  | part
  | source
deriving DecidableEq

def OneofName.text : OneofName -> Text
  | event => "event"
  | part => "part"
  | source => "source"

structure WireOneof where
  name : OneofName
  entries : List WireField

/-- A message without the messages nested in it. -/
structure MessageBody where
  name : Text
  comment : Option Text
  fields : List WireField
  oneof : Option WireOneof := none
  reserved : List Nat
  file : Text

/-- A nested message has none of its own. -/
structure WireMessage extends MessageBody where
  nested : List MessageBody := []

structure EnumValue where
  name : Text
  number : Nat

structure WireEnum where
  name : Text
  comment : Option Text
  values : List EnumValue
  reserved : List Nat
  file : Text

/-- What a generation has written so far. -/
structure Wiring where
  freeze : WireFreeze
  enums : List WireEnum := []
  messages : List WireMessage := []
  emitted : List Text := []
  dissolved : List Text := []

structure WireModel where
  enums : List WireEnum
  messages : List WireMessage
  envelope : List (Text × Text)
  baseFieldNames : List Text
  model : ProtocolModel
  defs : Definitions
  freeze : WireFreeze

/-- The steps of a generation, on what it has made so far. -/
abbrev Build := StateT Wiring (Except GenerateError)

def refuse {A : Type} (parts : List Text) : Except GenerateError A :=
  .error (.wireError parts.flatten)

inductive SlotKind where
  | field
  | enum

/-- Fields are numbered from one, and enum values from zero. -/
def SlotKind.first : SlotKind -> Nat
  | field => 1
  | enum => 0

/-- The number of a slot: the one it has, or the next of its group. -/
def numberFor (key : Text) (kind : SlotKind) : Build Nat :=
  fun wiring =>
    let draw := wiring.freeze.numberFor key kind.first
    .ok (draw.1, { wiring with freeze := draw.2 })

/-- The numbers of a group that this generation has no use for. -/
def reservedIn (group : Text) : Build (List Nat) :=
  fun wiring => .ok ((wiring.freeze.unused group).insertionSort (· ≤ ·), wiring)

def pushMessage (message : WireMessage) : Build Unit :=
  fun wiring => .ok ((), { wiring with messages := wiring.messages ++ [message] })

def pushEnum (wireEnum : WireEnum) : Build Unit :=
  fun wiring => .ok ((), { wiring with enums := wiring.enums ++ [wireEnum] })

def addEmitted (name : Text) : Build Unit :=
  fun wiring => .ok ((), { wiring with emitted := name :: wiring.emitted })

def addDissolved (name : Text) : Build Unit :=
  fun wiring => .ok ((), { wiring with dissolved := name :: wiring.dissolved })

def isEmitted (name : Text) : Build Bool :=
  fun wiring => .ok (decide (name ∈ wiring.emitted), wiring)

def sortFields (fields : List WireField) : List WireField :=
  fields.insertionSort fun left right => left.number ≤ right.number

def sortValues (values : List EnumValue) : List EnumValue :=
  values.insertionSort fun left right => left.number ≤ right.number

/-! ## Types -/

/-- The definition of a name, which is an error if there is none. -/
def defOf (defs : Definitions) (name : Text) : Except GenerateError Definition :=
  match defs.get? name with
  | some definition => .ok definition
  | none => refuse ["no definition named ", name]

/-- A definition that has to be an object. -/
def objectOf (defs : Definitions) (name : Text) (otherwise : List Text) : Except GenerateError ObjectDefinition := do
  match ← defOf defs name with
  | .object definition => .ok definition
  | _ => refuse otherwise

/-- The type behind a chain of aliases; the fuel bounds the chain. -/
def resolveAlias (defs : Definitions) : Nat -> TypeExpr -> Except GenerateError TypeExpr
  | 0, _ => .error .unbounded
  | depth + 1, type =>
    match type with
    | .ref name =>
      match defs.get? name with
      | some (.alias target) => resolveAlias defs depth target.type
      | _ => .ok type
    | _ => .ok type

/-- A type on the wire, or a union that is spread over its message. -/
inductive WireType where
  | plain (type : Text) (repeated : Bool)
  | flatten (union : UnionDefinition)

/-- The type of a field on the wire; the fuel bounds the aliases. -/
def protoType (defs : Definitions) : Nat -> TypeExpr -> Text -> Except GenerateError WireType
  | 0, _, _ => .error .unbounded
  | depth + 1, type, place =>
    match type with
    | .string | .literal _ | .stringEnum => .ok (.plain "string" false)
    | .integer => .ok (.plain "int64" false)
    | .boolean => .ok (.plain "bool" false)
    | .any => .ok (.plain "google.protobuf.Value" false)
    | .openMap => .ok (.plain "google.protobuf.Struct" false)
    | .array items => do
        match ← protoType defs depth items place with
        | .plain type false => .ok (.plain type true)
        | _ => refuse ["unsupported nested repetition"]
    | .union _ => refuse ["inline unions map through their definitions only"]
    | .ref name => do
        match ← defOf defs name with
        | .alias _ => do
            let resolved ← resolveAlias defs depth type
            protoType defs depth resolved place
        | .enum _ => .ok (.plain "string" false)
        | .union target =>
          match unionStrategies.lookup target.name with
          | some .flatten => .ok (.flatten target)
          | some .merge | some .oneof | some .tagged => .ok (.plain (protoName target.name) false)
          | _ => refuse ["union ", target.name, " has no wire strategy for field use"]
        | .object target =>
          if target.name = ("FunctionCall" : Text) then
            refuse [place, ": FunctionCall is only carried as the nested Function message of a ",
              "direct reference, so this position would name a type no .proto declares — ",
              "give it a message of its own before the schema puts it here"]
          else .ok (.plain (protoName target.name) false)

/-- An alias of an array is followed, so that `delta: JsonPatch` is repeated. -/
def fieldWireType (defs : Definitions) (depth : Nat) (field : Field) (place : Text) :
    Except GenerateError WireType :=
  let type : TypeExpr :=
    match field.type with
    | .ref name =>
      match defs.get? name with
      | some (.alias target) =>
        match target.type with
        | .array items => .array items
        | _ => field.type
      | _ => field.type
    | type => type
  match type with
  | .union _ => refuse ["inline union on field ", field.name]
  | type => protoType defs depth type place

/-! ## Fields -/

section Fields

variable [Casing]

/-- A field with its number. -/
def makeField (scope name type : Text) (label : Label) (comment jsonName : Option Text) : Build WireField := do
  let number ← numberFor (slot scope name) .field
  return { name, type := (wireTypeOverrides.lookup (slot scope name)).getD type, label, number, comment, jsonName }

/-- The wire field that a variant of a merged field lands on. -/
def mergeSplit (variant : TypeExpr) (fieldName : Text) : Except GenerateError (Text -> Text) :=
  match mergeBucket variant with
  | some split => .ok split
  | none =>
    refuse ["merged union field ", fieldName, ": a \"", variant.kind, "\" variant has no MERGE_SPLIT bucket — ",
      "decide the wire field it lands on, or it silently shares another variant's ",
      "field and all but the first are dropped"]

/-- The wire fields a member's field lands on: one for each variant of an inline union. -/
def mergeVariants (field : Field) : Except GenerateError (List (Text × TypeExpr)) :=
  let name := snakeCase field.name
  match field.type with
  | .union members =>
    members.mapM fun variant => do
      let split ← mergeSplit variant field.name
      return (split name, variant)
  | .openMap => .ok [("activity_" ++ name, field.type)]
  | _ => .ok [(name, field.type)]

/-- One variant of an inline union. -/
def variantField (defs : Definitions) (depth : Nat) (scope : Text) (field : Field) (variant : Text × TypeExpr) :
    Build WireField := do
  match ← protoType defs depth variant.2 (slot scope field.name) with
  | .flatten _ => refuse ["inline union on field ", field.name, " has a flatten variant"]
  | .plain type repeated =>
    makeField scope variant.1 type (labelOf repeated !repeated) field.description field.name

/-- A field of a member of a union that dissolves, where no member before had it. -/
def flattenField (defs : Definitions) (depth : Nat) (scope : Text) (discriminator : Option Text)
    (flat : List Text × List WireField) (field : Field) : Build (List Text × List WireField) :=
  if some field.name = discriminator ∨ field.name ∈ flat.1 then return flat
  else do
    match ← fieldWireType defs depth field (slot scope field.name) with
    | .flatten _ => refuse ["nested flatten unions are not modelled"]
    | .plain type repeated => do
        let made ← makeField scope (snakeCase field.name) type (labelOf repeated !repeated) field.description
          field.name
        return (field.name :: flat.1, flat.2 ++ [made])

/-- The fields of one member, spread over the message. -/
def flattenMember (defs : Definitions) (depth : Nat) (scope : Text) (discriminator : Option Text)
    (flat : List Text × List WireField) (memberName : Text) : Build (List Text × List WireField) := do
  let member ← objectOf defs memberName ["flatten union member ", memberName, " is not an object"]
  member.fields.foldlM (flattenField defs depth scope discriminator) flat

/-- The fields one field of a definition contributes to a message. -/
def messageField (defs : Definitions) (depth : Nat) (scope : Text) (field : Field) : Build (List WireField) := do
  if field.type.isUnion then
    let variants ← mergeVariants field
    variants.mapM (variantField defs depth scope field)
  else
    match ← fieldWireType defs depth field (slot scope field.name) with
    | .flatten union => do
        let tag ← makeField scope (snakeCase field.name) "string" .plain field.description field.name
        let flat ← union.members.foldlM (flattenMember defs depth scope union.discriminator) ([], [])
        return tag :: flat.2
    | .plain type repeated => do
        let made ← makeField scope (snakeCase field.name) type (labelOf repeated (!field.required && !repeated))
          field.description field.name
        return [made]

/-- The fields of a message, but for those that stand elsewhere. -/
def messageFields (defs : Definitions) (depth : Nat) (scope : Text) (fields : List Field) (exclude : List Text) :
    Build (List WireField) := do
  let made ← (fields.filter fun field => decide (field.name ∉ exclude)).mapM (messageField defs depth scope)
  return made.flatten

/-! ## A merged message -/

/-- The wire fields of a merged message, as far as its members have been read. -/
structure Merging where
  fields : OrderedMap Text WireField := .empty
  /-- For every member, the wire fields it carries and whether it requires each. -/
  carried : List (OrderedMap Text Bool) := []

/-- A wire field is made by the first variant that lands on it. -/
def mergeVariant (defs : Definitions) (depth : Nat) (scope : Text) (field : Field) (alone : Bool)
    (merging : OrderedMap Text WireField × OrderedMap Text Bool) (variant : Text × TypeExpr) :
    Build (OrderedMap Text WireField × OrderedMap Text Bool) := do
  match ← protoType defs depth variant.2 (slot scope field.name) with
  | .flatten _ => refuse ["flatten union inside a merged message"]
  | .plain type repeated =>
    let mine := merging.2.set variant.1 (field.required && alone)
    if merging.1.has variant.1 then return (merging.1, mine)
    else do
      let made ← makeField scope variant.1 type (labelOf repeated !repeated) field.description field.name
      return (merging.1.set variant.1 made, mine)

def mergeField (defs : Definitions) (depth : Nat) (scope : Text)
    (merging : OrderedMap Text WireField × OrderedMap Text Bool) (field : Field) :
    Build (OrderedMap Text WireField × OrderedMap Text Bool) := do
  let variants ← mergeVariants field
  variants.foldlM (mergeVariant defs depth scope field (variants.length == 1)) merging

def mergeMember (defs : Definitions) (depth : Nat) (scope : Text) (merging : Merging) (memberName : Text) :
    Build Merging := do
  let member ← objectOf defs memberName ["merge union member ", memberName, " is not an object"]
  let read ← member.fields.foldlM (mergeField defs depth scope) (merging.fields, .empty)
  return { fields := read.1, carried := merging.carried ++ [read.2] }

/-- A field is required when every member carries and requires it. -/
def Merging.settle (merging : Merging) (field : WireField) : WireField :=
  { field with
    label :=
      if field.label = .repeated then .repeated
      else if merging.carried.all fun member => member.get? field.name == some true then .plain
      else .optional }

/-- One message for all members of a union. -/
def mergeUnion (defs : Definitions) (depth : Nat) (union : UnionDefinition) : Build WireMessage := do
  let scope := protoName union.name
  let merging ← union.members.foldlM (mergeMember defs depth scope) {}
  let reserved ← reservedIn scope
  return {
    name := scope
    comment := union.description
    fields := sortFields ((merging.fields.entries.map Prod.snd).map merging.settle)
    reserved
    file := fileOf union.name }

/-! ## Messages -/

/-- The nested Function message of a field that refers to FunctionCall. -/
def functionMessage (defs : Definitions) (depth : Nat) (definition : ObjectDefinition) : Build MessageBody := do
  let functionDef ← objectOf defs "FunctionCall" ["FunctionCall shape"]
  let fields ← messageFields defs depth (slot (protoName definition.name) "Function") functionDef.fields []
  let reserved ← reservedIn (slot (protoName definition.name) "Function")
  return {
    name := "Function"
    comment := functionDef.description
    fields := sortFields fields
    reserved
    file := fileOf definition.name }

def isFunctionCall : TypeExpr -> Bool
  | .ref name => name == ("FunctionCall" : Text)
  | _ => false

/-- A field of an object; a function call becomes a message nested in it. -/
def objectField (defs : Definitions) (depth : Nat) (definition : ObjectDefinition) (exclude : List Text)
    (parts : List MessageBody × List WireField) (field : Field) : Build (List MessageBody × List WireField) :=
  if field.name ∈ exclude then return parts
  else if isFunctionCall field.type then do
    let nested ← functionMessage defs depth definition
    let made ← makeField (protoName definition.name) (snakeCase field.name) "Function"
      (labelOf false !field.required) field.description field.name
    addEmitted "FunctionCall"
    return (parts.1 ++ [nested], parts.2 ++ [made])
  else do
    let made ← messageFields defs depth (protoName definition.name) [field] []
    return (parts.1, parts.2 ++ made)

/-- The field every event message starts with. -/
def baseEventFields (scope : Text) (isEvent : Bool) : Build (List WireField) :=
  if isEvent then do
    let made ← makeField scope "base_event" "BaseEvent" .plain (some "The fields every event carries.") none
    return [made]
  else return []

/-- The message of an object.  An event leaves its common fields to `BaseEvent`. -/
def emitObjectMessage (defs : Definitions) (depth : Nat) (baseFieldNames : List Text) (definition : ObjectDefinition)
    (dropDiscriminator : Option Text) (isEvent : Bool) : Build WireMessage := do
  let scope := protoName definition.name
  let exclude := (if isEvent then baseFieldNames else []) ++ dropDiscriminator.toList.filter (· ≠ [])
  let base ← baseEventFields scope isEvent
  let parts ← definition.fields.foldlM (objectField defs depth definition exclude) ([], base)
  let reserved ← reservedIn scope
  return {
    name := scope
    comment := some definition.description
    fields := sortFields parts.2
    nested := parts.1
    reserved
    file := if isEvent then "events.proto" else fileOf definition.name }

/-! ## What the events reach -/

section Walk

variable (defs : Definitions) (visit : Text -> Build Unit)

/-- The definitions a type names, aliases followed. -/
def walk : Nat -> TypeExpr -> Build Unit
  | 0, _ => throw .unbounded
  | depth + 1, type =>
    match type with
    | .ref name =>
      match defs.get? name with
      | some (.alias target) => walk depth target.type
      | _ => if name = ("FunctionCall" : Text) then return () else visit name
    | .array items => walk depth items
    | .union members => members.forM (walk depth)
    | _ => return ()

def visitField (depth : Nat) (field : Field) : Build Unit :=
  walk defs visit depth field.type

/-- What the members of a union that is absorbed reach. -/
def visitDissolved (depth : Nat) (memberName : Text) : Build Unit := do
  addDissolved memberName
  match ← defOf defs memberName with
  | .object member => member.fields.forM (visitField defs visit depth)
  | _ => return ()

/-- The value by which the discriminator names the member. -/
def literalOf (member : ObjectDefinition) (discriminator : Option Text) : Option Text :=
  match member.fields.find? fun field => some field.name == discriminator with
  | some field =>
    match field.type with
    | .literal value => some value
    | _ => none
  | none => none

/-- A member of a union with a message of its own. -/
def emitArm (depth : Nat) (baseFieldNames : List Text) (union : UnionDefinition) (oneofName : OneofName)
    (entries : List WireField) (memberName : Text) : Build (List WireField) := do
  let member ← objectOf defs memberName [memberName, " shape"]
  match literalOf member union.discriminator with
  | none => refuse [memberName, " has no literal discriminator"]
  | some value => do
      let message ← emitObjectMessage defs depth baseFieldNames member union.discriminator false
      pushMessage message
      addEmitted memberName
      member.fields.forM (visitField defs visit depth)
      let number ← numberFor (slot (slot (protoName union.name) oneofName.text) value) .field
      return entries ++ [{ name := value, type := protoName memberName, label := .plain, number }]

/-- A message that holds one of the members. -/
def emitOneof (depth : Nat) (baseFieldNames : List Text) (union : UnionDefinition) : Build Unit := do
  let oneofName : OneofName := if union.name = ("PartSource" : Text) then .source else .part
  let entries ← union.members.foldlM (emitArm defs visit depth baseFieldNames union oneofName) []
  let reserved ← reservedIn (protoName union.name)
  pushMessage {
    name := protoName union.name
    comment := some union.description
    fields := []
    oneof := some { name := oneofName, entries := sortFields entries }
    reserved
    file := fileOf union.name }

/-- The values of the discriminator, the fields, and how many members require each. -/
structure Tagging where
  values : List EnumValue := []
  merged : OrderedMap Text WireField := .empty
  requiredEverywhere : OrderedMap Text Nat := .empty

def Tagging.require (tagging : Tagging) (wireName : Text) (required : Bool) : Tagging :=
  if required then
    { tagging with
      requiredEverywhere :=
        tagging.requiredEverywhere.set wireName ((tagging.requiredEverywhere.get? wireName).getD 0 + 1) }
  else tagging

/-- A field of the members; the first member that has it makes it. -/
def tagField (depth : Nat) (union : UnionDefinition) (tagging : Tagging) (field : Field) : Build Tagging :=
  if some field.name = union.discriminator then return tagging
  else do
    let scope := protoName union.name
    visitField defs visit depth field
    let wireName := snakeCase field.name
    if tagging.merged.has wireName then return tagging.require wireName field.required
    else do
      match ← fieldWireType defs depth field (slot scope field.name) with
      | .flatten _ => refuse ["flatten in tagged union"]
      | .plain type repeated => do
          let made ← makeField scope wireName type (labelOf repeated !repeated) field.description field.name
          let added : Tagging :=
            { tagging with
              merged := tagging.merged.set wireName made
              requiredEverywhere := tagging.requiredEverywhere.set wireName 0 }
          return added.require wireName field.required

def tagMember (depth : Nat) (union : UnionDefinition) (enumName : Text) (tagging : Tagging) (memberName : Text) :
    Build Tagging := do
  addDissolved memberName
  let member ← objectOf defs memberName [memberName, " shape"]
  match literalOf member union.discriminator with
  | none => refuse [memberName, " discriminator"]
  | some value => do
      let name := Casing.toUpperCase value
      let number ← numberFor (slot enumName name) .enum
      member.fields.foldlM (tagField defs visit depth union)
        { tagging with values := tagging.values ++ [{ name, number }] }

/-- A field is required when every member of the union requires it. -/
def Tagging.settle (tagging : Tagging) (members : List Text) (field : WireField) : WireField :=
  { field with
    label :=
      if field.label = .repeated then .repeated
      else if tagging.requiredEverywhere.get? field.name = some members.length then .plain
      else .optional }

/-- One message for all members, with an enumeration that tells them apart. -/
def emitTagged (depth : Nat) (union : UnionDefinition) : Build Unit := do
  let scope := protoName union.name
  let enumName := scope ++ "Type"
  let discriminator := union.discriminator.getD "undefined"
  let tagging ← union.members.foldlM (tagMember defs visit depth union enumName) {}
  let enumReserved ← reservedIn enumName
  pushEnum {
    name := enumName
    comment := some ("The " ++ discriminator ++ " discriminator of " ++ scope ++ ".")
    values := sortValues tagging.values
    reserved := enumReserved
    file := fileOf union.name }
  let tag ← makeField scope (snakeCase (union.discriminator.getD "op")) enumName .plain
    (some "Which operation this is.") union.discriminator
  let reserved ← reservedIn scope
  pushMessage {
    name := scope
    comment := some union.description
    fields := sortFields (tag :: (tagging.merged.entries.map Prod.snd).map (tagging.settle union.members))
    reserved
    file := fileOf union.name }

/-- Every union has a strategy of its own. -/
def emitUnion (depth : Nat) (baseFieldNames : List Text) (name : Text) (union : UnionDefinition) : Build Unit :=
  match unionStrategies.lookup name with
  | none => refuse ["union ", name, " has no wire strategy — decide one before it ships"]
  | some .flatten => union.members.forM (visitDissolved defs visit depth)
  | some .merge => do
      union.members.forM (visitDissolved defs visit depth)
      let message ← mergeUnion defs depth union
      pushMessage message
  | some .oneof => emitOneof defs visit depth baseFieldNames union
  | some .tagged => emitTagged defs visit depth union
  | some .envelope => refuse ["union ", name, ": strategy ", Strategy.envelope.text, " in field position"]

def emitDefinition (depth : Nat) (baseFieldNames : List Text) (name : Text) (definition : Definition) :
    Build Unit :=
  match definition with
  | .alias _ | .enum _ => return ()
  | .union union => emitUnion defs visit depth baseFieldNames name union
  | .object object => do
      object.fields.forM (visitField defs visit depth)
      let message ← emitObjectMessage defs depth baseFieldNames object none false
      pushMessage message

end Walk

/-- A definition is written once, when something first reaches it. -/
def visit (defs : Definitions) (baseFieldNames : List Text) : Nat -> Text -> Build Unit
  | 0, _ => throw .unbounded
  | depth + 1, name => do
      if ← isEmitted name then return ()
      else do
        let definition ← defOf defs name
        addEmitted name
        emitDefinition defs (visit defs baseFieldNames depth) depth baseFieldNames name definition

/-! ## A generation -/

def eventTypeValue (value : Text) : Build EnumValue := do
  let number ← numberFor (slot "EventType" value) .enum
  return { name := value, number }

def emitEventType (definition : EnumDefinition) : Build Unit := do
  let values ← definition.values.mapM eventTypeValue
  let reserved ← reservedIn "EventType"
  pushEnum {
    name := "EventType"
    comment := some definition.description
    values := sortValues values
    reserved
    file := "events.proto" }

/-- The type of a field of BaseEvent; a union that dissolves has no type here. -/
def baseFieldType (defs : Definitions) (depth : Nat) (field : Field) : Except GenerateError (Text × Bool) :=
  if field.name = ("type" : Text) then .ok ("EventType", false)
  else do
    match ← fieldWireType defs depth field (slot "BaseEvent" field.name) with
    | .plain type repeated => .ok (type, repeated)
    | .flatten _ => .ok ("undefined", false)

def baseField (defs : Definitions) (depth : Nat) (field : Field) : Build WireField := do
  let wire ← baseFieldType defs depth field
  makeField "BaseEvent" (snakeCase field.name) wire.1 (labelOf wire.2 (!field.required && !wire.2))
    field.description field.name

def emitBaseEvent (defs : Definitions) (depth : Nat) (mixin : ObjectDefinition) : Build Unit := do
  let fields ← mixin.fields.mapM (baseField defs depth)
  let reserved ← reservedIn "BaseEvent"
  pushMessage {
    name := "BaseEvent"
    comment := some mixin.description
    fields := sortFields fields
    reserved
    file := "events.proto" }
  addEmitted "BaseEvent"

/-- The message of an event. -/
def emitEvent (defs : Definitions) (depth : Nat) (baseFieldNames : List Text) (eventName : Text) : Build Unit := do
  let definition ← objectOf defs eventName [eventName, " shape"]
  let message ← emitObjectMessage defs depth baseFieldNames definition none true
  pushMessage message
  addEmitted eventName

/-- `.replace(/Event$/, "")` -/
def dropEvent (eventName : Text) : Text :=
  if ("Event" : Text).isSuffixOf eventName then eventName.take (eventName.length - 5) else eventName

def envelopeEntry (entry : Text × Text) : Build WireField := do
  let number ← numberFor (slot (slot "Event" OneofName.event.text) entry.1) .field
  return { name := entry.1, type := entry.2, label := .plain, number }

/-- The message that holds one event. -/
def emitEnvelope (eventUnion : UnionDefinition) (envelope : List (Text × Text)) : Build Unit := do
  let entries ← envelope.mapM envelopeEntry
  let reserved ← reservedIn "Event"
  pushMessage {
    name := "Event"
    comment := some eventUnion.description
    fields := []
    oneof := some { name := .event, entries := sortFields entries }
    reserved
    file := "events.proto" }
  addEmitted "Event"

def visitEvent (defs : Definitions) (depth : Nat) (baseFieldNames : List Text) (eventName : Text) : Build Unit := do
  match ← defOf defs eventName with
  | .object definition =>
    definition.fields.forM (visitField defs (visit defs baseFieldNames depth) depth)
  | _ => return ()

/-- The definitions that no message carries, and that nobody excused. -/
def missing (model : ProtocolModel) (emitted dissolved : List Text) : List Text :=
  (model.definitions.filter fun definition =>
    match definition with
    | .object _ | .union _ =>
      decide (definition.name ∉ emitted ∧ definition.name ∉ dissolved ∧ definition.name ∉ notOnTheWire)
    | _ => false).map Definition.name

def assertEveryDefinitionIsOnTheWire (model : ProtocolModel) : Build Unit :=
  fun wiring =>
    let absent := missing model wiring.emitted wiring.dissolved
    if absent = [] then .ok ((), wiring)
    else
      refuse ["nothing on the wire carries ", (", " : Text).intercalate absent,
        " — the walk starts at the events, ",
        "so a definition they cannot reach is silently absent from the binary transport ",
        "while TypeScript and Python emit it; give it a field an event reaches, or add it ",
        "to NOT_ON_THE_WIRE with the reason it is not carried"]

def envelopeOf (eventUnion : UnionDefinition) : List (Text × Text) :=
  eventUnion.members.map fun eventName => (snakeCase (dropEvent eventName), eventName)

/-- What a generation writes, once the shapes it starts from are found. -/
def wire (model : ProtocolModel) (defs : Definitions) (depth : Nat) (eventUnion : UnionDefinition)
    (baseMixin : ObjectDefinition) (eventType : EnumDefinition) : Build Unit := do
  let baseFieldNames := baseMixin.fields.map Field.name
  emitEventType eventType
  emitBaseEvent defs depth baseMixin
  eventUnion.members.forM (emitEvent defs depth baseFieldNames)
  emitEnvelope eventUnion (envelopeOf eventUnion)
  eventUnion.members.forM (visitEvent defs depth baseFieldNames)
  assertEveryDefinitionIsOnTheWire model

def assertTables (model : ProtocolModel) : Except GenerateError Unit := do
  assertTableKeys "PROTO_NAME" (protoNames.map Prod.fst) model id id
  assertTableKeys "UNION_STRATEGY" (unionStrategies.map Prod.fst) model id id
  assertTableKeys "FILE_OF" (files.map Prod.fst) model id id
  assertTableKeys "WIRE_TYPE_OVERRIDE" (wireTypeOverrides.map Prod.fst) model protoName snakeCase

/-- What a generation writes over the freeze it has read. -/
def wireModel (depth : Nat) (model : ProtocolModel) (freeze : WireFreeze) : Except GenerateError WireModel := do
  let defs : Definitions := OrderedMap.ofList (model.definitions.map fun definition => (definition.name, definition))
  match ← defOf defs "Event" with
  | .union eventUnion =>
    match model.mixinShapes.find? fun mixin => mixin.name == ("BaseEvent" : Text) with
    | none => refuse ["no BaseEvent mixin shape"]
    | some baseMixin => do
        match ← defOf defs "EventType" with
        | .enum eventType => do
            let wired ← wire model defs depth eventUnion baseMixin eventType { freeze }
            return {
              enums := wired.2.enums
              messages := wired.2.messages
              envelope := envelopeOf eventUnion
              baseFieldNames := baseMixin.fields.map Field.name
              model
              defs
              freeze := wired.2.freeze }
        | _ => refuse ["EventType is not an enum"]
  | _ => refuse ["Event is not a union"]

def buildWireModel (depth : Nat) (model : ProtocolModel) (freezeText : Text) : Except GenerateError WireModel := do
  assertTables model
  let freeze ← WireFreeze.ofText freezeText
  wireModel depth model freeze

end Fields

/-- The lines of the banner. -/
def bannerLines (schemaId : Text) : List Text :=
  ["# @generated by spec/generator — DO NOT EDIT.",
    "# Source: " ++ schemaId,
    "# The protobuf wire freeze: every slot the binary transport has ever",
    "# shipped. Append-only — the generator assigns the next free number to a",
    "# new slot and writes it here; a slot whose schema field is gone becomes",
    "# a reserved number. Nobody authors a number by hand.",
    "# Regenerate: pnpm --filter @ag-ui/spec generate"]

def emitFreeze (wire : WireModel) : Text :=
  wire.freeze.emit (['\n'].intercalate (bannerLines wire.model.schemaId))

end Generator
end AgUi
