import AgUi.Middleware.RunNextWithState

namespace AgUi
namespace A2ui

open Library Protocol Middleware

/-!
# Surfaces

The A2UI middleware watches the calls of rendering tools and shows what they
build as activities.  Everything it shows rides one message id,
`a2ui-surface-` and a discriminator, so that a later snapshot replaces an
earlier one in place.  A handler here takes what is known of the calls of a
stream and an event, and gives what is known afterwards and the surfaces shown.

Telling from an incomplete JSON text which parts of it are complete is the
work of a streaming parser, and the semantic rules for component trees are
those of a toolkit.  Both are parameters, since nothing that is proved of the
middleware depends on what they answer.
-/

/-! ## Parameters -/

/-- What `validateA2UIComponents` says of a component tree. -/
structure Validation where
  valid : Bool
  errors : List Json

/-- How JSON text is read and written. -/
structure Reading where
  /-- `JSON.parse`, with `none` where it throws. -/
  parse : String -> Option Json
  /-- `JSON.stringify`. -/
  stringify : Json -> String
  /-- The text of a value inside a template literal. -/
  display : Json -> String
  /-- A complete string field of a partial object. -/
  extractStringField : String -> String -> Option String
  /-- The complete items of an array field, and whether the array is closed. -/
  extractCompleteItemsWithStatus : String -> String -> Option (List Json × Bool)
  /-- The complete items of an array field of the `data` field. -/
  extractDataArrayItems : String -> String -> Option (List Json × Bool)
  /-- A complete object field of a partial object. -/
  extractCompleteObject : String -> String -> Option Json
  /-- The components, the data model, the catalog and whether bindings are resolved. -/
  validateA2UIComponents : List Json -> Option Json -> Option Json -> Bool -> Validation

/-- `injectA2UITool?: boolean | string`. -/
inductive InjectA2UITool where
  | off
  | on
  | named (name : String)

structure A2UIMiddlewareConfig where
  schema : Option Json := none
  debugExposure : Option String := none
  showProgressTokens : Option Bool := none
  maxAttempts : Option Rat := none
  injectA2UITool : InjectA2UITool := .off
  a2uiToolNames : Option (List String) := none
  defaultCatalogId : Option String := none

def renderA2UIToolName : String := "render_a2ui"

def logA2UIEventToolName : String := "log_a2ui_event"

def a2uiActivityType : String := "a2ui-surface"

def a2uiOperationsKey : String := "a2ui_operations"

def maxA2UIAttempts : Rat := 3

/-- The tools whose calls are intercepted.  An injected tool is one of them. -/
def A2UIMiddlewareConfig.getA2UIToolNames (config : A2UIMiddlewareConfig) : List String :=
  config.a2uiToolNames.getD [renderA2UIToolName] ++
    match config.injectA2UITool with
    | .off => []
    | .on => [renderA2UIToolName]
    | .named name => if name = "" then [] else [name]

/-! ## Activities -/

/-- What is shown, and the discriminator of the message it is shown in. -/
structure Surface where
  discriminator : String
  content : Json

def surfaceMessageId (discriminator : String) : String :=
  "a2ui-surface-" ++ discriminator

def Surface.event (surface : Surface) : ActivitySnapshotEvent :=
  { messageId := surfaceMessageId surface.discriminator
    activityType := a2uiActivityType
    content := surface.content
    replace := some true }

/-- A state before the painted surface: building, retrying or failed. -/
def buildLifecycleActivity (config : A2UIMiddlewareConfig) (key : String) (content : List (String × Json)) : Surface :=
  { discriminator := key
    content := .object (content ++
      match config.debugExposure with
      | none => []
      | some exposure => if exposure = "" then [] else [("debugExposure", .string exposure)]) }

/-- The message of the A2UI protocol with this name and these fields. -/
def operation (name : String) (fields : List (String × Json)) : Json :=
  .object [("version", .string "v0.9"), (name, .object fields)]

def createSurface (surfaceId catalogId : String) : Json :=
  operation "createSurface" [("surfaceId", .string surfaceId), ("catalogId", .string catalogId)]

def updateComponents (surfaceId : String) (components : List Json) : Json :=
  operation "updateComponents" [("surfaceId", .string surfaceId), ("components", .array components)]

def updateDataModel (surfaceId : String) (value : Json) : Json :=
  operation "updateDataModel" [("surfaceId", .string surfaceId), ("path", .string "/"), ("value", value)]

def operationsContent (operations : List Json) : Json :=
  .object [(a2uiOperationsKey, .array operations)]

/-! ## What is known of a stream -/

/-- The part of a surface that can be read from arguments still arriving. -/
structure StreamedSchema where
  surfaceId : String
  catalogId : String
  components : List Json

/-- What is known of the call of a rendering tool. -/
structure StreamingToolCall where
  schema : Option StreamedSchema := none
  args : String := ""
  /-- The outer call this one was started inside. -/
  outerCallId : Option String := none
  componentsEmitted : Bool := false
  componentsRejected : Bool := false
  dataItemsKey : String := "items"
  dataItemsCount : Nat := 0
  dataComplete : Bool := false

/-- What is known of the calls that render and of what they have shown. -/
structure SurfaceState where
  streamingToolCalls : OrderedMap String StreamingToolCall := OrderedMap.empty
  retriedOuterKeys : OrderedSet String := OrderedMap.empty
  attemptCountByKey : OrderedMap String Nat := OrderedMap.empty
  lastTokenEmitByKey : OrderedMap String Nat := OrderedMap.empty
  streamedSurfaceIds : OrderedSet String := OrderedMap.empty
  currentOuterCall : Option ToolCallStartEvent := none

/-- A step shows some surfaces. -/
abbrev Showing := SurfaceState × List Surface

section Handlers

variable (reading : Reading) (config : A2UIMiddlewareConfig) (frontendCatalogId : Option String) (catalog : Option Json)

/-! ## The start of a call -/

/-- Calls of one assistant message are siblings, not nested renders. -/
def outerCallOf (state : SurfaceState) (event : ToolCallStartEvent) : Option String :=
  match state.currentOuterCall with
  | none => none
  | some outer =>
    match event.parentMessageId with
    | none => some outer.toolCallId
    | some parent =>
      if parent ≠ "" ∧ outer.parentMessageId = some parent then none else some outer.toolCallId

/-- A call of a rendering tool begins a new attempt of its outer call. -/
def onToolCallStart (state : SurfaceState) (event : ToolCallStartEvent) : Showing :=
  if config.getA2UIToolNames.contains event.toolCallName then
    let outerCallId := outerCallOf state event
    let key := outerCallId.getD event.toolCallId
    ({ state with
        streamingToolCalls := state.streamingToolCalls.set event.toolCallId { outerCallId := outerCallId }
        attemptCountByKey := state.attemptCountByKey.set key ((state.attemptCountByKey.get? key).getD 0 + 1)
        lastTokenEmitByKey := state.lastTokenEmitByKey.set key 0 },
      if state.retriedOuterKeys.has key then []
      else [buildLifecycleActivity config key [("status", .string "building")]])
  else if event.toolCallName = logA2UIEventToolName then (state, [])
  else ({ state with currentOuterCall := some event }, [])

/-! ## The arguments of a call -/

/-- The length of a text in UTF-16 code units. -/
def utf16Length (text : String) : Nat :=
  text.toList.foldl (fun length character => length + if character.val < 0x10000 then 1 else 2) 0

/-- `Math.round(args.length / 4)`. -/
def estimateTokens (args : String) : Nat :=
  (utf16Length args + 2) / 4

/-- How many tokens an estimate has to grow by to be shown again. -/
def tokenEmitStep : Nat := 20

/-- The token estimate shown while the first attempt is being built. -/
def showProgress (state : SurfaceState) (key : String) (call : StreamingToolCall) : Showing :=
  if config.showProgressTokens ≠ some false ∧ call.componentsEmitted = false ∧ call.componentsRejected = false ∧
      call.dataComplete = false ∧ state.retriedOuterKeys.has key = false then
    let tokens := estimateTokens call.args
    let lastTokens := (state.lastTokenEmitByKey.get? key).getD 0
    if lastTokens + tokenEmitStep ≤ tokens then
      ({ state with lastTokenEmitByKey := state.lastTokenEmitByKey.set key tokens },
        [buildLifecycleActivity config key [("status", .string "building"), ("progressTokens", .number tokens)]])
    else (state, [])
  else (state, [])

/-- The catalog is the host's, then the frontend's, then the streamed one. -/
def resolveCatalogId (args : String) : String :=
  match config.defaultCatalogId.filter (fun id => id ≠ ""), frontendCatalogId with
  | some id, _ => id
  | none, some id => id
  | none, none =>
    match reading.extractStringField args "catalogId" with
    | some id =>
      if id ≠ "" ∧ id ≠ "basic" then id else "https://a2ui.org/specification/v0_9/basic_catalog.json"
    | none => "https://a2ui.org/specification/v0_9/basic_catalog.json"

def hasComponentType (item : Json) : Bool :=
  ((item.member? "component").bind Json.asString?).isSome

/-- `replace(/^\//, "")`. -/
def withoutLeadingSlash (path : String) : String :=
  if path.startsWith "/" then (path.drop 1).toString else path

/-- The key of the array a template component repeats over. -/
def deriveRepeatedDataKey (components : List Json) : Option String :=
  components.findSome? fun component =>
    match (component.member? "children").bind fun children => children.member? "path" with
    | some (.string path) => if path = "" then none else some (withoutLeadingSlash path)
    | _ => none

def maxAttempts : Rat :=
  config.maxAttempts.getD maxA2UIAttempts

/-- Components are taken up once, when their array is closed and they are
valid.  A rejected attempt is shown as one to be retried. -/
def takeComponents (state : SurfaceState) (key surfaceId catalogId : String) (call : StreamingToolCall) :
    SurfaceState × StreamingToolCall × List Surface :=
  match reading.extractCompleteItemsWithStatus call.args "components" with
  | none => (state, call, [])
  | some (components, arrayClosed) =>
    if call.componentsEmitted || call.componentsRejected || !arrayClosed || components.isEmpty ||
        !components.all hasComponentType then (state, call, [])
    else
      let validation := reading.validateA2UIComponents components none catalog false
      if validation.valid then
        (state,
          { call with
            schema := some { surfaceId := surfaceId, catalogId := catalogId, components := components }
            dataItemsKey := (deriveRepeatedDataKey components).getD "items" }, [])
      else
        let attempts : Rat := ((state.attemptCountByKey.get? key).getD 1 + 1 : Nat)
        let nextAttempt := if attempts < maxAttempts config then attempts else maxAttempts config
        ({ state with
            retriedOuterKeys := state.retriedOuterKeys.add key
            lastTokenEmitByKey := state.lastTokenEmitByKey.set key 0 },
          { call with componentsRejected := true },
          [buildLifecycleActivity config key
            [("status", .string "retrying"), ("attempt", .number nextAttempt),
              ("maxAttempts", .number (maxAttempts config)), ("errors", .array validation.errors)]])

/-- The items of the repeated array, if there are more of them than before. -/
def newDataItems (call : StreamingToolCall) : Option (List Json) :=
  if call.schema.isSome && !call.dataComplete then
    match reading.extractDataArrayItems call.args call.dataItemsKey with
    | some (items, _) => if call.dataItemsCount < items.length then some items else none
    | none => none
  else none

/-- A snapshot holds all there is so far, and always the components. -/
def paint (state : SurfaceState) (key surfaceId catalogId : String) (call : StreamingToolCall) :
    SurfaceState × StreamingToolCall × List Surface :=
  match call.schema with
  | none => (state, call, [])
  | some schema =>
    let dataItems := newDataItems reading call
    if call.componentsEmitted && dataItems.isNone then (state, call, [])
    else
      let operations :=
        createSurface surfaceId catalogId :: updateComponents surfaceId schema.components ::
          dataItems.toList.map fun items => updateDataModel surfaceId (.object [(call.dataItemsKey, .array items)])
      ({ state with
          streamedSurfaceIds := state.streamedSurfaceIds.add schema.surfaceId
          retriedOuterKeys := state.retriedOuterKeys.erase key },
        { call with
          componentsEmitted := true
          dataItemsCount := (dataItems.map List.length).getD call.dataItemsCount },
        [{ discriminator := key, content := operationsContent operations }])

/-- Once the whole data object is closed it is shown as it is. -/
def completeData (key surfaceId catalogId : String) (structural : Bool) (call : StreamingToolCall) :
    StreamingToolCall × List Surface :=
  match call.schema with
  | none => (call, [])
  | some schema =>
    if call.componentsEmitted && !call.dataComplete && structural then
      match reading.extractCompleteObject call.args "data" with
      | none => (call, [])
      | some data =>
        ({ call with dataComplete := true },
          [{ discriminator := key
             content := operationsContent
              [createSurface surfaceId catalogId, updateComponents surfaceId schema.components,
                updateDataModel surfaceId data] }])
    else (call, [])

/-- Extraction is tried when a delta may have closed something. -/
def extract (state : SurfaceState) (key delta : String) (call : StreamingToolCall) :
    SurfaceState × StreamingToolCall × List Surface :=
  let structural := delta.toList.contains '}' || delta.toList.contains ']'
  if structural || delta.toList.contains '"' then
    match (reading.extractStringField call.args "surfaceId").filter fun id => id ≠ "" with
    | none => (state, call, [])
    | some surfaceId =>
      let catalogId := resolveCatalogId reading config frontendCatalogId call.args
      let (state, call, rejected) := takeComponents reading config catalog state key surfaceId catalogId call
      let (state, call, painted) := paint reading state key surfaceId catalogId call
      let (call, completed) := completeData reading key surfaceId catalogId structural call
      (state, call, rejected ++ painted ++ completed)
  else (state, call, [])

/-- The arguments gather, and as much of the surface is shown as they give. -/
def onToolCallArgs (state : SurfaceState) (event : ToolCallArgsEvent) : Showing :=
  match state.streamingToolCalls.get? event.toolCallId with
  | none => (state, [])
  | some call =>
    let key := call.outerCallId.getD event.toolCallId
    let call := { call with args := call.args ++ event.delta }
    let (state, progress) := showProgress config state key call
    let (state, call, shown) := extract reading config frontendCatalogId catalog state key event.delta call
    ({ state with streamingToolCalls := state.streamingToolCalls.set event.toolCallId call }, progress ++ shown)

/-! ## The result of a call -/

def textOfPart (part : Json) : Option String :=
  match part.member? "type" with
  | some (.string "text") => (part.member? "text").bind Json.asString?
  | _ => none

/-- The text parts of content, every other part dropped. -/
def contentToText : Content -> String
  | .text value => value
  | .parts items => String.join (items.filterMap textOfPart)
  | .structured _ => ""

/-- The operations a tool result carries. -/
def operationsOf (parsed : Json) : Option (List Json) :=
  match parsed.member? a2uiOperationsKey with
  | some (.array operations) => some (operations.filter Json.isObject)
  | _ => none

/-- The operations of a result that is an A2UI container, perhaps serialized twice. -/
def tryParseA2UIOperations (text : String) : Option (List Json) :=
  match reading.parse text with
  | some (.string inner) => (reading.parse inner).bind operationsOf
  | some parsed => operationsOf parsed
  | none => none

def getOperationSurfaceId (operation : Json) : Option String :=
  ["createSurface", "updateComponents", "updateDataModel", "deleteSurface"].findSome? fun name =>
    ((operation.member? name).bind fun message => message.member? "surfaceId").bind Json.asString?

/-- The structured failure of an exhausted recovery loop. -/
def tryParseRecoveryFailure (text : String) : Option (String × Json) :=
  match reading.parse text with
  | none => none
  | some parsed =>
    match parsed.member? "code" with
    | some (.string "a2ui_recovery_exhausted") =>
      some
        (match (parsed.member? "error").filter fun error => !error.isNull with
          | some error => reading.display error
          | none => "A2UI generation failed",
        ((parsed.member? "attempts").filter fun attempts => !attempts.isNull).getD (.array []))
    | _ => none

/-- One snapshot for each surface the operations are about. -/
def createA2UIActivityEvents (operations : List Json) (toolCallId : String) : List Surface :=
  let operationsBySurface := operations.foldl
    (fun (grouped : OrderedMap String (List Json)) operation =>
      let surfaceId := (getOperationSurfaceId operation).getD "default"
      grouped.set surfaceId ((grouped.get? surfaceId).getD [] ++ [operation])) OrderedMap.empty
  operationsBySurface.entries.map fun (surfaceId, surfaceOperations) =>
    { discriminator :=
        if toolCallId = "" then surfaceId
        else if operationsBySurface.size = 1 then toolCallId
        else surfaceId ++ "-" ++ toolCallId
      content := operationsContent surfaceOperations }

/-- The surface of a result was painted while its call streamed. -/
def streamedAlready (state : SurfaceState) (toolCallId : String) : Bool :=
  ((state.streamingToolCalls.get? toolCallId).map StreamingToolCall.componentsEmitted).getD false ||
    state.streamingToolCalls.entries.any fun entry =>
      entry.2.componentsEmitted && entry.2.outerCallId = some toolCallId

/-- How many attempts a recovery reports: as many as it lists, or else as many as are allowed. -/
def attemptCap (attempts : Json) : Rat :=
  match attempts with
  | .array items => if items.isEmpty then maxAttempts config else (items.length : Nat)
  | _ => maxAttempts config

/-- What a result of another tool shows: its operations on surfaces that were
not painted yet, or the failure it reports. -/
def detect (state : SurfaceState) (event : ToolCallResultEvent) : Showing :=
  let key := ((state.streamingToolCalls.get? event.toolCallId).bind StreamingToolCall.outerCallId).getD event.toolCallId
  let text := contentToText event.content
  match tryParseA2UIOperations reading text with
  | some operations =>
    let toEmit := operations.filter fun operation =>
      match getOperationSurfaceId operation with
      | none => true
      | some surfaceId => !state.streamedSurfaceIds.has surfaceId
    (state, createA2UIActivityEvents toEmit key)
  | none =>
    match tryParseRecoveryFailure reading text with
    | none => (state, [])
    | some (error, attempts) =>
      ({ state with retriedOuterKeys := state.retriedOuterKeys.erase key },
        [buildLifecycleActivity config key
          [("status", .string "failed"), ("error", .string error), ("attempts", attempts),
            ("maxAttempts", .number (attemptCap config attempts))]])

/-- A result shows its operations unless its call has been streamed; with it the outer call is over. -/
def onToolCallResult (state : SurfaceState) (event : ToolCallResultEvent) : Showing :=
  let (state, shown) :=
    if streamedAlready state event.toolCallId then (state, []) else detect reading config state event
  ({ state with
      currentOuterCall := state.currentOuterCall.filter fun outer => outer.toolCallId ≠ event.toolCallId }, shown)

/-! ## The end of the stream -/

/-- A call counts as rendered if its components were shown and hold up against the complete arguments. -/
def isRendered (state : SurfaceState) (call : ToolCall) : Bool :=
  match state.streamingToolCalls.get? call.id with
  | none => false
  | some entry =>
    entry.componentsEmitted && !entry.componentsRejected &&
      match reading.parse call.function.arguments with
      | none => false
      | some .null => false
      | some args =>
        match args.member? "components" with
        | some (.array components) =>
          (reading.validateA2UIComponents components (args.member? "data") catalog true).valid
        | _ => true

def renderedContent : String :=
  "\x7b\"status\":\"rendered\"\x7d"

def renderFailedContent : String :=
  "\x7b\"status\":\"failed\",\"code\":\"a2ui_render_failed\"," ++
    "\"error\":\"The A2UI interface could not be rendered.\"\x7d"

/-- The result of a call that is pending at the end. -/
def pendingResult (state : SurfaceState) (messageId : String) (call : ToolCall) : ToolCallResultEvent :=
  { messageId := messageId
    toolCallId := call.id
    content := .text (if isRendered reading catalog state call then renderedContent else renderFailedContent) }

/-- The failure shown for it, unless the activity is that of an outer call. -/
def pendingFailure (state : SurfaceState) (call : ToolCall) : List Surface :=
  let outerCallId := (state.streamingToolCalls.get? call.id).bind StreamingToolCall.outerCallId
  if isRendered reading catalog state call || (outerCallId.getD "") ≠ "" then []
  else
    [buildLifecycleActivity config call.id
      [("status", .string "failed"), ("error", .string "The interface could not be rendered. Please try again.")]]

end Handlers

end A2ui
end AgUi
