import AgUi.Apply.Reducer

namespace AgUi
namespace Legacy

open Library Protocol

/-!
# The bridge to the legacy protocol

The bridge answers each event with the events an older runtime knows.  It keeps
the tool calls that were started, with the arguments they have so far, to
predict the state from them, and forgets them at every step.

It can fail in two places.  The value of a `PredictState` event is whatever the
producer put there, and is searched as an array of objects; and a result is
flattened to its text.
-/

/-- What the bridge takes from the language and from libraries. -/
structure Runtime where
  applyPatch : Apply.ApplyPatch
  /-- `JSON.parse`, with the text of what it throws. -/
  parse : String -> Except String Json
  untruncateJson : String -> String
  /-- `value == text` for a value that is neither a string nor `null`, with
  `none` where the conversion throws. -/
  looselyEqual : Json -> String -> Option Bool
  /-- A value that is no string as a property key, with `none` where the conversion throws. -/
  toPropertyKey : Json -> Option String
  /-- `value[key]` where `key in value` and the member is not an object's own. -/
  otherMember : Json -> String -> Option Json
  /-- Messages as the JSON values they are. -/
  messagesJson : List Message -> Json

/-! ## The legacy protocol -/

structure LegacyTextMessage where
  id : String
  role : Role
  content : String

structure LegacyActionExecutionMessage where
  id : String
  name : String
  arguments : Json
  parentMessageId : String

structure LegacyResultMessage where
  id : String
  result : String
  actionExecutionId : Option String
  actionName : String

inductive LegacyMessage where
  | text (message : LegacyTextMessage)
  | actionExecution (message : LegacyActionExecutionMessage)
  | result (message : LegacyResultMessage)

/-- What stands under `messages` in a state that is sent, in place of what the state has there. -/
inductive SentMessages where
  | none
  | synced (messages : List Message)
  | legacy (messages : List LegacyMessage)

structure LegacyAgentStateMessage where
  threadId : String
  agentName : String
  nodeName : String
  runId : String
  running : Bool
  active : Bool
  /-- The document whose JSON text is sent. -/
  state : Json
  messages : SentMessages := .none

/-- The name a result is routed on.  An id that is a member of every object
names that member, which is no string. -/
inductive ActionName where
  | name (text : String)
  | inherited (member : String)
deriving DecidableEq

/-- The events of the older protocol. -/
inductive LegacyEvent where
  | textMessageStart (messageId : String) (role : Option TextMessageRole)
  | textMessageContent (messageId content : String)
  | textMessageEnd (messageId : String)
  | actionExecutionStart (actionExecutionId actionName : String) (parentMessageId : Option String)
  | actionExecutionArgs (actionExecutionId args : String)
  | actionExecutionEnd (actionExecutionId : String)
  | actionExecutionResult (actionExecutionId : String) (actionName : ActionName) (result : String)
  | agentStateMessage (message : LegacyAgentStateMessage)
  | metaEvent (name : String) (value : Json)
  | runError (message : String) (code : Option String)

/-! ## Content -/

/-- The text of a content part, with nothing for a part of another type. -/
def partText (part : Json) : Option (Option String) :=
  match part with
  | .object _ =>
    match part.member? "type" with
    | some (.string "text") => (part.member? "text").bind fun text => text.asString?.map some
    | _ => some none
  | _ => none

/-- The texts of content parts, or `none` if some part is not of its declared type. -/
def partTexts (parts : List Json) : Option (List String) :=
  (parts.mapM partText).map fun texts => texts.filterMap id

/-- `contentToText`, which throws on what is neither a text nor parts. -/
def contentToText : Content -> Option String
  | .text text => some text
  | .parts parts => (partTexts parts).map String.join
  | .structured _ => none

/-- `undefined` where nothing is left. -/
def flattenMessageContentToText : Option Content -> Option String
  | some (.text text) => some text
  | some (.parts parts) =>
    match ((partTexts parts).getD []).filter fun text => text.length > 0 with
    | [] => none
    | texts => some ("\n".intercalate texts)
  | _ => none

/-! ## Messages -/

/-- The calls of an assistant message, as messages of their own. -/
def legacyCalls (runtime : Runtime) (message : Message) :
    List ToolCall -> Except String (List LegacyMessage)
  | [] => .ok []
  | call :: rest =>
    match runtime.parse call.function.arguments with
    | .error text =>
      .error ("Failed to parse arguments for tool call '" ++ call.id ++ "' (" ++ call.function.name ++ "): " ++ text)
    | .ok arguments =>
      (legacyCalls runtime message rest).map fun later =>
        .actionExecution
          { id := call.id
            name := call.function.name
            arguments := arguments
            parentMessageId := message.id } :: later

/-- The name of the call a tool message answers, in the last message that has it. -/
def answeredName (messages : List Message) (toolCallId : Option String) : String :=
  messages.foldl
    (fun actionName message =>
      if message.role = .assistant then
        ((message.calls.find? fun call => some call.id = toolCallId).map fun call => call.function.name).getD actionName
      else actionName)
    "unknown"

def convertMessage (runtime : Runtime) (messages : List Message) (message : Message) :
    Except String (List LegacyMessage) :=
  match message.role with
  | .assistant | .user | .system =>
    let text :=
      match flattenMessageContentToText message.content with
      | some text => if text = "" then [] else [LegacyMessage.text ⟨message.id, message.role, text⟩]
      | none => []
    if message.role = .assistant then (legacyCalls runtime message message.calls).map fun calls => text ++ calls
    else .ok text
  | .tool =>
    match contentToText (message.content.getD (.text "")) with
    | none => .error "content is not text or content parts"
    | some result =>
      .ok
        [.result
          { id := message.id
            result := result
            actionExecutionId := message.toolCallId
            actionName := answeredName messages message.toolCallId }]
  | _ => .ok []

/-- One message may become several: its text and each of its calls. -/
def convertMessagesToLegacyFormat (runtime : Runtime) (messages : List Message) : Except String (List LegacyMessage) :=
  (messages.mapM (convertMessage runtime messages)).map List.flatten

/-! ## State -/

structure LegacyState where
  currentState : Json := .object []
  running : Bool := true
  active : Bool := true
  nodeName : String := ""
  syncedMessages : Option (List Message) := none
  predictState : Option Json := none
  currentToolCalls : List ToolCall := []
  toolCallNames : OrderedMap String String := OrderedMap.empty

/-- `{ ...value }` -/
def spread : Json -> List (String × Json)
  | .object members => members
  | .array items => items.zipIdx.map fun entry => (toString entry.2, entry.1)
  | _ => []

/-- The legacy protocol supports object state only, and keeps the messages apart. -/
def updateCurrentState (state : LegacyState) : Json -> LegacyState
  | .object members =>
    { state with currentState := .object (members.filter fun member => member.1 ≠ "messages") }
  | .array items => { state with currentState := .array items }
  | _ => state

def truthy : Json -> Bool
  | .null => false
  | .bool value => value
  | .number value => value ≠ 0
  | .string value => value ≠ ""
  | _ => true

/-! ## Predictive state -/

/-- `s.tool == name`, with `none` where it throws. -/
def namesTool (runtime : Runtime) (entry : Json) (name : String) : Option Bool :=
  match entry with
  | .null => none
  | entry =>
    match entry.member? "tool" with
    | none => some false
    | some .null => some false
    | some (.string tool) => some (tool = name)
    | some tool => runtime.looselyEqual tool name

/-- The first entry for a tool, with `none` where the search throws. -/
def findEntry (runtime : Runtime) (name : String) : List Json -> Option (Option Json)
  | [] => some none
  | entry :: rest =>
    match namesTool runtime entry name with
    | none => none
    | some true => some (some entry)
    | some false => findEntry runtime name rest

/-- `predictState.find(…)`, which only an array has. -/
def findPredictState (runtime : Runtime) (predictState : Option Json) (name : String) : Option (Option Json) :=
  match predictState with
  | none => some none
  | some value =>
    if truthy value then
      match value with
      | .array entries => findEntry runtime name entries
      | _ => none
    else some none

def propertyKey (runtime : Runtime) : Option Json -> Option String
  | none => some "undefined"
  | some (.string key) => some key
  | some value => runtime.toPropertyKey value

/-- `value[key]` where `key in value`. -/
def memberIn (runtime : Runtime) (value : Json) (key : String) : Option Json :=
  (value.member? key).or (runtime.otherMember value key)

/-- The state an entry predicts from the arguments so far.  What throws here is
expected to, and predicts nothing. -/
def predicted (runtime : Runtime) (currentState entry : Json) (arguments : String) : Option Json :=
  match runtime.parse (runtime.untruncateJson arguments) with
  | .error _ => none
  | .ok currentArgs =>
    let argument := entry.member? "tool_argument"
    let value :=
      if argument.any truthy then (propertyKey runtime argument).bind (memberIn runtime currentArgs)
      else some currentArgs
    value.bind fun value =>
      (propertyKey runtime (entry.member? "state_key")).map fun key =>
        .object (OrderedMap.setEntries key value (spread currentState))

/-! ## The converter -/

/-- What the conversion knows of the run. -/
structure Bridge where
  runtime : Runtime
  threadId : String
  runId : String
  agentName : String

inductive LegacyError where
  | predictState
  | content

abbrev LegacyEffect := LegacyState × List LegacyEvent

namespace Bridge

variable (bridge : Bridge)

def agentState (state : LegacyState) (active : Bool) (document : Json) (messages : SentMessages) : LegacyEvent :=
  .agentStateMessage
    { threadId := bridge.threadId
      agentName := bridge.agentName
      nodeName := state.nodeName
      runId := bridge.runId
      running := state.running
      active := active
      state := document
      messages := messages }

/-- A message with the state as it is. -/
def report (state : LegacyState) : LegacyEvent :=
  bridge.agentState state state.active state.currentState .none

/-- `toolCallNames[id] = name`.  An assignment to `__proto__` of a string does nothing. -/
def recordName (names : OrderedMap String String) (id name : String) : OrderedMap String String :=
  if id = "__proto__" then names else names.set id name

def toolCallStart (state : LegacyState) (event : ToolCallStartEvent) : LegacyEffect :=
  ({ state with
      currentToolCalls := state.currentToolCalls ++
        [{ id := event.toolCallId, function := { name := event.toolCallName, arguments := "" } }]
      active := true
      toolCallNames := recordName state.toolCallNames event.toolCallId event.toolCallName },
    [.actionExecutionStart event.toolCallId event.toolCallName event.parentMessageId])

def findCall (state : LegacyState) (toolCallId : String) : Option ToolCall :=
  state.currentToolCalls.find? fun call => call.id = toolCallId

/-- The call with its arguments grown. -/
def growCall (state : LegacyState) (event : ToolCallArgsEvent) : LegacyState :=
  { state with
    currentToolCalls :=
      updateFirst (fun call => call.id = event.toolCallId) (fun call => call.append event.delta)
        state.currentToolCalls }

/-- Arguments of a call that is not known are dropped with a warning. -/
def toolCallArgs (state : LegacyState) (event : ToolCallArgsEvent) : Except LegacyError LegacyEffect :=
  match findCall state event.toolCallId with
  | none => .ok (state, [])
  | some call =>
    let grown := growCall state event
    let args := LegacyEvent.actionExecutionArgs event.toolCallId event.delta
    match findPredictState bridge.runtime state.predictState call.function.name with
    | none => .error .predictState
    | some none => .ok (grown, [args])
    | some (some entry) =>
      match predicted bridge.runtime state.currentState entry (call.append event.delta).function.arguments with
      | none => .ok (grown, [args])
      | some newState =>
        let updated := updateCurrentState grown newState
        .ok (updated, [args, bridge.report updated])

/-- What every object inherits. -/
def objectPrototype : List String :=
  ["constructor", "__defineGetter__", "__defineSetter__", "hasOwnProperty", "__lookupGetter__", "__lookupSetter__",
    "isPrototypeOf", "propertyIsEnumerable", "toString", "valueOf", "__proto__", "toLocaleString"]

/-- `knownName || "unknown"` -/
def actionNameOf (names : OrderedMap String String) (toolCallId : String) : ActionName :=
  match names.get? toolCallId with
  | some name => .name (if name = "" then "unknown" else name)
  | none => if objectPrototype.contains toolCallId then .inherited toolCallId else .name "unknown"

def toolCallResult (state : LegacyState) (event : ToolCallResultEvent) : Except LegacyError LegacyEffect :=
  match contentToText event.content with
  | none => .error .content
  | some result =>
    .ok (state,
      [.actionExecutionResult event.toolCallId (actionNameOf state.toolCallNames event.toolCallId) result])

def custom (state : LegacyState) (event : CustomEvent) : LegacyEffect :=
  let next :=
    if event.name = "Exit" then { state with running := false }
    else if event.name = "PredictState" then { state with predictState := some event.value }
    else state
  (next, [.metaEvent event.name event.value])

def stateSnapshot (state : LegacyState) (event : StateSnapshotEvent) : LegacyEffect :=
  let updated := updateCurrentState state event.snapshot
  (updated, [bridge.report updated])

def stateDelta (state : LegacyState) (event : StateDeltaEvent) : LegacyEffect :=
  match bridge.runtime.applyPatch state.currentState event.delta with
  | none => (state, [])
  | some patched =>
    let updated := updateCurrentState state patched
    (updated, [bridge.report updated])

def messagesSnapshot (state : LegacyState) (event : MessagesSnapshotEvent) : LegacyEffect :=
  ({ state with syncedMessages := some event.messages },
    [bridge.agentState state true (.object (spread state.currentState)) (.synced event.messages)])

/-- `currentState.messages = syncedMessages`, which does not show in the text of an array. -/
def syncMessages (state : LegacyState) : LegacyState :=
  match state.syncedMessages, state.currentState with
  | some messages, .object members =>
    { state with
      currentState := .object (OrderedMap.setEntries "messages" (bridge.runtime.messagesJson messages) members) }
  | _, _ => state

def runFinished (state : LegacyState) : LegacyEffect :=
  let synced := bridge.syncMessages state
  let document := Json.object (spread synced.currentState)
  match state.syncedMessages with
  | none =>
    if (spread state.currentState).isEmpty then (synced, [])
    else (synced, [bridge.agentState synced false document .none])
  | some messages =>
    match convertMessagesToLegacyFormat bridge.runtime messages with
    | .error text => (synced, [.runError text none])
    | .ok legacyMessages => (synced, [bridge.agentState synced false document (.legacy legacyMessages)])

/-- A step begins or ends with no calls and no predictions. -/
def forget (state : LegacyState) : LegacyState :=
  { state with
    currentToolCalls := []
    predictState := none }

def stepStarted (state : LegacyState) (event : StepStartedEvent) : LegacyEffect :=
  let next := { forget state with nodeName := event.stepName }
  (next, [bridge.agentState next true next.currentState .none])

def stepFinished (state : LegacyState) : LegacyEffect :=
  let next := forget state
  (next, [bridge.agentState next false next.currentState .none])

def convertToLegacyEvents : Stage LegacyState Event LegacyEvent LegacyError := fun state event =>
  match event with
  | .textMessageStart event => .ok (state, [.textMessageStart event.messageId event.role])
  | .textMessageContent event => .ok (state, [.textMessageContent event.messageId event.delta])
  | .textMessageEnd event => .ok (state, [.textMessageEnd event.messageId])
  | .toolCallStart event => .ok (toolCallStart state event)
  | .toolCallArgs event => bridge.toolCallArgs state event
  | .toolCallEnd event => .ok (state, [.actionExecutionEnd event.toolCallId])
  | .toolCallResult event => toolCallResult state event
  | .custom event => .ok (custom state event)
  | .stateSnapshot event => .ok (bridge.stateSnapshot state event)
  | .stateDelta event => .ok (bridge.stateDelta state event)
  | .messagesSnapshot event => .ok (bridge.messagesSnapshot state event)
  | .runFinished _ => .ok (bridge.runFinished state)
  | .runError event => .ok (state, [.runError event.message event.code])
  | .stepStarted event => .ok (bridge.stepStarted state event)
  | .stepFinished _ => .ok (bridge.stepFinished state)
  | _ => .ok (state, [])

end Bridge

end Legacy
end AgUi
