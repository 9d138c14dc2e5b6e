import AgUi.Protocol.Event

namespace AgUi
namespace DotnetClient

open Library Protocol

/-!
# Chat response updates and their builders

What the .NET client hands its caller, and the two builders that make updates
out of several events.  `TextMessageBuilder` remembers who speaks in each open
text message.  `ToolCallBuilder` collects the arguments of a call until it
ends, and from then on holds back every update until no completed call waits
for its result.
-/

/-! ## Updates -/

inductive ChatRole where
  | system
  | user
  | assistant
  | developer
  | tool
deriving DecidableEq

/-- `MapChatRole`, for the roles the schema allows a text message. -/
def mapChatRole : TextMessageRole -> ChatRole
  | .system => .system
  | .user => .user
  | .assistant => .assistant
  | .developer => .developer

inductive ChatFinishReason where
  | stop
deriving DecidableEq

/-- The arguments of a function call: the members of a JSON object. -/
abbrev Arguments := List (String × Json)

/-- A call with the arguments that could be parsed. -/
structure FunctionCallContent where
  callId : String
  name : String
  arguments : Option Arguments

structure InterruptRequestContent where
  id : String
  reason : String
  message : Option String
  toolCallId : Option String
  responseSchema : Option Json
  expiresAt : Option String
  metadata : Option Metadata

/-- `additionalCounts` holds the one count without a property of its own. -/
structure UsageDetails where
  inputTokenCount : Option Int
  outputTokenCount : Option Int
  totalTokenCount : Option Int
  reasoningTokenCount : Option Int
  cachedInputTokenCount : Option Int
  additionalCounts : Option (List (String × Int))

/-- The contents of an update. -/
inductive AIContent where
  | text (text : String)
  | textReasoning (text : Option String) (protectedData : Option String)
  | functionCall (call : FunctionCallContent)
  | functionResult (callId result : String)
  | toolApprovalRequest (requestId : String) (call : FunctionCallContent) (rawRepresentation : Interrupt)
  | interruptRequest (request : InterruptRequestContent)
  | error (message : String) (errorCode : Option String)
  | usage (details : UsageDetails)

/-- The last two fields are the entries of `AdditionalProperties` that the
converter writes: the owner, and the marker of an owner already resolved. -/
structure ChatResponseUpdate where
  role : ChatRole := .assistant
  authorName : Option String := none
  conversationId : Option String := none
  responseId : Option String := none
  messageId : Option String := none
  modelId : Option String := none
  finishReason : Option ChatFinishReason := none
  contents : List AIContent := []
  rawRepresentation : Event
  subagentRunId : Option String := none
  ownerResolved : Bool := false

/-- One of the counts has no property of its own and goes to the additional ones. -/
def toUsageDetails (usage : TokenUsage) : UsageDetails where
  inputTokenCount := usage.inputTokens
  outputTokenCount := usage.outputTokens
  totalTokenCount := usage.totalTokens
  reasoningTokenCount := usage.reasoningTokens
  cachedInputTokenCount := usage.cachedInputTokens
  additionalCounts := usage.cacheWriteInputTokens.map fun count => [("CacheWriteInputTokens", count)]

/-- The content as text: a string as it is, of a list of parts the text parts. -/
def contentText : Content -> String
  | .text value => value
  | .parts items => "".intercalate (items.filterMap textOf)
  | .structured _ => ""
where
  textOf (part : Json) : Option String :=
    match part.member? "type" with
    | some (.string "text") => (part.member? "text").bind Json.asString?
    | _ => none

/-! ## Exceptions -/

inductive Thrown where
  | invalidOperation (message : String)
  | json (message : String)

/-! ## The text message builder -/

/-- The messages that are open, with what their updates need of the start. -/
structure TextMessageBuilder where
  activeMessages : OrderedMap String (ChatRole × Option String) := OrderedMap.empty
  conversationId : Option String := none
  responseId : Option String := none

namespace TextMessageBuilder

def setConversationAndResponseIds (builder : TextMessageBuilder) (conversationId responseId : Option String) :
    TextMessageBuilder :=
  { builder with conversationId, responseId }

/-- An absent role means assistant. -/
def addTextStart (builder : TextMessageBuilder) (event : TextMessageStartEvent) : Except Thrown TextMessageBuilder :=
  if builder.activeMessages.has event.messageId then
    .error (.invalidOperation ("Cannot send 'TEXT_MESSAGE_START' event: A text message with ID '" ++ event.messageId ++
      "' is already in progress. Complete it with 'TEXT_MESSAGE_END' first."))
  else
    .ok { builder with
      activeMessages := builder.activeMessages.set event.messageId
        (mapChatRole (event.role.getD .assistant), event.name) }

/-- A delta of a message that is open. -/
def emitTextUpdate (builder : TextMessageBuilder) (event : TextMessageContentEvent) :
    Except Thrown ChatResponseUpdate :=
  match builder.activeMessages.get? event.messageId with
  | none =>
    .error (.invalidOperation ("Cannot send 'TEXT_MESSAGE_CONTENT' event: No active text message found with ID '" ++
      event.messageId ++ "'. Start a text message with 'TEXT_MESSAGE_START' first."))
  | some (role, authorName) =>
    .ok {
      role
      authorName
      conversationId := builder.conversationId
      responseId := builder.responseId
      messageId := some event.messageId
      contents := [.text event.delta]
      rawRepresentation := .textMessageContent event }

def endCurrentMessage (builder : TextMessageBuilder) (event : TextMessageEndEvent) :
    Except Thrown TextMessageBuilder :=
  if builder.activeMessages.has event.messageId then
    .ok { builder with activeMessages := builder.activeMessages.erase event.messageId }
  else
    .error (.invalidOperation ("Cannot send 'TEXT_MESSAGE_END' event: No active text message found with ID '" ++
      event.messageId ++ "'. A 'TEXT_MESSAGE_START' event must be sent first."))

def ensureCompleted (builder : TextMessageBuilder) : Except Thrown Unit :=
  if builder.activeMessages.size ≠ 0 then
    .error (.invalidOperation ("Cannot send 'RUN_FINISHED' while text messages are still active: " ++
      ", ".intercalate builder.activeMessages.keys))
  else .ok ()

def reset (builder : TextMessageBuilder) : TextMessageBuilder :=
  { builder with activeMessages := OrderedMap.empty }

end TextMessageBuilder

/-! ## The tool call builder -/

/-- What is known of a call that is open. -/
structure ToolCallState where
  name : String
  parentMessageId : Option String
  arguments : String := ""

/-- The open calls, and those that have ended with the updates held back for them. -/
structure ToolCallBuilder where
  activeToolCalls : OrderedMap String ToolCallState := OrderedMap.empty
  pendingToolCallIds : OrderedSet String := OrderedMap.empty
  buffer : List ChatResponseUpdate := []
  mintedMessageIds : OrderedMap String String := OrderedMap.empty
  conversationId : Option String := none
  responseId : Option String := none

/-- An interrupt that asks for the approval of a tool call.  The reason is
compared without regard to case. -/
def isToolInterrupt (interrupt : Interrupt) : Bool :=
  decide (interrupt.reason.toList.map Char.toLower = "tool_call".toList) && interrupt.toolCallId.isSome

namespace ToolCallBuilder

/-- While a call waits for its result, updates are held back. -/
def isBuffering (builder : ToolCallBuilder) : Bool :=
  builder.pendingToolCallIds.size != 0

def setIds (builder : ToolCallBuilder) (conversationId responseId : Option String) : ToolCallBuilder :=
  { builder with conversationId, responseId }

/-- An empty parent id counts as none. -/
def startToolCall (builder : ToolCallBuilder) (event : ToolCallStartEvent) : Except Thrown ToolCallBuilder :=
  if builder.activeToolCalls.has event.toolCallId then
    .error (.invalidOperation ("Cannot send 'TOOL_CALL_START' event: A tool call with ID '" ++ event.toolCallId ++
      "' is already in progress. Complete it with 'TOOL_CALL_END' first."))
  else
    let mintedParent := event.parentMessageId.filter (· ≠ "")
    .ok { builder with
      activeToolCalls := builder.activeToolCalls.set event.toolCallId
        { name := event.toolCallName, parentMessageId := mintedParent }
      mintedMessageIds := builder.mintedMessageIds.set event.toolCallId (mintedParent.getD event.toolCallId) }

def appendArgs (builder : ToolCallBuilder) (event : ToolCallArgsEvent) : Except Thrown ToolCallBuilder :=
  match builder.activeToolCalls.get? event.toolCallId with
  | none =>
    .error (.invalidOperation ("Cannot send 'TOOL_CALL_ARGS' event: No active tool call found with ID '" ++
      event.toolCallId ++ "'. Start a tool call with 'TOOL_CALL_START' first."))
  | some state =>
    .ok { builder with
      activeToolCalls := builder.activeToolCalls.set event.toolCallId
        { state with arguments := state.arguments ++ event.delta } }

/-- `deserialize` is the JSON deserializer, asked for an object; it may throw. -/
def deserializeArguments (deserialize : String -> Except Thrown (Option Arguments)) (argsJson : String) :
    Except Thrown (Option Arguments) :=
  if argsJson = "" then .ok none else deserialize argsJson

/-- The arguments are parsed, and the call is held until it is known who carries it out. -/
def endToolCall (deserialize : String -> Except Thrown (Option Arguments)) (builder : ToolCallBuilder)
    (event : ToolCallEndEvent) : Except Thrown ToolCallBuilder :=
  match builder.activeToolCalls.get? event.toolCallId with
  | none =>
    .error (.invalidOperation ("Cannot send 'TOOL_CALL_END' event: No active tool call found with ID '" ++
      event.toolCallId ++ "'. A 'TOOL_CALL_START' event must be sent first."))
  | some state =>
    match deserializeArguments deserialize state.arguments with
    | .error thrown => .error thrown
    | .ok arguments =>
      .ok { builder with
        activeToolCalls := builder.activeToolCalls.erase event.toolCallId
        pendingToolCallIds := builder.pendingToolCallIds.add event.toolCallId
        buffer := builder.buffer ++ [{
          conversationId := builder.conversationId
          responseId := builder.responseId
          messageId := some (state.parentMessageId.getD event.toolCallId)
          contents := [.functionCall { callId := event.toolCallId, name := state.name, arguments }]
          rawRepresentation := .toolCallEnd event }] }

def mintedMessageIdFor (builder : ToolCallBuilder) (toolCallId : String) : Option String :=
  builder.mintedMessageIds.get? toolCallId

/-- The last missing result lets everything go. -/
def addResult (builder : ToolCallBuilder) (toolCallId : String) (resultUpdate : ChatResponseUpdate) :
    ToolCallBuilder × List ChatResponseUpdate :=
  let pendingToolCallIds := builder.pendingToolCallIds.erase toolCallId
  let buffer := builder.buffer ++ [resultUpdate]
  if pendingToolCallIds.size = 0 then ({ builder with pendingToolCallIds, buffer := [] }, buffer)
  else ({ builder with pendingToolCallIds, buffer }, [])

def bufferUpdate (builder : ToolCallBuilder) (update : ChatResponseUpdate) : ToolCallBuilder :=
  { builder with buffer := builder.buffer ++ [update] }

/-- What is held is delivered as it is. -/
def flushAsToolCalls (builder : ToolCallBuilder) : ToolCallBuilder × List ChatResponseUpdate :=
  if builder.buffer.isEmpty then (builder, [])
  else ({ builder with buffer := [], pendingToolCallIds := OrderedMap.empty }, builder.buffer)

/-- The interrupts of tool calls, by the id of the call; the last one counts. -/
def interruptById (interrupts : List Interrupt) : OrderedMap String Interrupt :=
  OrderedMap.ofList ((interrupts.filter isToolInterrupt).filterMap fun interrupt =>
    interrupt.toolCallId.map fun toolCallId => (toolCallId, interrupt))

/-- A held call that was interrupted asks for its approval instead. -/
def approvalOf (interruptById : OrderedMap String Interrupt) (update : ChatResponseUpdate) : ChatResponseUpdate :=
  match update.contents with
  | [.functionCall call] =>
    match interruptById.get? call.callId with
    | some interrupt => {
        conversationId := update.conversationId
        responseId := update.responseId
        messageId := update.messageId
        contents := [.toolApprovalRequest interrupt.id call interrupt]
        rawRepresentation := update.rawRepresentation }
    | none => update
  | _ => update

/-- Calls that an interrupt asks about are delivered as requests for approval. -/
def flushWithInterrupts (builder : ToolCallBuilder) (interrupts : List Interrupt) :
    ToolCallBuilder × List ChatResponseUpdate :=
  if builder.buffer.isEmpty then (builder, [])
  else
    ({ builder with buffer := [], pendingToolCallIds := OrderedMap.empty },
      builder.buffer.map (approvalOf (interruptById interrupts)))

def ensureCompleted (builder : ToolCallBuilder) : Except Thrown Unit :=
  if builder.activeToolCalls.size ≠ 0 then
    .error (.invalidOperation ("Cannot send 'RUN_FINISHED' while tool calls are still active: " ++
      ", ".intercalate builder.activeToolCalls.keys))
  else .ok ()

def reset (builder : ToolCallBuilder) : ToolCallBuilder :=
  { builder with
    activeToolCalls := OrderedMap.empty
    pendingToolCallIds := OrderedMap.empty
    buffer := []
    mintedMessageIds := OrderedMap.empty }

end ToolCallBuilder

end DotnetClient
end AgUi
