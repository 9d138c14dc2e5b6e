import AgUi.Protocol.Values

namespace AgUi
namespace Protocol

open Library

/-!
# Events

One structure for each event type, holding the properties its schema
describes; whatever else a producer sent is in `extra`.  `Event` is their
disjoint union.  `OtherEvent` stands for a type this version of the client
does not know (a retired or a future one), which every stage has to let pass.
-/

inductive EventType where
  | textMessageStart
  | textMessageContent
  | textMessageEnd
  | textMessageChunk
  | toolCallStart
  | toolCallArgs
  | toolCallEnd
  | toolCallChunk
  | toolCallResult
  | stateSnapshot
  | stateDelta
  | messagesSnapshot
  | activitySnapshot
  | activityDelta
  | raw
  | custom
  | runStarted
  | runFinished
  | runError
  | stepStarted
  | stepFinished
  | reasoningStart
  | reasoningMessageStart
  | reasoningMessageContent
  | reasoningMessageEnd
  | reasoningMessageChunk
  | reasoningEnd
  | reasoningEncryptedValue
  | subagentStarted
  | subagentFinished
  | subagentError
  | other (name : String)
deriving DecidableEq

/-- The discriminator as it is spelled on the wire. -/
def EventType.name : EventType -> String
  | textMessageStart => "TEXT_MESSAGE_START"
  | textMessageContent => "TEXT_MESSAGE_CONTENT"
  | textMessageEnd => "TEXT_MESSAGE_END"
  | textMessageChunk => "TEXT_MESSAGE_CHUNK"
  | toolCallStart => "TOOL_CALL_START"
  | toolCallArgs => "TOOL_CALL_ARGS"
  | toolCallEnd => "TOOL_CALL_END"
  | toolCallChunk => "TOOL_CALL_CHUNK"
  | toolCallResult => "TOOL_CALL_RESULT"
  | stateSnapshot => "STATE_SNAPSHOT"
  | stateDelta => "STATE_DELTA"
  | messagesSnapshot => "MESSAGES_SNAPSHOT"
  | activitySnapshot => "ACTIVITY_SNAPSHOT"
  | activityDelta => "ACTIVITY_DELTA"
  | raw => "RAW"
  | custom => "CUSTOM"
  | runStarted => "RUN_STARTED"
  | runFinished => "RUN_FINISHED"
  | runError => "RUN_ERROR"
  | stepStarted => "STEP_STARTED"
  | stepFinished => "STEP_FINISHED"
  | reasoningStart => "REASONING_START"
  | reasoningMessageStart => "REASONING_MESSAGE_START"
  | reasoningMessageContent => "REASONING_MESSAGE_CONTENT"
  | reasoningMessageEnd => "REASONING_MESSAGE_END"
  | reasoningMessageChunk => "REASONING_MESSAGE_CHUNK"
  | reasoningEnd => "REASONING_END"
  | reasoningEncryptedValue => "REASONING_ENCRYPTED_VALUE"
  | subagentStarted => "SUBAGENT_STARTED"
  | subagentFinished => "SUBAGENT_FINISHED"
  | subagentError => "SUBAGENT_ERROR"
  | other name => name

/-- What every event may carry; `extra` are the properties no schema describes. -/
structure BaseEvent where
  timestamp : Option Int := none
  rawEvent : Option Json := none
  metadata : Option Metadata := none
  extra : Properties := OrderedMap.empty

/-- An event that may be attributed to a subagent. -/
structure AttributedEvent extends BaseEvent where
  subagentRunId : Tag := .absent

/-! ## Text messages -/

structure TextMessageStartEvent extends AttributedEvent where
  messageId : String
  role : Option TextMessageRole := none
  name : Option String := none

structure TextMessageContentEvent extends AttributedEvent where
  messageId : String
  delta : String

structure TextMessageEndEvent extends AttributedEvent where
  messageId : String

structure TextMessageChunkEvent extends AttributedEvent where
  messageId : Option String := none
  role : Option TextMessageRole := none
  delta : Option String := none
  name : Option String := none

/-! ## Tool calls -/

structure ToolCallStartEvent extends AttributedEvent where
  toolCallId : String
  toolCallName : String
  parentMessageId : Option String := none

structure ToolCallArgsEvent extends AttributedEvent where
  toolCallId : String
  delta : String

structure ToolCallEndEvent extends AttributedEvent where
  toolCallId : String

structure ToolCallChunkEvent extends AttributedEvent where
  toolCallId : Option String := none
  toolCallName : Option String := none
  parentMessageId : Option String := none
  delta : Option String := none

structure ToolCallResultEvent extends AttributedEvent where
  messageId : String
  toolCallId : String
  content : Content

/-! ## State, snapshots and activities -/

structure StateSnapshotEvent extends AttributedEvent where
  snapshot : Json

structure StateDeltaEvent extends AttributedEvent where
  delta : Json

structure MessagesSnapshotEvent extends BaseEvent where
  messages : List Message

structure ActivitySnapshotEvent extends AttributedEvent where
  messageId : String
  activityType : String
  content : Json
  replace : Option Bool := none

structure ActivityDeltaEvent extends AttributedEvent where
  messageId : String
  activityType : String
  patch : Json

structure RawEvent extends AttributedEvent where
  event : Json
  source : Option String := none

structure CustomEvent extends AttributedEvent where
  name : String
  value : Json

/-! ## Runs and steps -/

/-- The part of the echoed run input that the stages read. -/
structure RunAgentInput where
  messages : List Message

structure RunStartedEvent extends BaseEvent where
  threadId : String
  runId : String
  input : Option RunAgentInput := none

/-- A question to the user, on which the run waits. -/
structure Interrupt where
  id : String
  reason : String
  message : Option String := none
  toolCallId : Option String := none
  responseSchema : Option Json := none
  expiresAt : Option String := none
  metadata : Option Metadata := none
  subagentRunId : Tag := .absent

structure TokenUsage where
  provider : Option String := none
  model : Option String := none
  inputTokens : Option Int := none
  outputTokens : Option Int := none
  totalTokens : Option Int := none
  reasoningTokens : Option Int := none
  cachedInputTokens : Option Int := none
  cacheWriteInputTokens : Option Int := none

/-- How a run ends that does not fail. -/
inductive RunFinishedOutcome where
  | success (pendingToolCallIds : Option (List String))
  | interrupt (interrupts : List Interrupt)
  | cancelled

structure RunFinishedEvent extends BaseEvent where
  threadId : String
  runId : String
  result : Option Json := none
  outcome : Option RunFinishedOutcome := none
  usage : Option (List TokenUsage) := none

structure RunErrorEvent extends BaseEvent where
  message : String
  code : Option String := none
  usage : Option (List TokenUsage) := none

structure StepStartedEvent extends AttributedEvent where
  stepName : String

structure StepFinishedEvent extends AttributedEvent where
  stepName : String

/-! ## Reasoning -/

structure ReasoningStartEvent extends AttributedEvent where
  messageId : String

structure ReasoningMessageStartEvent extends AttributedEvent where
  messageId : String

structure ReasoningMessageContentEvent extends AttributedEvent where
  messageId : String
  delta : String

structure ReasoningMessageEndEvent extends AttributedEvent where
  messageId : String

structure ReasoningMessageChunkEvent extends AttributedEvent where
  messageId : Option String := none
  delta : Option String := none

structure ReasoningEndEvent extends AttributedEvent where
  messageId : String

inductive ReasoningEncryptedValueSubtype where
  | toolCall
  | message
deriving DecidableEq

structure ReasoningEncryptedValueEvent extends AttributedEvent where
  subtype : ReasoningEncryptedValueSubtype
  entityId : String
  encryptedValue : String

/-! ## Subagents

The lifecycle events are the ones whose malformed forms the verifier looks
for by itself, so their fields leave room for them: a missing `name` or
`message`, a `null` in an optional field, any JSON value as `outcome`. -/

structure SubagentStartedEvent extends AttributedEvent where
  name : Option String
  description : Nullable String := .absent
  parentSubagentRunId : Nullable String := .absent
  parentToolCallId : Nullable String := .absent
  parentMessageId : Nullable String := .absent

structure SubagentFinishedEvent extends AttributedEvent where
  result : Option Json := none
  outcome : Option Json := none

structure SubagentErrorEvent extends AttributedEvent where
  message : Option String
  code : Nullable String := .absent

structure OtherEvent extends AttributedEvent where
  type : String

inductive Event where
  | textMessageStart (event : TextMessageStartEvent)
  | textMessageContent (event : TextMessageContentEvent)
  | textMessageEnd (event : TextMessageEndEvent)
  | textMessageChunk (event : TextMessageChunkEvent)
  | toolCallStart (event : ToolCallStartEvent)
  | toolCallArgs (event : ToolCallArgsEvent)
  | toolCallEnd (event : ToolCallEndEvent)
  | toolCallChunk (event : ToolCallChunkEvent)
  | toolCallResult (event : ToolCallResultEvent)
  | stateSnapshot (event : StateSnapshotEvent)
  | stateDelta (event : StateDeltaEvent)
  | messagesSnapshot (event : MessagesSnapshotEvent)
  | activitySnapshot (event : ActivitySnapshotEvent)
  | activityDelta (event : ActivityDeltaEvent)
  | raw (event : RawEvent)
  | custom (event : CustomEvent)
  | runStarted (event : RunStartedEvent)
  | runFinished (event : RunFinishedEvent)
  | runError (event : RunErrorEvent)
  | stepStarted (event : StepStartedEvent)
  | stepFinished (event : StepFinishedEvent)
  | reasoningStart (event : ReasoningStartEvent)
  | reasoningMessageStart (event : ReasoningMessageStartEvent)
  | reasoningMessageContent (event : ReasoningMessageContentEvent)
  | reasoningMessageEnd (event : ReasoningMessageEndEvent)
  | reasoningMessageChunk (event : ReasoningMessageChunkEvent)
  | reasoningEnd (event : ReasoningEndEvent)
  | reasoningEncryptedValue (event : ReasoningEncryptedValueEvent)
  | subagentStarted (event : SubagentStartedEvent)
  | subagentFinished (event : SubagentFinishedEvent)
  | subagentError (event : SubagentErrorEvent)
  | other (event : OtherEvent)

namespace Event

def type : Event -> EventType
  | textMessageStart _ => .textMessageStart
  | textMessageContent _ => .textMessageContent
  | textMessageEnd _ => .textMessageEnd
  | textMessageChunk _ => .textMessageChunk
  | toolCallStart _ => .toolCallStart
  | toolCallArgs _ => .toolCallArgs
  | toolCallEnd _ => .toolCallEnd
  | toolCallChunk _ => .toolCallChunk
  | toolCallResult _ => .toolCallResult
  | stateSnapshot _ => .stateSnapshot
  | stateDelta _ => .stateDelta
  | messagesSnapshot _ => .messagesSnapshot
  | activitySnapshot _ => .activitySnapshot
  | activityDelta _ => .activityDelta
  | raw _ => .raw
  | custom _ => .custom
  | runStarted _ => .runStarted
  | runFinished _ => .runFinished
  | runError _ => .runError
  | stepStarted _ => .stepStarted
  | stepFinished _ => .stepFinished
  | reasoningStart _ => .reasoningStart
  | reasoningMessageStart _ => .reasoningMessageStart
  | reasoningMessageContent _ => .reasoningMessageContent
  | reasoningMessageEnd _ => .reasoningMessageEnd
  | reasoningMessageChunk _ => .reasoningMessageChunk
  | reasoningEnd _ => .reasoningEnd
  | reasoningEncryptedValue _ => .reasoningEncryptedValue
  | subagentStarted _ => .subagentStarted
  | subagentFinished _ => .subagentFinished
  | subagentError _ => .subagentError
  | other event => .other event.type

/-- The properties every event shares. -/
def base : Event -> BaseEvent
  | textMessageStart event => event.toBaseEvent
  | textMessageContent event => event.toBaseEvent
  | textMessageEnd event => event.toBaseEvent
  | textMessageChunk event => event.toBaseEvent
  | toolCallStart event => event.toBaseEvent
  | toolCallArgs event => event.toBaseEvent
  | toolCallEnd event => event.toBaseEvent
  | toolCallChunk event => event.toBaseEvent
  | toolCallResult event => event.toBaseEvent
  | stateSnapshot event => event.toBaseEvent
  | stateDelta event => event.toBaseEvent
  | messagesSnapshot event => event.toBaseEvent
  | activitySnapshot event => event.toBaseEvent
  | activityDelta event => event.toBaseEvent
  | raw event => event.toBaseEvent
  | custom event => event.toBaseEvent
  | runStarted event => event.toBaseEvent
  | runFinished event => event.toBaseEvent
  | runError event => event.toBaseEvent
  | stepStarted event => event.toBaseEvent
  | stepFinished event => event.toBaseEvent
  | reasoningStart event => event.toBaseEvent
  | reasoningMessageStart event => event.toBaseEvent
  | reasoningMessageContent event => event.toBaseEvent
  | reasoningMessageEnd event => event.toBaseEvent
  | reasoningMessageChunk event => event.toBaseEvent
  | reasoningEnd event => event.toBaseEvent
  | reasoningEncryptedValue event => event.toBaseEvent
  | subagentStarted event => event.toBaseEvent
  | subagentFinished event => event.toBaseEvent
  | subagentError event => event.toBaseEvent
  | other event => event.toBaseEvent

/-- The attribution tag.  Run events and `MESSAGES_SNAPSHOT` have none. -/
def subagentRunId : Event -> Tag
  | textMessageStart event => event.subagentRunId
  | textMessageContent event => event.subagentRunId
  | textMessageEnd event => event.subagentRunId
  | textMessageChunk event => event.subagentRunId
  | toolCallStart event => event.subagentRunId
  | toolCallArgs event => event.subagentRunId
  | toolCallEnd event => event.subagentRunId
  | toolCallChunk event => event.subagentRunId
  | toolCallResult event => event.subagentRunId
  | stateSnapshot event => event.subagentRunId
  | stateDelta event => event.subagentRunId
  | activitySnapshot event => event.subagentRunId
  | activityDelta event => event.subagentRunId
  | raw event => event.subagentRunId
  | custom event => event.subagentRunId
  | stepStarted event => event.subagentRunId
  | stepFinished event => event.subagentRunId
  | reasoningStart event => event.subagentRunId
  | reasoningMessageStart event => event.subagentRunId
  | reasoningMessageContent event => event.subagentRunId
  | reasoningMessageEnd event => event.subagentRunId
  | reasoningMessageChunk event => event.subagentRunId
  | reasoningEnd event => event.subagentRunId
  | reasoningEncryptedValue event => event.subagentRunId
  | subagentStarted event => event.subagentRunId
  | subagentFinished event => event.subagentRunId
  | subagentError event => event.subagentRunId
  | other event => event.subagentRunId
  | messagesSnapshot _ => .absent
  | runStarted _ => .absent
  | runFinished _ => .absent
  | runError _ => .absent

/-- The event with `subagentRunId: null` removed, which is how a stage that
reads the null as absent passes the event on. -/
def withoutNullTag : Event -> Event
  | textMessageStart event => textMessageStart { event with subagentRunId := event.subagentRunId.withoutNull }
  | textMessageContent event => textMessageContent { event with subagentRunId := event.subagentRunId.withoutNull }
  | textMessageEnd event => textMessageEnd { event with subagentRunId := event.subagentRunId.withoutNull }
  | textMessageChunk event => textMessageChunk { event with subagentRunId := event.subagentRunId.withoutNull }
  | toolCallStart event => toolCallStart { event with subagentRunId := event.subagentRunId.withoutNull }
  | toolCallArgs event => toolCallArgs { event with subagentRunId := event.subagentRunId.withoutNull }
  | toolCallEnd event => toolCallEnd { event with subagentRunId := event.subagentRunId.withoutNull }
  | toolCallChunk event => toolCallChunk { event with subagentRunId := event.subagentRunId.withoutNull }
  | toolCallResult event => toolCallResult { event with subagentRunId := event.subagentRunId.withoutNull }
  | stateSnapshot event => stateSnapshot { event with subagentRunId := event.subagentRunId.withoutNull }
  | stateDelta event => stateDelta { event with subagentRunId := event.subagentRunId.withoutNull }
  | activitySnapshot event => activitySnapshot { event with subagentRunId := event.subagentRunId.withoutNull }
  | activityDelta event => activityDelta { event with subagentRunId := event.subagentRunId.withoutNull }
  | raw event => raw { event with subagentRunId := event.subagentRunId.withoutNull }
  | custom event => custom { event with subagentRunId := event.subagentRunId.withoutNull }
  | stepStarted event => stepStarted { event with subagentRunId := event.subagentRunId.withoutNull }
  | stepFinished event => stepFinished { event with subagentRunId := event.subagentRunId.withoutNull }
  | reasoningStart event => reasoningStart { event with subagentRunId := event.subagentRunId.withoutNull }
  | reasoningMessageStart event => reasoningMessageStart { event with subagentRunId := event.subagentRunId.withoutNull }
  | reasoningMessageContent event =>
    reasoningMessageContent { event with subagentRunId := event.subagentRunId.withoutNull }
  | reasoningMessageEnd event => reasoningMessageEnd { event with subagentRunId := event.subagentRunId.withoutNull }
  | reasoningMessageChunk event => reasoningMessageChunk { event with subagentRunId := event.subagentRunId.withoutNull }
  | reasoningEnd event => reasoningEnd { event with subagentRunId := event.subagentRunId.withoutNull }
  | reasoningEncryptedValue event =>
    reasoningEncryptedValue { event with subagentRunId := event.subagentRunId.withoutNull }
  | subagentStarted event => subagentStarted { event with subagentRunId := event.subagentRunId.withoutNull }
  | subagentFinished event => subagentFinished { event with subagentRunId := event.subagentRunId.withoutNull }
  | subagentError event => subagentError { event with subagentRunId := event.subagentRunId.withoutNull }
  | other event => other { event with subagentRunId := event.subagentRunId.withoutNull }
  | messagesSnapshot event => messagesSnapshot event
  | runStarted event => runStarted event
  | runFinished event => runFinished event
  | runError event => runError event

def metadata (event : Event) : Option Metadata := event.base.metadata

def rawEvent (event : Event) : Option Json := event.base.rawEvent

def extra (event : Event) : Properties := event.base.extra

/-- The chunk shorthand of the three streamed kinds. -/
def isChunk : Event -> Bool
  | textMessageChunk _ => true
  | toolCallChunk _ => true
  | reasoningMessageChunk _ => true
  | _ => false

/-- The lifecycle events of a subagent. -/
def isSubagentLifecycle : Event -> Bool
  | subagentStarted _ => true
  | subagentFinished _ => true
  | subagentError _ => true
  | _ => false

end Event

end Protocol
end AgUi
