import AgUi.Enforce.Schema
import AgUi.Protocol.Event

namespace AgUi
namespace Enforce

open Library Protocol

/-!
# The generated schemas

Every event the protocol knows, with what it refers to.
-/

def looseObject (shape : List (String × Schema)) : Schema :=
  .object shape false

/-- An object its specification leaves open: `.meta({ specOpen: true })`. -/
def openObject (shape : List (String × Schema)) : Schema :=
  .object shape true

def string : Schema := .leaf .string

def optionalString : Schema := .optional string

def literal (value : String) : Schema := .leaf (.literal value)

/-- `z.any().refine((value) => value !== null).optional()`. -/
def optionalValue : Schema := .optional (.leaf .notNull)

def definedValue : Schema := .leaf .defined

def metadataSchema : Schema := .leaf .plainObject

def subagentRunIdSchema : Schema := string

def textMessageRoleSchema : Schema := .leaf (.enum ["developer", "system", "assistant", "user"])

/-! ## Content parts -/

def textPartSchema : Schema :=
  looseObject
    [("type", literal "text"), ("id", optionalString), ("text", string), ("metadata", optionalValue)]

def dataSourceSchema : Schema :=
  looseObject [("type", literal "data"), ("value", string), ("mimeType", string)]

def urlSourceSchema : Schema :=
  looseObject [("type", literal "url"), ("value", string), ("mimeType", optionalString)]

def fileSourceSchema : Schema :=
  looseObject
    [("type", literal "file"), ("value", string), ("provider", optionalString), ("mimeType", optionalString)]

def partSourceSchema : Schema :=
  .discriminatedUnion "type" [dataSourceSchema, urlSourceSchema, fileSourceSchema]

/-- The image, audio, video and document parts. -/
def mediaPartSchema (type : String) : Schema :=
  looseObject
    [("type", literal type), ("id", optionalString), ("source", partSourceSchema), ("metadata", optionalValue)]

def imagePartSchema : Schema := mediaPartSchema "image"

def audioPartSchema : Schema := mediaPartSchema "audio"

def videoPartSchema : Schema := mediaPartSchema "video"

def documentPartSchema : Schema := mediaPartSchema "document"

def contentPartSchema : Schema :=
  .discriminatedUnion "type"
    [textPartSchema, imagePartSchema, audioPartSchema, videoPartSchema, documentPartSchema]

def contentSchema : Schema := .union [string, .array contentPartSchema 0]

/-! ## JSON Patch -/

def jsonPointerSchema : Schema := .leaf .jsonPointer

def addOperationSchema : Schema :=
  openObject [("op", literal "add"), ("path", jsonPointerSchema), ("value", definedValue)]

def removeOperationSchema : Schema :=
  openObject [("op", literal "remove"), ("path", jsonPointerSchema)]

def replaceOperationSchema : Schema :=
  openObject [("op", literal "replace"), ("path", jsonPointerSchema), ("value", definedValue)]

def moveOperationSchema : Schema :=
  openObject [("op", literal "move"), ("from", jsonPointerSchema), ("path", jsonPointerSchema)]

def copyOperationSchema : Schema :=
  openObject [("op", literal "copy"), ("from", jsonPointerSchema), ("path", jsonPointerSchema)]

def testOperationSchema : Schema :=
  openObject [("op", literal "test"), ("path", jsonPointerSchema), ("value", definedValue)]

def jsonPatchOperationSchema : Schema :=
  .discriminatedUnion "op"
    [addOperationSchema, removeOperationSchema, replaceOperationSchema, moveOperationSchema,
      copyOperationSchema, testOperationSchema]

def jsonPatchSchema : Schema := .array jsonPatchOperationSchema 0

/-! ## Messages -/

/-- The fields the developer, system, assistant and user messages share. -/
def namedMessage (role : String) : List (String × Schema) :=
  [("subagentRunId", Schema.optional subagentRunIdSchema), ("id", string), ("role", literal role),
    ("name", optionalString), ("encryptedValue", optionalString), ("metadata", Schema.optional metadataSchema)]

def developerMessageSchema : Schema := looseObject (namedMessage "developer" ++ [("content", string)])

def systemMessageSchema : Schema := looseObject (namedMessage "system" ++ [("content", string)])

def functionCallSchema : Schema := looseObject [("name", string), ("arguments", string)]

def toolCallSchema : Schema :=
  looseObject
    [("id", string), ("type", literal "function"), ("function", functionCallSchema),
      ("encryptedValue", optionalString), ("metadata", Schema.optional metadataSchema)]

def assistantMessageSchema : Schema :=
  looseObject
    (namedMessage "assistant" ++
      [("content", optionalString), ("toolCalls", Schema.optional (.array toolCallSchema 0))])

def userMessageSchema : Schema := looseObject (namedMessage "user" ++ [("content", contentSchema)])

def toolMessageSchema : Schema :=
  looseObject
    [("subagentRunId", Schema.optional subagentRunIdSchema), ("id", string), ("role", literal "tool"),
      ("content", contentSchema), ("toolCallId", string), ("error", optionalString),
      ("encryptedValue", optionalString), ("metadata", Schema.optional metadataSchema)]

def activityMessageSchema : Schema :=
  looseObject
    [("subagentRunId", Schema.optional subagentRunIdSchema), ("id", string), ("role", literal "activity"),
      ("activityType", string), ("content", Schema.leaf .plainObject), ("metadata", Schema.optional metadataSchema)]

def reasoningMessageSchema : Schema :=
  looseObject
    [("subagentRunId", Schema.optional subagentRunIdSchema), ("id", string), ("role", literal "reasoning"),
      ("content", string), ("encryptedValue", optionalString), ("metadata", Schema.optional metadataSchema)]

/-- The messages, told apart by their role. -/
def messageSchema : Schema :=
  .discriminatedUnion "role"
    [developerMessageSchema, systemMessageSchema, assistantMessageSchema, userMessageSchema,
      toolMessageSchema, activityMessageSchema, reasoningMessageSchema]

/-! ## The input of a run -/

def toolSchema : Schema :=
  looseObject
    [("name", string), ("description", string), ("parameters", optionalValue),
      ("metadata", Schema.optional metadataSchema)]

def contextSchema : Schema := looseObject [("description", string), ("value", string)]

def resumeEntrySchema : Schema :=
  looseObject
    [("interruptId", string), ("status", Schema.leaf (.enum ["resolved", "cancelled"])), ("payload", optionalValue),
      ("metadata", Schema.optional metadataSchema)]

def runAgentInputSchema : Schema :=
  looseObject
    [("threadId", string), ("runId", string), ("protocolVersion", optionalString),
      ("parentRunId", optionalString), ("state", Schema.optional (.nullAsUndefined (.nullable (.leaf .notNull)))),
      ("messages", Schema.array messageSchema 0), ("tools", .default (.array toolSchema 0) (.array [])),
      ("context", .default (.array contextSchema 0) (.array [])), ("forwardedProps", optionalValue),
      ("resume", Schema.optional (.array resumeEntrySchema 0))]

/-! ## Outcomes and usage -/

def runFinishedSuccessOutcomeSchema : Schema :=
  looseObject [("type", literal "success"), ("pendingToolCallIds", Schema.optional (.array string 0))]

/-- An interrupt, as a run's outcome lists it. -/
def interruptSchema : Schema :=
  looseObject
    [("subagentRunId", Schema.optional subagentRunIdSchema), ("id", string), ("reason", string),
      ("message", optionalString), ("toolCallId", optionalString),
      ("responseSchema", Schema.optional (.leaf .plainObject)), ("expiresAt", optionalString),
      ("metadata", Schema.optional metadataSchema)]

def runFinishedInterruptOutcomeSchema : Schema :=
  looseObject [("type", literal "interrupt"), ("interrupts", Schema.array interruptSchema 1)]

def runFinishedCancelledOutcomeSchema : Schema := looseObject [("type", literal "cancelled")]

def runFinishedOutcomeSchema : Schema :=
  .discriminatedUnion "type"
    [runFinishedSuccessOutcomeSchema, runFinishedInterruptOutcomeSchema, runFinishedCancelledOutcomeSchema]

/-- `Number.MAX_SAFE_INTEGER`, the bound of every integer. -/
def maxSafeInteger : Int := 9007199254740991

def count : Schema := .optional (.leaf (.integer 0 maxSafeInteger))

/-- The counts of one model. -/
def tokenUsageSchema : Schema :=
  looseObject
    [("provider", optionalString), ("model", optionalString), ("inputTokens", count), ("outputTokens", count),
      ("totalTokens", count), ("reasoningTokens", count), ("cachedInputTokens", count),
      ("cacheWriteInputTokens", count)]

def subagentFinishedSuccessOutcomeSchema : Schema := looseObject [("type", literal "success")]

def subagentFinishedSuspendedOutcomeSchema : Schema :=
  looseObject [("type", literal "suspended"), ("interruptIds", Schema.optional (.array string 0))]

def subagentFinishedOutcomeSchema : Schema :=
  .discriminatedUnion "type" [subagentFinishedSuccessOutcomeSchema, subagentFinishedSuspendedOutcomeSchema]

/-! ## Events -/

/-- The fields every event carries. -/
def baseEvent (type : EventType) : List (String × Schema) :=
  [("type", literal type.name),
    ("timestamp", Schema.optional (.leaf (.integer (-maxSafeInteger) maxSafeInteger))), ("rawEvent", optionalValue),
    ("metadata", Schema.optional metadataSchema)]

/-- The fields of an event that can belong to a subagent's work. -/
def attributable (type : EventType) : List (String × Schema) :=
  baseEvent type ++ [("subagentRunId", Schema.optional subagentRunIdSchema)]

/-- The shape of the schema of an event type the protocol knows. -/
def eventShape : EventType -> List (String × Schema)
  | .textMessageStart =>
    attributable .textMessageStart ++
      [("messageId", string), ("role", Schema.optional textMessageRoleSchema), ("name", optionalString)]
  | .textMessageContent => attributable .textMessageContent ++ [("messageId", string), ("delta", string)]
  | .textMessageEnd => attributable .textMessageEnd ++ [("messageId", string)]
  | .textMessageChunk =>
    attributable .textMessageChunk ++
      [("messageId", optionalString), ("role", Schema.optional textMessageRoleSchema), ("delta", optionalString),
        ("name", optionalString)]
  | .toolCallStart =>
    attributable .toolCallStart ++
      [("toolCallId", string), ("toolCallName", string), ("parentMessageId", optionalString)]
  | .toolCallArgs => attributable .toolCallArgs ++ [("toolCallId", string), ("delta", string)]
  | .toolCallEnd => attributable .toolCallEnd ++ [("toolCallId", string)]
  | .toolCallChunk =>
    attributable .toolCallChunk ++
      [("toolCallId", optionalString), ("toolCallName", optionalString), ("parentMessageId", optionalString),
        ("delta", optionalString)]
  | .toolCallResult =>
    attributable .toolCallResult ++
      [("messageId", string), ("toolCallId", string), ("content", contentSchema),
        ("role", Schema.optional (literal "tool"))]
  | .stateSnapshot => attributable .stateSnapshot ++ [("snapshot", definedValue)]
  | .stateDelta => attributable .stateDelta ++ [("delta", jsonPatchSchema)]
  | .messagesSnapshot => baseEvent .messagesSnapshot ++ [("messages", Schema.array messageSchema 0)]
  | .activitySnapshot =>
    attributable .activitySnapshot ++
      [("messageId", string), ("activityType", string), ("content", Schema.leaf .plainObject),
        ("replace", Schema.optional (.leaf .boolean))]
  | .activityDelta =>
    attributable .activityDelta ++
      [("messageId", string), ("activityType", string), ("patch", jsonPatchSchema)]
  | .raw => attributable .raw ++ [("event", definedValue), ("source", optionalString)]
  | .custom => attributable .custom ++ [("name", string), ("value", definedValue)]
  | .runStarted =>
    baseEvent .runStarted ++
      [("threadId", string), ("runId", string), ("protocolVersion", optionalString),
        ("parentRunId", optionalString), ("input", Schema.optional runAgentInputSchema)]
  | .runFinished =>
    baseEvent .runFinished ++
      [("threadId", string), ("runId", string), ("result", optionalValue),
        ("outcome", Schema.optional runFinishedOutcomeSchema), ("usage", Schema.optional (.array tokenUsageSchema 0))]
  | .runError =>
    baseEvent .runError ++
      [("message", string), ("code", optionalString), ("usage", Schema.optional (.array tokenUsageSchema 0))]
  | .stepStarted => attributable .stepStarted ++ [("stepName", string)]
  | .stepFinished => attributable .stepFinished ++ [("stepName", string)]
  | .reasoningStart => attributable .reasoningStart ++ [("messageId", string)]
  | .reasoningMessageStart =>
    attributable .reasoningMessageStart ++ [("messageId", string), ("role", literal "reasoning")]
  | .reasoningMessageContent =>
    attributable .reasoningMessageContent ++ [("messageId", string), ("delta", string)]
  | .reasoningMessageEnd => attributable .reasoningMessageEnd ++ [("messageId", string)]
  | .reasoningMessageChunk =>
    attributable .reasoningMessageChunk ++ [("messageId", optionalString), ("delta", optionalString)]
  | .reasoningEnd => attributable .reasoningEnd ++ [("messageId", string)]
  | .reasoningEncryptedValue =>
    attributable .reasoningEncryptedValue ++
      [("subtype", Schema.leaf (.enum ["tool-call", "message"])), ("entityId", string), ("encryptedValue", string)]
  | .subagentStarted =>
    baseEvent .subagentStarted ++
      [("subagentRunId", subagentRunIdSchema), ("name", string), ("description", optionalString),
        ("parentSubagentRunId", Schema.optional subagentRunIdSchema), ("parentToolCallId", optionalString),
        ("parentMessageId", optionalString)]
  | .subagentFinished =>
    baseEvent .subagentFinished ++
      [("subagentRunId", subagentRunIdSchema), ("result", optionalValue),
        ("outcome", Schema.optional subagentFinishedOutcomeSchema)]
  | .subagentError =>
    baseEvent .subagentError ++
      [("subagentRunId", subagentRunIdSchema), ("message", string), ("code", optionalString)]
  | .other _ => []

/-- The names a schema describes. -/
def describedFields (type : EventType) : List String :=
  (eventShape type).map Prod.fst

/-- The values of the `EventType` enumeration. -/
def knownEventTypes : List EventType :=
  [.textMessageStart, .textMessageContent, .textMessageEnd, .textMessageChunk, .toolCallStart, .toolCallArgs,
    .toolCallEnd, .toolCallChunk, .toolCallResult, .stateSnapshot, .stateDelta, .messagesSnapshot,
    .activitySnapshot, .activityDelta, .raw, .custom, .runStarted, .runFinished, .runError, .stepStarted,
    .stepFinished, .reasoningStart, .reasoningMessageStart, .reasoningMessageContent, .reasoningMessageEnd,
    .reasoningMessageChunk, .reasoningEnd, .reasoningEncryptedValue, .subagentStarted, .subagentFinished,
    .subagentError]

/-- `EventSchema`, the union of all of them. -/
def eventSchema : Schema :=
  .discriminatedUnion "type" (knownEventTypes.map fun type => looseObject (eventShape type))

end Enforce
end AgUi
