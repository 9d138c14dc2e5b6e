import AgUi.Middleware.CompatibilityBoundary
import AgUi.Verify.Verifier

namespace AgUi
namespace Middleware
namespace Boundary

open Library Protocol Verify

/-!
# What the verifier reads of an object

Behind the boundary an event is still an object.  `read?` is the event the
verifier finds there: of what it looks at, every field, and of other optional
fields none.  There is no event where a required field is missing or a field
is not of its type.

A null tag is read as an absent one, as the verifier reads it.  Nulls the
verifier refuses are kept.
-/

/-! ## Fields -/

/-- A text that may be missing; a null counts as missing. -/
def optionalText (value : Json) (key : String) : Option (Option String) :=
  match value.member? key with
  | none => some none
  | some .null => some none
  | some (.string text) => some (some text)
  | some _ => none

def nullableText (value : Json) (key : String) : Option (Nullable String) :=
  match value.member? key with
  | none => some .absent
  | some .null => some .null
  | some (.string text) => some (.value text)
  | some _ => none

def optionalFlag (value : Json) (key : String) : Option (Option Bool) :=
  match value.member? key with
  | none => some none
  | some (.bool flag) => some (some flag)
  | some _ => none

/-- The items of an array, each read; none for an array that is missing or null. -/
def optionalItems {A : Type} (read : Json -> Option A) (value : Json) (key : String) : Option (Option (List A)) :=
  match value.member? key with
  | none => some none
  | some .null => some none
  | some (.array items) => (items.mapM read).map some
  | some _ => none

def requiredItems {A : Type} (read : Json -> Option A) (value : Json) (key : String) : Option (List A) :=
  match value.member? key with
  | some (.array items) => items.mapM read
  | _ => none

def readTag (event : Json) : Option Tag :=
  (optionalText event "subagentRunId").map Nullable.ofOption

/-! ## Messages, outcomes and contents -/

def roleNames : List (String × Role) :=
  [("developer", .developer), ("system", .system), ("assistant", .assistant), ("user", .user), ("tool", .tool),
   ("activity", .activity), ("reasoning", .reasoning)]

def readToolCall (call : Json) : Option ToolCall :=
  (textField call "id").map fun id => { id := id, function := { name := "", arguments := "" } }

def readMessage (message : Json) : Option Message := do
  let id <- textField message "id"
  let roleName <- textField message "role"
  let role <- roleNames.lookup roleName
  let toolCalls <- optionalItems readToolCall message "toolCalls"
  let subagentRunId <- nullableText message "subagentRunId"
  some { id := id, role := role, toolCalls := toolCalls, subagentRunId := subagentRunId }

def readInput (event : Json) : Option (Option RunAgentInput) :=
  match event.member? "input" with
  | none => some none
  | some input =>
    if input.isNull then some none
    else (requiredItems readMessage input "messages").map fun messages => some { messages := messages }

def readInterrupt (interrupt : Json) : Option Interrupt := do
  let id <- textField interrupt "id"
  let reason <- textField interrupt "reason"
  let subagentRunId <- nullableText interrupt "subagentRunId"
  some { id := id, reason := reason, subagentRunId := subagentRunId }

def readRunOutcome (outcome : Json) : Option RunFinishedOutcome := do
  let kind <- textField outcome "type"
  if kind = "success" then some (.success none)
  else if kind = "interrupt" then (requiredItems readInterrupt outcome "interrupts").map .interrupt
  else if kind = "cancelled" then some .cancelled
  else none

def readOutcome (event : Json) : Option (Option RunFinishedOutcome) :=
  match event.member? "outcome" with
  | none => some none
  | some .null => some none
  | some outcome => (readRunOutcome outcome).map some

def readContent (event : Json) : Option Content :=
  match event.member? "content" with
  | some (.string text) => some (.text text)
  | some (.array items) => some (.parts items)
  | _ => none

/-- The property of a lifecycle event its schema does not describe and the verifier looks at. -/
def readStrayOutcome (event : Json) : Properties :=
  OrderedMap.ofList ((event.member? "outcome").toList.map fun outcome => ("outcome", outcome))

def encryptedSubtypes : List (String × ReasoningEncryptedValueSubtype) :=
  [("tool-call", .toolCall), ("message", .message)]

/-! ## Events -/

/-- The event of this type, if its required fields are there. -/
def readAs (type : EventType) (tag : Tag) (event : Json) : Option Event :=
  match type with
  | .textMessageStart => do
      let messageId <- textField event "messageId"
      some (.textMessageStart { messageId := messageId, subagentRunId := tag })
  | .textMessageContent => do
      let messageId <- textField event "messageId"
      let delta <- textField event "delta"
      some (.textMessageContent { messageId := messageId, delta := delta, subagentRunId := tag })
  | .textMessageEnd => do
      let messageId <- textField event "messageId"
      some (.textMessageEnd { messageId := messageId, subagentRunId := tag })
  | .textMessageChunk => some (.textMessageChunk { subagentRunId := tag })
  | .toolCallStart => do
      let toolCallId <- textField event "toolCallId"
      let toolCallName <- textField event "toolCallName"
      let parentMessageId <- optionalText event "parentMessageId"
      some (.toolCallStart
        { toolCallId := toolCallId, toolCallName := toolCallName, parentMessageId := parentMessageId
          subagentRunId := tag })
  | .toolCallArgs => do
      let toolCallId <- textField event "toolCallId"
      let delta <- textField event "delta"
      some (.toolCallArgs { toolCallId := toolCallId, delta := delta, subagentRunId := tag })
  | .toolCallEnd => do
      let toolCallId <- textField event "toolCallId"
      some (.toolCallEnd { toolCallId := toolCallId, subagentRunId := tag })
  | .toolCallChunk => some (.toolCallChunk { subagentRunId := tag })
  | .toolCallResult => do
      let messageId <- textField event "messageId"
      let toolCallId <- textField event "toolCallId"
      let content <- readContent event
      some (.toolCallResult
        { messageId := messageId, toolCallId := toolCallId, content := content, subagentRunId := tag })
  | .stateSnapshot => do
      let snapshot <- event.member? "snapshot"
      some (.stateSnapshot { snapshot := snapshot, subagentRunId := tag })
  | .stateDelta => do
      let delta <- event.member? "delta"
      some (.stateDelta { delta := delta, subagentRunId := tag })
  | .messagesSnapshot => do
      let messages <- requiredItems readMessage event "messages"
      some (.messagesSnapshot { messages := messages })
  | .activitySnapshot => do
      let messageId <- textField event "messageId"
      let activityType <- textField event "activityType"
      let content <- event.member? "content"
      let replace <- optionalFlag event "replace"
      some (.activitySnapshot
        { messageId := messageId, activityType := activityType, content := content, replace := replace
          subagentRunId := tag })
  | .activityDelta => do
      let messageId <- textField event "messageId"
      let activityType <- textField event "activityType"
      let patch <- event.member? "patch"
      some (.activityDelta
        { messageId := messageId, activityType := activityType, patch := patch, subagentRunId := tag })
  | .raw => do
      let payload <- event.member? "event"
      some (.raw { event := payload, subagentRunId := tag })
  | .custom => do
      let name <- textField event "name"
      let value <- event.member? "value"
      some (.custom { name := name, value := value, subagentRunId := tag })
  | .runStarted => do
      let threadId <- textField event "threadId"
      let runId <- textField event "runId"
      let input <- readInput event
      some (.runStarted { threadId := threadId, runId := runId, input := input })
  | .runFinished => do
      let threadId <- textField event "threadId"
      let runId <- textField event "runId"
      let outcome <- readOutcome event
      some (.runFinished { threadId := threadId, runId := runId, outcome := outcome })
  | .runError => do
      let message <- textField event "message"
      some (.runError { message := message })
  | .stepStarted => do
      let stepName <- textField event "stepName"
      some (.stepStarted { stepName := stepName, subagentRunId := tag })
  | .stepFinished => do
      let stepName <- textField event "stepName"
      some (.stepFinished { stepName := stepName, subagentRunId := tag })
  | .reasoningStart => do
      let messageId <- textField event "messageId"
      some (.reasoningStart { messageId := messageId, subagentRunId := tag })
  | .reasoningMessageStart => do
      let messageId <- textField event "messageId"
      some (.reasoningMessageStart { messageId := messageId, subagentRunId := tag })
  | .reasoningMessageContent => do
      let messageId <- textField event "messageId"
      let delta <- textField event "delta"
      some (.reasoningMessageContent { messageId := messageId, delta := delta, subagentRunId := tag })
  | .reasoningMessageEnd => do
      let messageId <- textField event "messageId"
      some (.reasoningMessageEnd { messageId := messageId, subagentRunId := tag })
  | .reasoningMessageChunk => some (.reasoningMessageChunk { subagentRunId := tag })
  | .reasoningEnd => do
      let messageId <- textField event "messageId"
      some (.reasoningEnd { messageId := messageId, subagentRunId := tag })
  | .reasoningEncryptedValue => do
      let subtypeName <- textField event "subtype"
      let subtype <- encryptedSubtypes.lookup subtypeName
      let entityId <- textField event "entityId"
      let encryptedValue <- textField event "encryptedValue"
      some (.reasoningEncryptedValue
        { subtype := subtype, entityId := entityId, encryptedValue := encryptedValue, subagentRunId := tag })
  | .subagentStarted => do
      let name <- optionalText event "name"
      let description <- nullableText event "description"
      let parentSubagentRunId <- nullableText event "parentSubagentRunId"
      let parentToolCallId <- nullableText event "parentToolCallId"
      let parentMessageId <- nullableText event "parentMessageId"
      some (.subagentStarted
        { name := name, description := description, parentSubagentRunId := parentSubagentRunId
          parentToolCallId := parentToolCallId, parentMessageId := parentMessageId, subagentRunId := tag
          extra := readStrayOutcome event })
  | .subagentFinished => some (.subagentFinished { outcome := event.member? "outcome", subagentRunId := tag })
  | .subagentError => do
      let message <- optionalText event "message"
      let code <- nullableText event "code"
      some (.subagentError
        { message := message, code := code, subagentRunId := tag, extra := readStrayOutcome event })
  | .other name => some (.other { type := name, subagentRunId := tag })

def typeOf (name : String) : EventType :=
  (Enforce.knownEventTypes.find? fun type => type.name == name).getD (.other name)

def read? (event : Json) : Option Event := do
  let name <- textField event "type"
  let tag <- readTag event
  readAs (typeOf name) tag event

/-! ## What the boundary leaves readable -/

section Omitting

variable (fields : List String) (value : Json) (key : String)

theorem optionalText_omit : optionalText (omitOptionalNulls fields value) key = optionalText value key := by
  unfold optionalText
  rw [member?_omitOptionalNulls]
  cases value.member? key with
  | none => cases fields.contains key <;> rfl
  | some given => cases given <;> cases fields.contains key <;> rfl

theorem readTag_omit : readTag (omitOptionalNulls fields value) = readTag value := by
  unfold readTag
  rw [optionalText_omit]

theorem readInput_omit : readInput (omitOptionalNulls fields value) = readInput value := by
  unfold readInput
  rw [member?_omitOptionalNulls]
  cases value.member? "input" with
  | none => cases fields.contains "input" <;> rfl
  | some given => cases given <;> cases fields.contains "input" <;> rfl

theorem readOutcome_omit : readOutcome (omitOptionalNulls fields value) = readOutcome value := by
  unfold readOutcome
  rw [member?_omitOptionalNulls]
  cases value.member? "outcome" with
  | none => cases fields.contains "outcome" <;> rfl
  | some given => cases given <;> cases fields.contains "outcome" <;> rfl

variable {fields key}

theorem member?_omit (unlisted : key ∉ fields) : (omitOptionalNulls fields value).member? key = value.member? key := by
  rw [member?_omitOptionalNulls, List.contains_eq_mem, decide_eq_false unlisted]
  rfl

theorem nullableText_omit (unlisted : key ∉ fields) :
    nullableText (omitOptionalNulls fields value) key = nullableText value key := by
  unfold nullableText
  rw [member?_omit value unlisted]

end Omitting

/-- The fields of a type in which the verifier tells a null from an absent field, or takes any value. -/
def sharpFields : EventType -> List String
  | .toolCallResult => ["content"]
  | .stateSnapshot => ["snapshot"]
  | .stateDelta => ["delta"]
  | .messagesSnapshot => ["messages"]
  | .activitySnapshot => ["content", "replace"]
  | .activityDelta => ["patch"]
  | .raw => ["event"]
  | .custom => ["value"]
  | .subagentStarted => ["description", "parentSubagentRunId", "parentToolCallId", "parentMessageId", "outcome"]
  | .subagentFinished => ["outcome"]
  | .subagentError => ["code", "outcome"]
  | _ => []

theorem readAs_omit {type : EventType} {fields : List String}
    (sharp : ∀ key ∈ sharpFields type, key ∉ fields) (tag : Tag) (event : Json) :
    readAs type tag (omitOptionalNulls fields event) = readAs type tag event := by
  cases type with
  | toolCallResult =>
    have content := member?_omit event (sharp "content" (by decide))
    simp only [readAs, textField_omitOptionalNulls, readContent, content]
  | stateSnapshot =>
    simp only [readAs, member?_omit event (sharp "snapshot" (by decide))]
  | stateDelta =>
    simp only [readAs, member?_omit event (sharp "delta" (by decide))]
  | messagesSnapshot =>
    simp only [readAs, requiredItems, member?_omit event (sharp "messages" (by decide))]
  | activitySnapshot =>
    have content := member?_omit event (sharp "content" (by decide))
    have replace := member?_omit event (sharp "replace" (by decide))
    simp only [readAs, textField_omitOptionalNulls, optionalFlag, content, replace]
  | activityDelta =>
    simp only [readAs, textField_omitOptionalNulls, member?_omit event (sharp "patch" (by decide))]
  | raw =>
    simp only [readAs, member?_omit event (sharp "event" (by decide))]
  | custom =>
    simp only [readAs, textField_omitOptionalNulls, member?_omit event (sharp "value" (by decide))]
  | subagentStarted =>
    have description := nullableText_omit event (sharp "description" (by decide))
    have parent := nullableText_omit event (sharp "parentSubagentRunId" (by decide))
    have call := nullableText_omit event (sharp "parentToolCallId" (by decide))
    have message := nullableText_omit event (sharp "parentMessageId" (by decide))
    have outcome := member?_omit event (sharp "outcome" (by decide))
    simp only [readAs, optionalText_omit, readStrayOutcome, description, parent, call, message, outcome]
  | subagentFinished =>
    simp only [readAs, member?_omit event (sharp "outcome" (by decide))]
  | subagentError =>
    have code := nullableText_omit event (sharp "code" (by decide))
    have outcome := member?_omit event (sharp "outcome" (by decide))
    simp only [readAs, optionalText_omit, readStrayOutcome, code, outcome]
  | _ =>
    simp only [readAs, textField_omitOptionalNulls, optionalText_omit, readInput_omit, readOutcome_omit]

/-- No field of the table is one whose null the verifier would have told apart. -/
theorem sharpFields_kept : ∀ type ∈ Enforce.knownEventTypes, ∀ key ∈ sharpFields type,
    key ∉ nullsAt "event" ∧ key ∉ eventTypeNulls (some type.name) := by
  decide

theorem typeOf_cases (name : String) :
    (typeOf name ∈ Enforce.knownEventTypes ∧ (typeOf name).name = name) ∨
      (typeOf name = .other name ∧ eventTypeNulls (some name) = []) := by
  unfold typeOf
  cases found : Enforce.knownEventTypes.find? fun type => type.name == name with
  | some type =>
    have named := List.find?_some found
    exact .inl ⟨List.mem_of_find?_eq_some found, beq_iff_eq.mp named⟩
  | none =>
    refine .inr ⟨rfl, ?_⟩
    have unknown : (Enforce.knownEventTypes.any fun type => type.name == name) = false := by
      refine List.any_eq_false.mpr fun type member => ?_
      exact List.find?_eq_none.mp found type member
    rw [eventTypeNulls, unknown]
    rfl

/-- An event without its optional nulls. -/
def cleaned (event : Json) : Json :=
  omitOptionalNulls (eventTypeNulls (textField event "type")) (omitOptionalNulls (nullsAt "event") event)

theorem textField_cleaned (event : Json) (key : String) : textField (cleaned event) key = textField event key := by
  unfold cleaned
  rw [textField_omitOptionalNulls, textField_omitOptionalNulls]

theorem readTag_cleaned (event : Json) : readTag (cleaned event) = readTag event := by
  unfold cleaned
  rw [readTag_omit, readTag_omit]

theorem readAs_cleaned {event : Json} {name : String} (named : textField event "type" = some name) (tag : Tag) :
    readAs (typeOf name) tag (cleaned event) = readAs (typeOf name) tag event := by
  unfold cleaned
  rw [named]
  rcases typeOf_cases name with ⟨known, same⟩ | ⟨unknown, nulls⟩
  · have kept := sharpFields_kept (typeOf name) known
    rw [same] at kept
    rw [readAs_omit fun key sharp => (kept key sharp).2, readAs_omit fun key sharp => (kept key sharp).1]
  · rw [unknown]
    rfl

/-! ## Messages and runs -/

theorem requiredItems_congr {A : Type} {read : Json -> Option A} {value other : Json} {key : String}
    {change : Json -> Json} (same : other.member? key = (value.member? key).map (mapItems change))
    (keeps : ∀ item, read (change item) = read item) :
    requiredItems read other key = requiredItems read value key := by
  unfold requiredItems
  rw [same]
  cases value.member? key with
  | none => rfl
  | some given =>
    cases given with
    | array items =>
      refine (List.mapM_map).trans ?_
      exact congrArg (fun reader => items.mapM reader) (funext keeps)
    | _ => rfl

/-- The verifier does not look at the content of a message. -/
theorem readMessage_of_member? {message other : Json}
    (same : ∀ key, key ≠ "content" -> other.member? key = message.member? key) :
    readMessage other = readMessage message := by
  have text : ∀ key, key ≠ "content" -> textField other key = textField message key := by
    intro key apart
    rw [textField, same key apart, textField]
  simp only [readMessage, text "id" (by decide), text "role" (by decide), optionalItems, nullableText,
    same "toolCalls" (by decide), same "subagentRunId" (by decide)]

theorem readMessage_normalizeNulls (message : Json) :
    readMessage (normalizeLegacyMessageNulls message) = readMessage message := by
  apply readMessage_of_member?
  intro key apart
  rw [normalizeLegacyMessageNulls, member?_mapProtocolArray, if_neg apart]

theorem readMessage_upgrade (message : Json) : readMessage (upgradeInboundMessage message) = readMessage message := by
  rw [← readMessage_normalizeNulls message]
  unfold upgradeInboundMessage
  dsimp only
  split
  · split
    · apply readMessage_of_member?
      intro key apart
      exact member?_assign_of_ne _ _ apart
    · rfl
  · rfl

theorem readRunOutcome_omit (outcome : Json) :
    readRunOutcome (omitOptionalNulls (nullsAt "RUN_FINISHED.outcome") outcome) = readRunOutcome outcome := by
  have interrupts : (omitOptionalNulls (nullsAt "RUN_FINISHED.outcome") outcome).member? "interrupts" =
      outcome.member? "interrupts" :=
    member?_omit outcome (by decide)
  simp only [readRunOutcome, textField_omitOptionalNulls, requiredItems, interrupts]

theorem readAs_runFinished (tag : Tag) (event : Json) :
    readAs .runFinished tag (normalizeRunFinished event) = readAs .runFinished tag event := by
  have outside : ∀ key, key ≠ "outcome" -> key ≠ "usage" ->
      (normalizeRunFinished event).member? key = event.member? key := by
    intro key notOutcome notUsage
    unfold normalizeRunFinished
    dsimp only
    rw [member?_mapProtocolArray, if_neg notUsage]
    split
    · exact member?_assign_of_ne _ _ notOutcome
    · rfl
  have outcome : (normalizeRunFinished event).member? "outcome" =
      (event.member? "outcome").map (omitOptionalNulls (nullsAt "RUN_FINISHED.outcome")) := by
    unfold normalizeRunFinished
    dsimp only
    rw [member?_mapProtocolArray, if_neg (by decide)]
    cases found : event.member? "outcome" with
    | none => exact found
    | some given =>
      have isObject : event.isObject = true := by
        cases event <;> first | rfl | cases found
      rw [member?_assign isObject, if_pos rfl]
      rfl
  have read : readOutcome (normalizeRunFinished event) = readOutcome event := by
    unfold readOutcome
    rw [outcome]
    cases event.member? "outcome" with
    | none => rfl
    | some given =>
      cases given with
      | object members => exact congrArg (Option.map some) (readRunOutcome_omit _)
      | _ => rfl
  simp only [readAs, textField, outside "threadId" (by decide) (by decide), outside "runId" (by decide) (by decide),
    read]

theorem member?_runAgentInput (input : Json) :
    (normalizeLegacyRunAgentInput input).member? "messages" =
      (input.member? "messages").map (mapItems normalizeLegacyMessageNulls) := by
  unfold normalizeLegacyRunAgentInput
  dsimp only
  rw [member?_mapProtocolArray, if_pos rfl, member?_mapProtocolArray, if_neg (by decide), member?_mapProtocolArray,
    if_neg (by decide), member?_omit _ (by decide)]

theorem isNull_assign (value : Json) (key : String) (field : Json) :
    (assign value key field).isNull = value.isNull := by
  cases value <;> rfl

theorem isNull_mapProtocolArray (field : String) (normalize : Json -> Json) (value : Json) :
    (mapProtocolArray field normalize value).isNull = value.isNull := by
  unfold mapProtocolArray
  split
  · exact isNull_assign _ _ _
  · rfl

theorem isNull_runAgentInput (input : Json) : (normalizeLegacyRunAgentInput input).isNull = input.isNull := by
  unfold normalizeLegacyRunAgentInput
  dsimp only
  rw [isNull_mapProtocolArray, isNull_mapProtocolArray, isNull_mapProtocolArray]
  cases input <;> rfl

theorem readMessages_runAgentInput (input : Json) :
    requiredItems readMessage (mapProtocolArray "messages" upgradeInboundMessage (normalizeLegacyRunAgentInput input))
        "messages" = requiredItems readMessage input "messages" := by
  have upgraded : (mapProtocolArray "messages" upgradeInboundMessage (normalizeLegacyRunAgentInput input)).member?
      "messages" = ((normalizeLegacyRunAgentInput input).member? "messages").map (mapItems upgradeInboundMessage) := by
    rw [member?_mapProtocolArray, if_pos rfl]
  exact (requiredItems_congr upgraded readMessage_upgrade).trans
    (requiredItems_congr (member?_runAgentInput input) readMessage_normalizeNulls)

theorem readAs_runStarted (tag : Tag) (event : Json) :
    readAs .runStarted tag (normalizeRunStarted event) = readAs .runStarted tag event := by
  cases found : event.member? "input" with
  | none =>
    unfold normalizeRunStarted
    rw [found]
  | some input =>
    have written : normalizeRunStarted event =
        assign event "input"
          (mapProtocolArray "messages" upgradeInboundMessage (normalizeLegacyRunAgentInput input)) := by
      unfold normalizeRunStarted
      rw [found]
    have isObject : event.isObject = true := by
      cases event <;> first | rfl | cases found
    have read : readInput (normalizeRunStarted event) = readInput event := by
      unfold readInput
      rw [written, member?_assign isObject, if_pos rfl, found]
      dsimp only
      rw [isNull_mapProtocolArray, isNull_runAgentInput, readMessages_runAgentInput]
    have thread : (normalizeRunStarted event).member? "threadId" = event.member? "threadId" := by
      rw [written, member?_assign_of_ne _ _ (by decide)]
    have run : (normalizeRunStarted event).member? "runId" = event.member? "runId" := by
      rw [written, member?_assign_of_ne _ _ (by decide)]
    simp only [readAs, read, textField, thread, run]

/-! ## Events that are not retired -/

/-- The members in which an event is upgraded in depth. -/
def deepFields : List String :=
  ["outcome", "usage", "messages", "input"]

theorem member?_normalizeEvent (type : Option String) (event : Json) {key : String} (shallow : key ∉ deepFields) :
    (normalizeEvent type event).member? key = event.member? key := by
  have apart : ∀ deep ∈ deepFields, key ≠ deep := by
    rintro deep member rfl
    exact shallow member
  unfold normalizeEvent
  split
  · unfold normalizeRunFinished
    dsimp only
    rw [member?_mapProtocolArray, if_neg (apart "usage" (by decide))]
    split
    · exact member?_assign_of_ne _ _ (apart "outcome" (by decide))
    · rfl
  · split
    · rw [member?_mapProtocolArray, if_neg (apart "messages" (by decide))]
    · split
      · unfold normalizeRunStarted
        split
        · exact member?_assign_of_ne _ _ (apart "input" (by decide))
        · rfl
      · rfl

theorem readAs_normalizeEvent (name : String) (tag : Tag) (event : Json) :
    readAs (typeOf name) tag (normalizeEvent (some name) event) = readAs (typeOf name) tag event := by
  unfold normalizeEvent
  split
  · rename_i same
    cases same
    exact readAs_runFinished tag event
  · split
    · rename_i same
      cases same
      have upgraded : (mapProtocolArray "messages" upgradeInboundMessage event).member? "messages" =
          (event.member? "messages").map (mapItems upgradeInboundMessage) := by
        rw [member?_mapProtocolArray, if_pos rfl]
      have messages := requiredItems_congr upgraded readMessage_upgrade
      have snapshot : typeOf "MESSAGES_SNAPSHOT" = .messagesSnapshot := by decide
      rw [snapshot]
      simp only [readAs, messages]
    · split
      · rename_i same
        cases same
        exact readAs_runStarted tag event
      · rfl

theorem thinkingType?_cleaned (event : Json) : thinkingType? (cleaned event) = thinkingType? event := by
  unfold thinkingType?
  rw [textField_cleaned]

theorem transformEvent_eq (randomUUID : Nat -> String) (state : BoundaryState) (event : Json) :
    transformEvent randomUUID state event =
      match thinkingType? event with
      | some thinking => translate randomUUID state (cleaned event) thinking
      | none => (state, normalizeEvent (textField event "type") (cleaned event)) := by
  rw [← thinkingType?_cleaned]
  rfl

/-- The verifier reads the same off an event that is not retired. -/
theorem read?_transformEvent (randomUUID : Nat -> String) (state : BoundaryState) {event : Json}
    (modern : thinkingType? event = none) : read? (transformEvent randomUUID state event).2 = read? event := by
  rw [transformEvent_eq, modern]
  have same : ∀ key, key ∉ deepFields ->
      (normalizeEvent (textField event "type") (cleaned event)).member? key = (cleaned event).member? key :=
    fun key shallow => member?_normalizeEvent _ _ shallow
  unfold read?
  have type : textField (normalizeEvent (textField event "type") (cleaned event)) "type" = textField event "type" := by
    rw [textField, same "type" (by decide)]
    exact textField_cleaned event "type"
  have tag : readTag (normalizeEvent (textField event "type") (cleaned event)) = readTag event := by
    rw [← readTag_cleaned event, readTag, optionalText, same "subagentRunId" (by decide)]
    rfl
  dsimp only
  rw [type, tag]
  cases named : textField event "type" with
  | none => rfl
  | some name =>
    refine congrArg (fun reader => (readTag event).bind reader) (funext fun tag => ?_)
    rw [readAs_normalizeEvent, readAs_cleaned named]

end Boundary
end Middleware
end AgUi
