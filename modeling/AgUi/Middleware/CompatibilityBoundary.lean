import AgUi.Enforce.Schemas
import AgUi.Middleware.LegacyContent

namespace AgUi
namespace Middleware
namespace Boundary

open Library Protocol

/-!
# The compatibility boundary

The boundary reads the raw stream of an agent, in which an event is still the
object it was sent as.  It turns the retired `THINKING_*` events into their
`REASONING_*` equivalents, leaves out the optional fields an older producer
sends as `null`, and upgrades legacy attachments in inbound messages.

A retired event names nothing.  The boundary mints an id at each opener and
remembers it, for the open span and for the open message, until the end event
comes.  What it warns about is left out.
-/

/-! ## Objects -/

/-- `{ ...value, [key]: field }` -/
def assign (value : Json) (key : String) (field : Json) : Json :=
  match value with
  | .object members => .object (OrderedMap.setEntries key field members)
  | value => value

def delete (value : Json) (key : String) : Json :=
  match value with
  | .object members => .object (members.filter fun entry => entry.1 ≠ key)
  | value => value

def textField (value : Json) (key : String) : Option String :=
  (value.member? key).bind Json.asString?

/-! ## Optional nulls -/

/-- Every whole optional field that is read as absent when it is `null`, by where it sits. -/
def OPTIONAL_NULLS : List (String × List String) :=
  [("event", ["rawEvent", "subagentRunId"]),
   ("RUN_STARTED", ["parentRunId", "input"]),
   ("RUN_FINISHED", ["result", "outcome"]),
   ("RUN_ERROR", ["usage"]),
   ("SUBAGENT_FINISHED", ["result"]),
   ("TOOL_CALL_START", ["parentMessageId"]),
   ("TOOL_CALL_CHUNK", ["parentMessageId"]),
   ("TOOL_CALL_RESULT", ["role"]),
   ("RUN_FINISHED.outcome", ["pendingToolCallIds"]),
   ("RUN_FINISHED.usage[]", ["provider", "reasoningTokens", "cachedInputTokens", "cacheWriteInputTokens"]),
   ("RunAgentInput", ["forwardedProps"]),
   ("Tool", ["parameters"]),
   ("ResumeEntry", ["payload"]),
   ("input content", ["metadata"])]

def nullsAt (location : String) : List String :=
  (OPTIONAL_NULLS.lookup location).getD []

/-- `EVENT_TYPE_OPTIONAL_NULLS`: the rows of the table that are event types. -/
def eventTypeNulls (type : Option String) : List String :=
  match type with
  | some name => if Enforce.knownEventTypes.any fun type => type.name == name then nullsAt name else []
  | none => []

/-- The fields of an object that are null go. -/
def omitOptionalNulls (fields : List String) (value : Json) : Json :=
  match value with
  | .object members =>
    .object (members.filter fun entry => !(fields.contains entry.1 && (members.lookup entry.1).any Json.isNull))
  | value => value

def mapItems (normalize : Json -> Json) : Json -> Json
  | .array items => .array (items.map normalize)
  | value => value

def mapProtocolArray (field : String) (normalize : Json -> Json) (value : Json) : Json :=
  match value.member? field with
  | some (.array items) => assign value field (.array (items.map normalize))
  | _ => value

def normalizeInputContent (part : Json) : Json :=
  match textField part "type" with
  | some type =>
    if ["image", "audio", "video", "document"].contains type then omitOptionalNulls (nullsAt "input content") part
    else part
  | none => part

def normalizeLegacyMessageNulls : Json -> Json :=
  mapProtocolArray "content" normalizeInputContent

def normalizeLegacyRunAgentInput (input : Json) : Json :=
  let normalized := omitOptionalNulls (nullsAt "RunAgentInput") input
  let normalized := mapProtocolArray "tools" (omitOptionalNulls (nullsAt "Tool")) normalized
  let normalized := mapProtocolArray "resume" (omitOptionalNulls (nullsAt "ResumeEntry")) normalized
  mapProtocolArray "messages" normalizeLegacyMessageNulls normalized

/-! ## Legacy attachments -/

def hasLegacyBinary (content : List Json) : Bool :=
  content.any fun part => textField part "type" == some "binary"

/-- Old binary parts become parts of their media type. -/
def upgradeInboundMessage (message : Json) : Json :=
  let message := normalizeLegacyMessageNulls message
  match message.member? "content" with
  | some (.array content) =>
    if hasLegacyBinary content then assign message "content" (.array (LegacyContent.upgradeContent content))
    else message
  | _ => message

/-! ## Retired events -/

inductive ThinkingType where
  | start
  | textMessageStart
  | textMessageContent
  | textMessageEnd
  | finish
deriving DecidableEq

namespace ThinkingType

def name : ThinkingType -> String
  | start => "THINKING_START"
  | textMessageStart => "THINKING_TEXT_MESSAGE_START"
  | textMessageContent => "THINKING_TEXT_MESSAGE_CONTENT"
  | textMessageEnd => "THINKING_TEXT_MESSAGE_END"
  | finish => "THINKING_END"

def all : List ThinkingType :=
  [start, textMessageStart, textMessageContent, textMessageEnd, finish]

def reasoningType : ThinkingType -> EventType
  | start => .reasoningStart
  | textMessageStart => .reasoningMessageStart
  | textMessageContent => .reasoningMessageContent
  | textMessageEnd => .reasoningMessageEnd
  | finish => .reasoningEnd

end ThinkingType

def thinkingType? (event : Json) : Option ThinkingType :=
  ThinkingType.all.find? fun thinking => textField event "type" == some thinking.name

structure BoundaryState where
  currentReasoningId : Option String := none
  currentMessageId : Option String := none
  /-- How many ids have been drawn so far. -/
  minted : Nat := 0

/-- The event under the type of its equivalent, with the id it names there. -/
def respell (thinking : ThinkingType) (messageId : String) (event : Json) : Json :=
  assign (assign event "type" (.string thinking.reasoningType.name)) "messageId" (.string messageId)

section

variable (randomUUID : Nat -> String)

/-- The id of the matching opener.  Without one an id is minted, which nothing has opened. -/
def mintedContinuationId (minted : Nat) (established : Option String) : String × Nat :=
  match established with
  | some id => (id, minted)
  | none => (randomUUID minted, minted + 1)

/-- The event as a reasoning event, under the id that is current. -/
def translate (state : BoundaryState) (event : Json) : ThinkingType -> BoundaryState × Json
  | .start =>
    let id := randomUUID state.minted
    ({ state with currentReasoningId := some id, minted := state.minted + 1 },
      respell .start id (delete event "title"))
  | .textMessageStart =>
    let id := randomUUID state.minted
    ({ state with currentMessageId := some id, minted := state.minted + 1 },
      assign (respell .textMessageStart id event) "role" (.string "reasoning"))
  | .textMessageContent =>
    let id := mintedContinuationId randomUUID state.minted state.currentMessageId
    let rest := respell .textMessageContent id.1 (delete event "delta")
    ({ state with minted := id.2 },
      match event.member? "delta" with
      | some delta => assign rest "delta" delta
      | none => rest)
  | .textMessageEnd =>
    let id := mintedContinuationId randomUUID state.minted state.currentMessageId
    ({ state with currentMessageId := none, minted := id.2 }, respell .textMessageEnd id.1 event)
  | .finish =>
    let id := mintedContinuationId randomUUID state.minted state.currentReasoningId
    ({ state with currentReasoningId := none, minted := id.2 }, respell .finish id.1 event)

/-! ## The boundary -/

def normalizeRunFinished (event : Json) : Json :=
  let normalized :=
    match event.member? "outcome" with
    | some outcome => assign event "outcome" (omitOptionalNulls (nullsAt "RUN_FINISHED.outcome") outcome)
    | none => event
  mapProtocolArray "usage" (omitOptionalNulls (nullsAt "RUN_FINISHED.usage[]")) normalized

def normalizeRunStarted (event : Json) : Json :=
  match event.member? "input" with
  | some input =>
    assign event "input" (mapProtocolArray "messages" upgradeInboundMessage (normalizeLegacyRunAgentInput input))
  | none => event

/-- What becomes of an event that is not retired. -/
def normalizeEvent (type : Option String) (event : Json) : Json :=
  if type = some "RUN_FINISHED" then normalizeRunFinished event
  else if type = some "MESSAGES_SNAPSHOT" then mapProtocolArray "messages" upgradeInboundMessage event
  else if type = some "RUN_STARTED" then normalizeRunStarted event
  else event

/-- Nulls are taken out first; thoughts are translated then. -/
def transformEvent (state : BoundaryState) (event : Json) : BoundaryState × Json :=
  let type := textField event "type"
  let event := omitOptionalNulls (nullsAt "event") event
  let event := omitOptionalNulls (eventTypeNulls type) event
  match thinkingType? event with
  | some thinking => translate randomUUID state event thinking
  | none => (state, normalizeEvent type event)

/-- The stream behind the boundary. -/
def transform : BoundaryState -> List Json -> List Json
  | _, [] => []
  | state, event :: rest =>
    let next := transformEvent randomUUID state event
    next.2 :: transform next.1 rest

end

/-! ## Reading what was written -/

theorem member?_assign {value : Json} (isObject : value.isObject = true) (key : String) (field : Json)
    (other : String) :
    (assign value key field).member? other = if other = key then some field else value.member? other := by
  cases value with
  | object members => exact OrderedMap.lookup_setEntries key field members other
  | _ => cases isObject

theorem isObject_assign (value : Json) (key : String) (field : Json) :
    (assign value key field).isObject = value.isObject := by
  cases value <;> rfl

theorem member?_assign_of_ne (value : Json) {key other : String} (field : Json) (apart : other ≠ key) :
    (assign value key field).member? other = value.member? other := by
  cases value with
  | object members =>
    rw [member?_assign rfl, if_neg apart]
  | _ => rfl

theorem member?_delete (value : Json) (key other : String) :
    (delete value key).member? other = if other = key then none else value.member? other := by
  cases value with
  | object members => exact OrderedMap.lookup_filter_ne key members other
  | _ => exact (ite_self none).symm

theorem isObject_delete (value : Json) (key : String) : (delete value key).isObject = value.isObject := by
  cases value <;> rfl

theorem member?_omitOptionalNulls (fields : List String) (value : Json) (key : String) :
    (omitOptionalNulls fields value).member? key =
      if fields.contains key && (value.member? key).any Json.isNull then none else value.member? key := by
  cases value with
  | object members =>
    refine (OrderedMap.lookup_filter_key
      (fun key => !(fields.contains key && (members.lookup key).any Json.isNull)) members key).trans ?_
    rw [Json.member?]
    by_cases isNull : (fields.contains key && (members.lookup key).any Json.isNull) = true
    · rw [if_pos isNull, isNull]
      rfl
    · rw [if_neg isNull, Bool.eq_false_iff.mpr isNull]
      rfl
  | _ => exact (ite_self none).symm

theorem isObject_omitOptionalNulls (fields : List String) (value : Json) :
    (omitOptionalNulls fields value).isObject = value.isObject := by
  cases value <;> rfl

/-- A null is no text, so leaving it out changes no text. -/
theorem textField_omitOptionalNulls (fields : List String) (value : Json) (key : String) :
    textField (omitOptionalNulls fields value) key = textField value key := by
  unfold textField
  rw [member?_omitOptionalNulls]
  split
  · rename_i test
    have isNull := (Bool.and_eq_true_iff.mp test).2
    cases found : value.member? key with
    | none => rfl
    | some given =>
      rw [found] at isNull
      cases given <;> first | rfl | cases isNull
  · rfl

theorem member?_mapProtocolArray (field : String) (normalize : Json -> Json) (value : Json) (key : String) :
    (mapProtocolArray field normalize value).member? key =
      if key = field then (value.member? field).map (mapItems normalize) else value.member? key := by
  unfold mapProtocolArray
  split
  · rename_i items found
    have isObject : value.isObject = true := by
      cases value <;> first | rfl | cases found
    rw [member?_assign isObject, found]
    rfl
  · rename_i noArray
    split
    · rename_i same
      subst same
      cases found : value.member? key with
      | none => rfl
      | some given =>
        cases given <;> first | rfl | exact absurd found (noArray _)
    · rfl

end Boundary
end Middleware
end AgUi
