import AgUi.Library.Stage
import AgUi.Protocol.Event

namespace AgUi
namespace Verify

open Library Protocol

/-!
# The event verifier

`verifyEvents` keeps, for the run in progress, which streamed entities are
open, who owns every entity seen, which steps and subagents are active, and
where the stream stands between runs.  An event that contradicts this record
ends the stream with an error; any other event is passed on.

Membership of the four open sets answers only whether an entity is still
open.  Owners are retained until the next run starts, in one bucket for each
entity kind; an owner without a subagent is the parent agent.
-/

/-- The four kinds of entity that are opened and closed by events. -/
inductive Bracket where
  | textMessage
  | toolCall
  | reasoningSpan
  | reasoningMessage
deriving DecidableEq

/-- Owners are kept apart by entity kind: an id is unique only within one. -/
inductive Bucket where
  | message
  | toolCall
  | activity
  | reasoning
deriving DecidableEq

/-- A reasoning span and the message inside it share their owners. -/
def Bracket.bucket : Bracket -> Bucket
  | textMessage => .message
  | toolCall => .toolCall
  | reasoningSpan => .reasoning
  | reasoningMessage => .reasoning

/-- The `subagentRunId` of whoever opened an entity; none is the parent. -/
abbrev Owner := Option String

structure Owners where
  message : OrderedMap String Owner := OrderedMap.empty
  toolCall : OrderedMap String Owner := OrderedMap.empty
  activity : OrderedMap String Owner := OrderedMap.empty
  reasoning : OrderedMap String Owner := OrderedMap.empty

def Owners.bucket (owners : Owners) : Bucket -> OrderedMap String Owner
  | .message => owners.message
  | .toolCall => owners.toolCall
  | .activity => owners.activity
  | .reasoning => owners.reasoning

def Owners.set (owners : Owners) (bucket : Bucket) (id : String) (owner : Owner) : Owners :=
  match bucket with
  | .message => { owners with message := owners.message.set id owner }
  | .toolCall => { owners with toolCall := owners.toolCall.set id owner }
  | .activity => { owners with activity := owners.activity.set id owner }
  | .reasoning => { owners with reasoning := owners.reasoning.set id owner }

structure VerifyState where
  activeMessages : OrderedSet String := OrderedMap.empty
  activeToolCalls : OrderedSet String := OrderedMap.empty
  activeReasoningSpans : OrderedSet String := OrderedMap.empty
  activeReasoningMessages : OrderedSet String := OrderedMap.empty
  owners : Owners := {}
  runFinished : Bool := false
  runError : Bool := false
  firstEventReceived : Bool := false
  activeSteps : OrderedMap Owner (OrderedSet String) := OrderedMap.empty
  activeSubagents : OrderedSet String := OrderedMap.empty
  closedSubagents : OrderedSet String := OrderedMap.empty
  runStarted : Bool := false
  nullSubagentRunIdNoticed : Bool := false

namespace VerifyState

def opened (state : VerifyState) : Bracket -> OrderedSet String
  | .textMessage => state.activeMessages
  | .toolCall => state.activeToolCalls
  | .reasoningSpan => state.activeReasoningSpans
  | .reasoningMessage => state.activeReasoningMessages

def withOpened (state : VerifyState) (bracket : Bracket) (ids : OrderedSet String) : VerifyState :=
  match bracket with
  | .textMessage => { state with activeMessages := ids }
  | .toolCall => { state with activeToolCalls := ids }
  | .reasoningSpan => { state with activeReasoningSpans := ids }
  | .reasoningMessage => { state with activeReasoningMessages := ids }

def setOwner (state : VerifyState) (bucket : Bucket) (id : String) (owner : Owner) : VerifyState :=
  { state with owners := state.owners.set bucket id owner }

/-- The names of the steps `owner` has open. -/
def stepsFor (state : VerifyState) (owner : Owner) : OrderedSet String :=
  (state.activeSteps.get? owner).getD OrderedMap.empty

def anyStepsActive (state : VerifyState) : Bool :=
  state.activeSteps.entries.any fun entry => entry.2.size != 0

/-- Forget the previous run.  Only the first-event flag outlives it. -/
def resetRunState (state : VerifyState) : VerifyState :=
  { firstEventReceived := state.firstEventReceived, runStarted := true }

end VerifyState

/-! ## Errors -/

inductive AGUIError where
  | runAlreadyErrored (type : EventType)
  | runAlreadyFinished (type : EventType)
  | firstEvent
  | runStillActive
  | lifecycleFieldNull (type : EventType) (field : String)
  | outcomeType (type : EventType) (found : Option Json)
  | interruptIdsNull (type : EventType)
  | interruptIdsEntry (type : EventType)
  | interruptTagNull (id : String)
  | messageTagNull (id : String)
  | alreadyInProgress (bracket : Bracket) (id : String)
  | notInProgress (type : EventType) (id : String)
  | tagMismatch (type : EventType) (tag : String) (entityKind : String) (entityId : String) (owner : Owner)
  | parentMismatch (tag : String) (parentMessageId : String) (owner : Owner)
  | reopenMismatch (toolCallId : String) (owner : Owner) (parentMessageId : String) (parentOwner : Owner)
  | stepAlreadyActive (name : String) (owner : Owner)
  | stepOpenElsewhere (name : String) (owner otherOwner : Owner)
  | stepNotStarted (name : String)
  | missingSubagentRunId (type : EventType)
  | missingName
  | missingMessage
  | subagentAlreadyActive (id : String)
  | subagentAlreadyFinished (id : String)
  | parentNotStarted (id : String)
  | noActiveSubagent (type : EventType) (id : String)
  | stepsStillActive (steps : List (Owner × String))
  | stillActive (bracket : Bracket) (ids : List String)
  | subagentsStillActive (ids : List String)

namespace AGUIError

def parentOr (owner : Owner) : String :=
  owner.getD "(the parent agent)"

/-- The plural under which unfinished entities are listed. -/
def plural : Bracket -> String
  | .textMessage => "text messages"
  | .toolCall => "tool calls"
  | .reasoningSpan => "reasoning spans"
  | .reasoningMessage => "reasoning messages"

def agent (owner : Owner) : String :=
  match owner with
  | some id => "subagent '" ++ id ++ "'"
  | none => "the parent agent"

/-- The text of the error.  `display` is the host's conversion of an
arbitrary value to a string, used only for a malformed outcome. -/
def message (display : Option Json -> String) : AGUIError -> String
  | runAlreadyErrored type =>
    "Cannot send event type '" ++ type.name ++
      "': The run has already errored with 'RUN_ERROR'. No further events can be sent."
  | runAlreadyFinished type =>
    "Cannot send event type '" ++ type.name ++
      "': The run has already finished with 'RUN_FINISHED'. Start a new run with 'RUN_STARTED'."
  | firstEvent => "First event must be 'RUN_STARTED'"
  | runStillActive =>
    "Cannot send 'RUN_STARTED' while a run is still active. " ++
      "The previous run must be finished with 'RUN_FINISHED' before starting a new run."
  | lifecycleFieldNull type field =>
    "Cannot send '" ++ type.name ++ "' with '" ++ field ++
      ": null'. The field is optional — omit it entirely."
  | outcomeType type found =>
    "Cannot send '" ++ type.name ++ "' with outcome type '" ++ display found ++
      "'. The outcome is either \x7b type: \"success\" \x7d or \x7b type: \"suspended\" \x7d."
  | interruptIdsNull type =>
    "Cannot send '" ++ type.name ++
      "' with 'outcome.interruptIds: null'. The field is optional — omit it entirely."
  | interruptIdsEntry type =>
    "Cannot send '" ++ type.name ++
      "' with a non-string entry in 'outcome.interruptIds'. Interrupt ids are strings."
  | interruptTagNull id =>
    "Cannot send 'RUN_FINISHED' with an interrupt (id '" ++ id ++
      "') carrying 'subagentRunId: null'. The field is optional — omit it entirely."
  | messageTagNull id =>
    "Cannot send a message (id '" ++ id ++
      "') with 'subagentRunId: null'. The field is optional — omit it entirely."
  | alreadyInProgress .textMessage id =>
    "Cannot send 'TEXT_MESSAGE_START' event: A text message with ID '" ++ id ++
      "' is already in progress. Complete it with 'TEXT_MESSAGE_END' first."
  | alreadyInProgress .toolCall id =>
    "Cannot send 'TOOL_CALL_START' event: A tool call with ID '" ++ id ++
      "' is already in progress. Complete it with 'TOOL_CALL_END' first."
  | alreadyInProgress .reasoningSpan id =>
    "Cannot send 'REASONING_START' event: A reasoning span with ID '" ++ id ++
      "' is already in progress. Complete it with 'REASONING_END' first."
  | alreadyInProgress .reasoningMessage id =>
    "Cannot send 'REASONING_MESSAGE_START' event: A reasoning message with ID '" ++ id ++
      "' is already in progress. Complete it with 'REASONING_MESSAGE_END' first."
  | notInProgress .textMessageContent id =>
    "Cannot send 'TEXT_MESSAGE_CONTENT' event: No active text message found with ID '" ++ id ++
      "'. Start a text message with 'TEXT_MESSAGE_START' first."
  | notInProgress .textMessageEnd id =>
    "Cannot send 'TEXT_MESSAGE_END' event: No active text message found with ID '" ++ id ++
      "'. A 'TEXT_MESSAGE_START' event must be sent first."
  | notInProgress .toolCallArgs id =>
    "Cannot send 'TOOL_CALL_ARGS' event: No active tool call found with ID '" ++ id ++
      "'. Start a tool call with 'TOOL_CALL_START' first."
  | notInProgress .toolCallEnd id =>
    "Cannot send 'TOOL_CALL_END' event: No active tool call found with ID '" ++ id ++
      "'. A 'TOOL_CALL_START' event must be sent first."
  | notInProgress .reasoningEnd id =>
    "Cannot send 'REASONING_END' event: No active reasoning span found with ID '" ++ id ++
      "'. A 'REASONING_START' event must be sent first."
  | notInProgress type id =>
    "Cannot send '" ++ type.name ++ "' event: No active reasoning message found with ID '" ++ id ++
      "'. Start a reasoning message with 'REASONING_MESSAGE_START' first."
  | tagMismatch type tag entityKind entityId owner =>
    "Cannot send '" ++ type.name ++ "': subagentRunId '" ++ tag ++ "' does not match the " ++
      entityKind ++ " '" ++ entityId ++ "' opener's subagent '" ++ parentOr owner ++ "'."
  | parentMismatch tag parentMessageId owner =>
    "Cannot send 'TOOL_CALL_START': subagentRunId '" ++ tag ++
      "' does not match its parent message '" ++ parentMessageId ++ "' owner '" ++
      parentOr owner ++ "'. A tool call belongs to the message that carries it."
  | reopenMismatch toolCallId owner parentMessageId parentOwner =>
    "Cannot send 'TOOL_CALL_START': tool call '" ++ toolCallId ++ "' is owned by '" ++
      parentOr owner ++ "' but its parent message '" ++ parentMessageId ++ "' is owned by '" ++
      parentOr parentOwner ++ "'. A tool call belongs to the message that carries it."
  | stepAlreadyActive name owner =>
    "Step \"" ++ name ++ "\" is already active for 'STEP_STARTED'" ++
      match owner with
      | some id => " in subagent '" ++ id ++ "'"
      | none => ""
  | stepOpenElsewhere name owner otherOwner =>
    "Cannot send 'STEP_FINISHED' for step \"" ++ name ++ "\" attributed to " ++ agent owner ++
      ": that step is open under " ++ agent otherOwner ++
      ". A step must be finished by whoever started it."
  | stepNotStarted name =>
    "Cannot send 'STEP_FINISHED' for step \"" ++ name ++ "\" that was not started"
  | missingSubagentRunId type => "Cannot send '" ++ type.name ++ "' without a 'subagentRunId'."
  | missingName => "Cannot send 'SUBAGENT_STARTED' without a 'name'."
  | missingMessage => "Cannot send 'SUBAGENT_ERROR' without a 'message'."
  | subagentAlreadyActive id =>
    "Cannot send 'SUBAGENT_STARTED': subagent '" ++ id ++
      "' is already active. Finish it with 'SUBAGENT_FINISHED' first."
  | subagentAlreadyFinished id =>
    "Cannot send 'SUBAGENT_STARTED': subagent '" ++ id ++
      "' has already finished in this run. Subagent IDs are per-invocation and cannot be reused."
  | parentNotStarted id =>
    "Cannot send 'SUBAGENT_STARTED': parentSubagentRunId '" ++ id ++
      "' has not been started in this run."
  | noActiveSubagent type id =>
    "Cannot send '" ++ type.name ++ "': no active subagent found with ID '" ++ id ++
      "'. A 'SUBAGENT_STARTED' event must be sent first."
  | stepsStillActive steps =>
    "Cannot send 'RUN_FINISHED' while steps are still active: " ++
      ", ".intercalate (steps.map fun step =>
        match step.1 with
        | some id => step.2 ++ " (subagent '" ++ id ++ "')"
        | none => step.2)
  | stillActive bracket ids =>
    "Cannot send 'RUN_FINISHED' while " ++ plural bracket ++ " are still active: " ++
      ", ".intercalate ids
  | subagentsStillActive ids =>
    "Cannot send 'RUN_FINISHED' while subagents are still active: " ++ ", ".intercalate ids

end AGUIError

/-! ## Ownership -/

/-- The error of a tag that disagrees with the owner on record.  An absent
tag never disagrees, and an owner without a subagent disagrees with every tag. -/
def subagentTagError (type : EventType) (tag : Option String) (owner : Option Owner)
    (entityKind entityId : String) : Option AGUIError :=
  match tag, owner with
  | some tag, some owner =>
    if owner = some tag then none
    else some (.tagMismatch type tag entityKind entityId owner)
  | _, _ => none

/-- The bucket a replayed message seeds: the one its role streams through. -/
def Bucket.ofRole : Role -> Bucket
  | .reasoning => .reasoning
  | .activity => .activity
  | _ => .message

/-- Record one owner: always when authoritative, else only if unclaimed. -/
def Owners.seed (authoritative : Bool) (owners : Owners) (bucket : Bucket) (id : String)
    (owner : Owner) : Owners :=
  if authoritative || !(owners.bucket bucket).has id then owners.set bucket id owner else owners

def seedOwnersFromMessage (authoritative : Bool) (owners : Owners) (message : Message) :
    Except AGUIError Owners :=
  if message.subagentRunId.isNull then .error (.messageTagNull message.id)
  else
    let owner := message.subagentRunId.toOption
    .ok (message.calls.foldl (fun owners call => owners.seed authoritative .toolCall call.id owner)
      (owners.seed authoritative (.ofRole message.role) message.id owner))

def seedOwnersFromMessages (authoritative : Bool) : List Message -> Owners -> Except AGUIError Owners
  | [], owners => .ok owners
  | message :: rest, owners =>
    match seedOwnersFromMessage authoritative owners message with
    | .error error => .error error
    | .ok owners => seedOwnersFromMessages authoritative rest owners

/-! ## Checks made before the switch -/

/-- Where the stream stands: errored, finished, not begun, or in a run.  A
`RUN_STARTED` after a run that ended forgets that run. -/
def runGate (state : VerifyState) (event : Event) : Except AGUIError VerifyState :=
  if state.runError = true ∧ event.type ≠ .runStarted then
    .error (.runAlreadyErrored event.type)
  else if state.runFinished = true ∧ event.type ≠ .runError ∧ event.type ≠ .runStarted then
    .error (.runAlreadyFinished event.type)
  else if state.firstEventReceived = false then
    if event.type ≠ .runStarted ∧ event.type ≠ .runError then .error .firstEvent
    else .ok { state with firstEventReceived := true }
  else if event.type = .runStarted then
    if state.runStarted = true ∧ state.runFinished = false ∧ state.runError = false then
      .error .runStillActive
    else if state.runFinished = true ∨ state.runError = true then .ok state.resetRunState
    else .ok state
  else .ok state

/-- The optional fields of the lifecycle events that must not be `null`. -/
def lifecycleNulls : Event -> List (String × Bool)
  | .subagentStarted event =>
    [("description", event.description.isNull),
      ("parentSubagentRunId", event.parentSubagentRunId.isNull),
      ("parentToolCallId", event.parentToolCallId.isNull),
      ("parentMessageId", event.parentMessageId.isNull)]
  | .subagentFinished event => [("outcome", event.outcome.any Json.isNull)]
  | .subagentError event => [("code", event.code.isNull)]
  | _ => []

/-- The `outcome` property of a lifecycle event.  Only `SUBAGENT_FINISHED`
describes one, but the check reads it off whichever of the three arrived. -/
def lifecycleOutcome : Event -> Option Json
  | .subagentStarted event => event.extra.get? "outcome"
  | .subagentFinished event => event.outcome
  | .subagentError event => event.extra.get? "outcome"
  | _ => none

def outcomeError (type : EventType) (outcome : Json) : Option AGUIError :=
  if outcome.isNull then none
  else
    match outcome.member? "type" with
    | some (.string "success") => interruptIdsError
    | some (.string "suspended") => interruptIdsError
    | found => some (.outcomeType type found)
where
  interruptIdsError : Option AGUIError :=
    match outcome.member? "interruptIds" with
    | some .null => some (.interruptIdsNull type)
    | some (.array items) =>
      if items.all Json.isString then none else some (.interruptIdsEntry type)
    | _ => none

/-- Fields of a single event that are refused whatever the state is. -/
def fieldError (event : Event) : Option AGUIError :=
  match event with
  | .runFinished finished =>
    match finished.outcome with
    | some (.interrupt interrupts) =>
      (interrupts.find? fun interrupt => interrupt.subagentRunId.isNull).map
        fun interrupt => .interruptTagNull interrupt.id
    | _ => none
  | _ =>
    match (lifecycleNulls event).find? Prod.snd with
    | some (field, _) => some (.lifecycleFieldNull event.type field)
    | none =>
      match lifecycleOutcome event with
      | some outcome => outcomeError event.type outcome
      | none => none

/-! ## The cases of the switch -/

/-- An opener: refused while the id is open or when its tag contradicts the
owner on record.  The first opener of an id records the owner. -/
def openEntity (bracket : Bracket) (entityKind : String) (type : EventType) (state : VerifyState)
    (tag : Option String) (id : String) : Except AGUIError VerifyState :=
  if (state.opened bracket).has id then .error (.alreadyInProgress bracket id)
  else
    let existing := (state.owners.bucket bracket.bucket).get? id
    match subagentTagError type tag existing entityKind id with
    | some error => .error error
    | none =>
      let opened := state.withOpened bracket ((state.opened bracket).add id)
      .ok (if existing.isSome then opened else opened.setOwner bracket.bucket id tag)

/-- A continuation: it must name something open and agree with its owner. -/
def continueEntity (bracket : Bracket) (entityKind : String) (type : EventType) (state : VerifyState)
    (tag : Option String) (id : String) : Except AGUIError VerifyState :=
  if (state.opened bracket).has id then
    match subagentTagError type tag ((state.owners.bucket bracket.bucket).get? id) entityKind id with
    | some error => .error error
    | none => .ok state
  else .error (.notInProgress type id)

/-- A close: a continuation that drops the open flag and keeps the owner. -/
def closeEntity (bracket : Bracket) (entityKind : String) (type : EventType) (state : VerifyState)
    (tag : Option String) (id : String) : Except AGUIError VerifyState :=
  match continueEntity bracket entityKind type state tag id with
  | .error error => .error error
  | .ok state => .ok (state.withOpened bracket ((state.opened bracket).erase id))

/-- A tool call lives inside the assistant message its parent id names, so a
tag may not contradict that message's owner, and an untagged call inherits it. -/
def toolCallStart (state : VerifyState) (tag : Option String) (toolCallId : String)
    (parentMessageId : Option String) : Except AGUIError VerifyState :=
  if state.activeToolCalls.has toolCallId then .error (.alreadyInProgress .toolCall toolCallId)
  else
    let inherited : Option (String × Owner) := parentMessageId.bind fun parent =>
      (state.owners.message.get? parent).map fun owner => (parent, owner)
    match parentError inherited with
    | some error => .error error
    | none =>
      let existing := state.owners.toolCall.get? toolCallId
      match reopenError existing inherited with
      | some error => .error error
      | none =>
        let opened := { state with activeToolCalls := state.activeToolCalls.add toolCallId }
        .ok (if existing.isSome then opened
          else opened.setOwner .toolCall toolCallId (tag.or (inherited.bind Prod.snd)))
where
  parentError (inherited : Option (String × Owner)) : Option AGUIError :=
    match tag, inherited with
    | some tag, some (parent, owner) =>
      if owner = some tag then none else some (.parentMismatch tag parent owner)
    | _, _ => none
  reopenError (existing : Option Owner) (inherited : Option (String × Owner)) : Option AGUIError :=
    match tag, existing, inherited with
    | some tag, existing, _ =>
      subagentTagError .toolCallStart (some tag) existing "tool call" toolCallId
    | none, some existing, some (parent, owner) =>
      if owner = existing then none else some (.reopenMismatch toolCallId existing parent owner)
    | none, _, _ => none

def stepStarted (state : VerifyState) (owner : Owner) (stepName : String) :
    Except AGUIError VerifyState :=
  if (state.stepsFor owner).has stepName then .error (.stepAlreadyActive stepName owner)
  else
    .ok { state with
      activeSteps := state.activeSteps.set owner ((state.stepsFor owner).add stepName) }

def stepFinished (state : VerifyState) (owner : Owner) (stepName : String) :
    Except AGUIError VerifyState :=
  if (state.stepsFor owner).has stepName then
    .ok { state with
      activeSteps := state.activeSteps.set owner ((state.stepsFor owner).erase stepName) }
  else
    match state.activeSteps.entries.find? fun entry => entry.1 ≠ owner && entry.2.has stepName with
    | some (otherOwner, _) => .error (.stepOpenElsewhere stepName owner otherOwner)
    | none => .error (.stepNotStarted stepName)

/-- Only a replacing snapshot, or the first of its id, owns the activity. -/
def activitySnapshot (state : VerifyState) (tag : Option String) (messageId : String)
    (replace : Option Bool) : VerifyState :=
  if state.owners.activity.has messageId = false ∨ replace ≠ some false then
    state.setOwner .activity messageId tag
  else state

/-- The owner an encrypted value is checked against.  The `message` subtype
spans text messages and reasoning messages. -/
def encryptedValueOwner (state : VerifyState) (subtype : ReasoningEncryptedValueSubtype)
    (entityId : String) : Option Owner :=
  match subtype with
  | .toolCall => state.owners.toolCall.get? entityId
  | .message => (state.owners.message.get? entityId).or (state.owners.reasoning.get? entityId)

def encryptedValueKind : ReasoningEncryptedValueSubtype -> String
  | .toolCall => "tool call"
  | .message => "message"

def subagentStarted (state : VerifyState) (event : SubagentStartedEvent) :
    Except AGUIError VerifyState :=
  match event.subagentRunId.toOption with
  | none => .error (.missingSubagentRunId .subagentStarted)
  | some subagentRunId =>
    if event.name.isNone then .error .missingName
    else if state.activeSubagents.has subagentRunId then
      .error (.subagentAlreadyActive subagentRunId)
    else if state.closedSubagents.has subagentRunId then
      .error (.subagentAlreadyFinished subagentRunId)
    else
      match event.parentSubagentRunId.toOption with
      | none => .ok { state with activeSubagents := state.activeSubagents.add subagentRunId }
      | some parent =>
        if state.activeSubagents.has parent || state.closedSubagents.has parent then
          .ok { state with activeSubagents := state.activeSubagents.add subagentRunId }
        else .error (.parentNotStarted parent)

def closeSubagent (type : EventType) (state : VerifyState) (subagentRunId : String) :
    Except AGUIError VerifyState :=
  if state.activeSubagents.has subagentRunId then
    .ok { state with
      activeSubagents := state.activeSubagents.erase subagentRunId
      closedSubagents := state.closedSubagents.add subagentRunId }
  else .error (.noActiveSubagent type subagentRunId)

/-- A run may finish only when nothing it opened is still open. -/
def runFinished (state : VerifyState) : Except AGUIError VerifyState :=
  if state.anyStepsActive then
    .error (.stepsStillActive (state.activeSteps.entries.flatMap fun entry =>
      entry.2.keys.map fun name => (entry.1, name)))
  else if state.activeMessages.size ≠ 0 then .error (.stillActive .textMessage state.activeMessages.keys)
  else if state.activeReasoningMessages.size ≠ 0 then
    .error (.stillActive .reasoningMessage state.activeReasoningMessages.keys)
  else if state.activeReasoningSpans.size ≠ 0 then
    .error (.stillActive .reasoningSpan state.activeReasoningSpans.keys)
  else if state.activeToolCalls.size ≠ 0 then .error (.stillActive .toolCall state.activeToolCalls.keys)
  else if state.activeSubagents.size ≠ 0 then .error (.subagentsStillActive state.activeSubagents.keys)
  else .ok { state with runFinished := true }

def textMessageStart := openEntity .textMessage "message" .textMessageStart
def textMessageContent := continueEntity .textMessage "message" .textMessageContent
def textMessageEnd := closeEntity .textMessage "message" .textMessageEnd
def toolCallArgs := continueEntity .toolCall "tool call" .toolCallArgs
def toolCallEnd := closeEntity .toolCall "tool call" .toolCallEnd
def reasoningStart := openEntity .reasoningSpan "reasoning message" .reasoningStart
def reasoningMessageStart := openEntity .reasoningMessage "reasoning message" .reasoningMessageStart
def reasoningMessageContent :=
  continueEntity .reasoningMessage "reasoning message" .reasoningMessageContent
def reasoningMessageEnd := closeEntity .reasoningMessage "reasoning message" .reasoningMessageEnd
def reasoningEnd := closeEntity .reasoningSpan "reasoning message" .reasoningEnd

/-- The switch over the event type.  Tags arrive with `null` read as absent. -/
def verifyCase (state : VerifyState) (event : Event) : Except AGUIError VerifyState :=
  match event with
  | .textMessageStart e => textMessageStart state e.subagentRunId.toOption e.messageId
  | .textMessageContent e => textMessageContent state e.subagentRunId.toOption e.messageId
  | .textMessageEnd e => textMessageEnd state e.subagentRunId.toOption e.messageId
  | .toolCallStart e => toolCallStart state e.subagentRunId.toOption e.toolCallId e.parentMessageId
  | .toolCallArgs e => toolCallArgs state e.subagentRunId.toOption e.toolCallId
  | .toolCallEnd e => toolCallEnd state e.subagentRunId.toOption e.toolCallId
  | .stepStarted e => stepStarted state e.subagentRunId.toOption e.stepName
  | .stepFinished e => stepFinished state e.subagentRunId.toOption e.stepName
  | .activitySnapshot e =>
    .ok (activitySnapshot state e.subagentRunId.toOption e.messageId e.replace)
  | .toolCallResult e => .ok (state.setOwner .message e.messageId e.subagentRunId.toOption)
  | .reasoningStart e => reasoningStart state e.subagentRunId.toOption e.messageId
  | .reasoningMessageStart e => reasoningMessageStart state e.subagentRunId.toOption e.messageId
  | .reasoningMessageContent e => reasoningMessageContent state e.subagentRunId.toOption e.messageId
  | .reasoningMessageEnd e => reasoningMessageEnd state e.subagentRunId.toOption e.messageId
  | .reasoningEnd e => reasoningEnd state e.subagentRunId.toOption e.messageId
  | .reasoningEncryptedValue e =>
    match subagentTagError .reasoningEncryptedValue e.subagentRunId.toOption
        (encryptedValueOwner state e.subtype e.entityId) (encryptedValueKind e.subtype) e.entityId with
    | some error => .error error
    | none => .ok state
  | .activityDelta e =>
    match subagentTagError .activityDelta e.subagentRunId.toOption
        (state.owners.activity.get? e.messageId) "activity" e.messageId with
    | some error => .error error
    | none => .ok state
  | .subagentStarted e => subagentStarted state e
  | .subagentFinished e =>
    match e.subagentRunId.toOption with
    | none => .error (.missingSubagentRunId .subagentFinished)
    | some subagentRunId => closeSubagent .subagentFinished state subagentRunId
  | .subagentError e =>
    match e.subagentRunId.toOption with
    | none => .error (.missingSubagentRunId .subagentError)
    | some subagentRunId =>
      if e.message.isNone then .error .missingMessage
      else closeSubagent .subagentError state subagentRunId
  | .messagesSnapshot e =>
    match seedOwnersFromMessages true e.messages state.owners with
    | .error error => .error error
    | .ok owners => .ok { state with owners := owners }
  | .runStarted e =>
    match seedOwnersFromMessages false ((e.input.map RunAgentInput.messages).getD []) state.owners with
    | .error error => .error error
    | .ok owners => .ok { state with owners := owners, runStarted := true }
  | .runFinished _ => runFinished state
  | .runError _ => .ok { state with runError := true }
  | _ => .ok state

/-- `subagentRunId: null` is read as absent, and noticed once a run. -/
def noticeNullTag (state : VerifyState) (event : Event) : VerifyState :=
  if event.subagentRunId.isNull then { state with nullSubagentRunIdNoticed := true } else state

/-- The verifier as a stage of the event pipeline. -/
def verifyEvents : Stage VerifyState Event Event AGUIError := fun state event =>
  match runGate state event with
  | .error error => .error error
  | .ok state =>
    match fieldError event with
    | some error => .error error
    | none =>
      match verifyCase (noticeNullTag state event) event with
      | .error error => .error error
      | .ok state => .ok (state, [event.withoutNullTag])

/-- The verdict on a whole stream. -/
def accepted (events : List Event) : Bool :=
  verifyEvents.accepts {} events

end Verify
end AgUi
