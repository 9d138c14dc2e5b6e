import AgUi.Verify.Verifier
import AgUi.DotnetClient.Updates

namespace AgUi
namespace DotnetClient

open Library Protocol Verify

/-!
# Attribution and the subagent lifecycle

The first part of the converter's treatment of an event: who owns what the
event names, and whether its tag agrees.  Owners are kept twice.  The four
maps of `recorded` decide whether a tag is refused; `owners` says which
subagent an update is stamped with, and message ids and call ids are apart in
it.  The chunk lanes are the compact reasoning streams open right now.
-/

/-- A key of the resolution map: `msg:` and `call:` are separate key spaces. -/
inductive EntityKey where
  | message (id : String)
  | call (id : String)
deriving DecidableEq

/-- `recorded` holds `messageOwners`, `toolCallOwners`, `activityOwners` and
`reasoningOwners`. -/
structure Attribution where
  activeSubagents : OrderedMap String (Option String) := OrderedMap.empty
  closedSubagents : OrderedSet String := OrderedMap.empty
  recorded : Owners := {}
  owners : OrderedMap EntityKey Owner := OrderedMap.empty
  parentReasoningChunkId : Option String := none
  subagentReasoningChunkIds : OrderedMap String String := OrderedMap.empty

namespace Attribution

/-! ## Resolution -/

/-- The entity a message id names, where there is one. -/
def messageEntity (id : Option String) : List EntityKey :=
  (id.map EntityKey.message).toList

/-- The keys an event refers to, most specific first. -/
def attributedEntityKeys : Event -> List EntityKey
  | .textMessageStart event => [.message event.messageId]
  | .textMessageContent event => [.message event.messageId]
  | .textMessageEnd event => [.message event.messageId]
  | .reasoningStart event => [.message event.messageId]
  | .reasoningMessageStart event => [.message event.messageId]
  | .reasoningMessageContent event => [.message event.messageId]
  | .reasoningMessageEnd event => [.message event.messageId]
  | .reasoningMessageChunk event => messageEntity event.messageId
  | .reasoningEncryptedValue event =>
    match event.subtype with
    | .toolCall => [.call event.entityId]
    | .message => [.message event.entityId]
  | .activitySnapshot event => [.message event.messageId]
  | .activityDelta event => [.message event.messageId]
  | .toolCallResult event => [.message event.messageId, .call event.toolCallId]
  | .toolCallStart event => [.call event.toolCallId]
  | .toolCallArgs event => [.call event.toolCallId]
  | .toolCallEnd event => [.call event.toolCallId]
  | _ => []

/-- The call a content belongs to. -/
def callIdOf : AIContent -> List EntityKey
  | .functionCall call => [.call call.callId]
  | .functionResult callId _ => [.call callId]
  | _ => []

/-- The event's own keys, the update's message id, the calls it carries. -/
def resolveOwner (update : ChatResponseUpdate) (owners : OrderedMap EntityKey Owner) : Owner :=
  let keys := attributedEntityKeys update.rawRepresentation ++ messageEntity update.messageId ++
    update.contents.flatMap callIdOf
  (keys.findSome? owners.get?).join

/-- An update about to be held: its owner is looked up now, and not again. -/
def stampOwner (update : ChatResponseUpdate) (owners : OrderedMap EntityKey Owner) : ChatResponseUpdate :=
  { update with
    ownerResolved := true
    subagentRunId := (resolveOwner update owners).or update.subagentRunId }

/-- What the wrapper does to an update it passes on. -/
def attributed (owners : OrderedMap EntityKey Owner) (update : ChatResponseUpdate) : ChatResponseUpdate :=
  if update.ownerResolved then { update with ownerResolved := false }
  else { update with subagentRunId := (resolveOwner update owners).or update.subagentRunId }

/-! ## Recording -/

def recordMessageOwner (state : Attribution) (messageId : String) (subagentRunId : Option String) : Attribution :=
  { state with owners := state.owners.set (.message messageId) subagentRunId }

def recordCallOwner (state : Attribution) (toolCallId : String) (subagentRunId : Option String) : Attribution :=
  { state with owners := state.owners.set (.call toolCallId) subagentRunId }

def record (state : Attribution) (bucket : Bucket) (id : String) (owner : Owner) : Attribution :=
  { state with recorded := state.recorded.set bucket id owner }

/-- One seeded entity: always when authoritative, else only if unclaimed. -/
def seed (authoritative : Bool) (bucket : Bucket) (id : String) (owner : Owner)
    (recordOwner : Attribution -> String -> Option String -> Attribution) (state : Attribution) : Attribution :=
  if authoritative || !(state.recorded.bucket bucket).has id then
    recordOwner (state.record bucket id owner) id owner
  else state

/-- Only an assistant message brings tool calls. -/
def seededCalls (message : Message) : List ToolCall :=
  if message.role = .assistant then message.calls else []

/-- Messages bring their owners with them, and so do the calls they hold. -/
def seedOwnersFromMessages (authoritative : Bool) (messages : List Message) (state : Attribution) : Attribution :=
  messages.foldl (fun state message =>
    let owner := message.subagentRunId.toOption
    (seededCalls message).foldl
      (fun state call => seed authoritative .toolCall call.id owner recordCallOwner state)
      (seed authoritative (.ofRole message.role) message.id owner recordMessageOwner state)) state

/-! ## Chunk lanes -/

/-- The reasoning chunks of one party end. -/
def closeChunkLane (state : Attribution) (lane : Option String) : Attribution :=
  match lane with
  | none => { state with parentReasoningChunkId := none }
  | some lane => { state with subagentReasoningChunkIds := state.subagentReasoningChunkIds.erase lane }

def closeAllChunkLanes (state : Attribution) : Attribution :=
  { state with parentReasoningChunkId := none, subagentReasoningChunkIds := OrderedMap.empty }

/-- Run boundaries and `MESSAGES_SNAPSHOT` close every lane; an explicit event
closes its own; chunks and the pass-through events close none. -/
def closeLanes (state : Attribution) (event : Event) : Attribution :=
  match event with
  | .runStarted _ | .runFinished _ | .runError _ | .messagesSnapshot _ => state.closeAllChunkLanes
  | .subagentFinished event => state.closeChunkLane event.subagentRunId.toOption
  | .subagentError event => state.closeChunkLane event.subagentRunId.toOption
  | .textMessageStart event => state.closeChunkLane event.subagentRunId.toOption
  | .textMessageContent event => state.closeChunkLane event.subagentRunId.toOption
  | .textMessageEnd event => state.closeChunkLane event.subagentRunId.toOption
  | .toolCallStart event => state.closeChunkLane event.subagentRunId.toOption
  | .toolCallArgs event => state.closeChunkLane event.subagentRunId.toOption
  | .toolCallEnd event => state.closeChunkLane event.subagentRunId.toOption
  | .toolCallResult event => state.closeChunkLane event.subagentRunId.toOption
  | .stateSnapshot event => state.closeChunkLane event.subagentRunId.toOption
  | .stateDelta event => state.closeChunkLane event.subagentRunId.toOption
  | .custom event => state.closeChunkLane event.subagentRunId.toOption
  | .stepStarted event => state.closeChunkLane event.subagentRunId.toOption
  | .stepFinished event => state.closeChunkLane event.subagentRunId.toOption
  | .reasoningStart event => state.closeChunkLane event.subagentRunId.toOption
  | .reasoningMessageStart event => state.closeChunkLane event.subagentRunId.toOption
  | .reasoningMessageContent event => state.closeChunkLane event.subagentRunId.toOption
  | .reasoningMessageEnd event => state.closeChunkLane event.subagentRunId.toOption
  | .reasoningEnd event => state.closeChunkLane event.subagentRunId.toOption
  | _ => state

/-! ## Checks -/

def parentOr (owner : Owner) : String :=
  owner.getD "(the parent agent)"

/-- An absent tag never disagrees; a recorded owner without a subagent is the
parent agent, and disagrees with every tag. -/
def rejectOwnerMismatch (type : EventType) (subagentRunId : Option String) (owners : OrderedMap String Owner)
    (entityId entityKind : String) : Except Thrown Unit :=
  match subagentRunId, owners.get? entityId with
  | some tag, some owner =>
    if owner = some tag then .ok ()
    else
      .error (.invalidOperation ("Cannot send '" ++ type.name ++ "': subagentRunId '" ++ tag ++
        "' does not match the " ++ entityKind ++ " '" ++ entityId ++ "' opener's subagent '" ++ owner.getD "" ++ "'."))
  | _, _ => .ok ()

/-- A continuation or a close changes no owner. -/
def continueEntity (bucket : Bucket) (entityKind : String) (type : EventType) (state : Attribution)
    (tag : Option String) (id : String) : Except Thrown Attribution :=
  match rejectOwnerMismatch type tag (state.recorded.bucket bucket) id entityKind with
  | .error thrown => .error thrown
  | .ok _ => .ok state

/-- The first opener records the owner; a later one must agree with it. -/
def openEntity (bucket : Bucket) (entityKind : String) (type : EventType) (state : Attribution)
    (tag : Option String) (id : String) : Except Thrown Attribution :=
  if (state.recorded.bucket bucket).has id then continueEntity bucket entityKind type state tag id
  else .ok ((state.record bucket id tag).recordMessageOwner id tag)

/-- A property the event cannot do without. -/
def requireProvided {A : Type} (value : Option A) (propertyName : String) (type : EventType) : Except Thrown A :=
  match value with
  | some value => .ok value
  | none => .error (.invalidOperation ("Cannot send '" ++ type.name ++ "': '" ++ propertyName ++ "' is required."))

/-- An id stands for one invocation in a run: it is not active, and has not been closed. -/
def subagentStarted (state : Attribution) (event : SubagentStartedEvent) : Except Thrown Attribution := do
  let startedId ← requireProvided event.subagentRunId.toOption "subagentRunId" .subagentStarted
  let _ ← requireProvided event.name "name" .subagentStarted
  if state.activeSubagents.has startedId then
    .error (.invalidOperation ("Cannot send 'SUBAGENT_STARTED': subagent '" ++ startedId ++
      "' is already active. Finish it with 'SUBAGENT_FINISHED' first."))
  else if state.closedSubagents.has startedId then
    .error (.invalidOperation ("Cannot send 'SUBAGENT_STARTED': subagent '" ++ startedId ++
      "' has already finished in this run. Subagent IDs are per-invocation and cannot be reused."))
  else
    let started := { state with
      activeSubagents := state.activeSubagents.set startedId event.parentSubagentRunId.toOption }
    match event.parentSubagentRunId.toOption with
    | none => .ok started
    | some parent =>
      if !state.activeSubagents.has parent && !state.closedSubagents.has parent then
        .error (.invalidOperation ("Cannot send 'SUBAGENT_STARTED': parentSubagentRunId '" ++ parent ++
          "' has not been started in this run."))
      else .ok started

/-- The end of a subagent, by either of its terminals. -/
def closeSubagent (type : EventType) (state : Attribution) (id : String) : Except Thrown Attribution :=
  if state.activeSubagents.has id then
    .ok { state with
      activeSubagents := state.activeSubagents.erase id
      closedSubagents := state.closedSubagents.add id }
  else
    .error (.invalidOperation ("Cannot send '" ++ type.name ++ "': no active subagent found with ID '" ++ id ++
      "'. A 'SUBAGENT_STARTED' event must be sent first."))

def subagentFinished (state : Attribution) (event : SubagentFinishedEvent) : Except Thrown Attribution := do
  let finishedId ← requireProvided event.subagentRunId.toOption "subagentRunId" .subagentFinished
  closeSubagent .subagentFinished state finishedId

def subagentError (state : Attribution) (event : SubagentErrorEvent) : Except Thrown Attribution := do
  let erroredId ← requireProvided event.subagentRunId.toOption "subagentRunId" .subagentError
  let _ ← requireProvided event.message "message" .subagentError
  closeSubagent .subagentError state erroredId

/-- A call lives in the message its parent id names: a tag must agree with
that message's owner, and an untagged call inherits it. -/
def toolCallStart (state : Attribution) (event : ToolCallStartEvent) : Except Thrown Attribution :=
  let tag := event.subagentRunId.toOption
  let parentOwner := event.parentMessageId.bind fun parent =>
    (state.recorded.message.get? parent).map fun owner => (parent, owner)
  match tag, parentOwner with
  | some callTag, some (parent, owner) =>
    if owner = some callTag then known tag parentOwner
    else
      .error (.invalidOperation ("Cannot send 'TOOL_CALL_START': subagentRunId '" ++ callTag ++
        "' does not match its parent message '" ++ parent ++ "' owner '" ++ parentOr owner ++
        "'. A tool call belongs to the message that carries it."))
  | _, _ => known tag parentOwner
where
  known (tag : Option String) (parentOwner : Option (String × Owner)) : Except Thrown Attribution :=
    match state.recorded.toolCall.get? event.toolCallId with
    | none =>
      let callOwner := tag.or (parentOwner.bind Prod.snd)
      .ok ((state.record .toolCall event.toolCallId callOwner).recordCallOwner event.toolCallId callOwner)
    | some retainedOwner =>
      match continueEntity .toolCall "tool call" .toolCallStart state tag event.toolCallId with
      | .error thrown => .error thrown
      | .ok state => reopened tag parentOwner retainedOwner state
  /-- An untagged reopen counts as owned by its parent message's owner. -/
  reopened (tag : Option String) (parentOwner : Option (String × Owner)) (retainedOwner : Owner)
      (state : Attribution) : Except Thrown Attribution :=
    match tag, parentOwner with
    | none, some (parent, inheritedParentOwner) =>
      if inheritedParentOwner = retainedOwner then .ok state
      else
        .error (.invalidOperation ("Cannot send 'TOOL_CALL_START': tool call '" ++ event.toolCallId ++
          "' is owned by '" ++ parentOr retainedOwner ++ "' but its parent message '" ++ parent ++
          "' is owned by '" ++ parentOr inheritedParentOwner ++
          "'. A tool call belongs to the message that carries it."))
    | _, _ => .ok state

/-- The reasoning chunks of a party go on under this id. -/
def moveLane (state : Attribution) (lane : Owner) (chunkId : String) : Attribution :=
  match lane with
  | none => { state with parentReasoningChunkId := some chunkId }
  | some lane => { state with subagentReasoningChunkIds := state.subagentReasoningChunkIds.set lane chunkId }

/-- The compact reasoning stream.  With it comes the lane inferred for a chunk
that names no message. -/
def reasoningMessageChunk (state : Attribution) (event : ReasoningMessageChunkEvent) :
    Except Thrown (Attribution × Option String) :=
  let tag := event.subagentRunId.toOption
  match event.messageId with
  | some chunkId =>
    match state.recorded.reasoning.get? chunkId with
    | none =>
      .ok ((((state.record .reasoning chunkId tag).recordMessageOwner chunkId tag).moveLane tag chunkId), none)
    | some laneOwner =>
      match continueEntity .reasoning "reasoning message" .reasoningMessageChunk state tag chunkId with
      | .error thrown => .error thrown
      | .ok state => .ok (state.moveLane laneOwner chunkId, none)
  | none =>
    match openLane tag with
    | .error thrown => .error thrown
    | .ok (inferred, openId) =>
      match openId with
      | none => .ok (state, inferred)
      | some openId =>
        match continueEntity .reasoning "reasoning message" .reasoningMessageChunk state tag openId with
        | .error thrown => .error thrown
        | .ok state => .ok (state, inferred)
where
  openLane (tag : Option String) : Except Thrown (Option String × Option String) :=
    match tag, state.parentReasoningChunkId, state.subagentReasoningChunkIds.entries with
    | some lane, _, _ => .ok (some lane, state.subagentReasoningChunkIds.get? lane)
    | none, some openId, _ => .ok (none, some openId)
    | none, none, [] => .ok (none, none)
    | none, none, [soleLane] => .ok (some soleLane.1, some soleLane.2)
    | none, none, lanes =>
      .error (.invalidOperation
        ("Ambiguous REASONING_MESSAGE_CHUNK: it carries neither a messageId nor a subagentRunId, but " ++
        toString lanes.length ++
          " lanes have an open reasoning message. Attribute the chunk to the subagent it belongs to."))

/-- The map an encrypted value is checked against, by its subtype. -/
def encryptedValueBucket (state : Attribution) (event : ReasoningEncryptedValueEvent) : Bucket :=
  match event.subtype with
  | .toolCall => .toolCall
  | .message => if state.recorded.message.has event.entityId then .message else .reasoning

/-- Only a replacing snapshot, or the first of its id, owns the activity. -/
def activitySnapshot (state : Attribution) (event : ActivitySnapshotEvent) : Attribution :=
  if state.recorded.activity.has event.messageId = false ∨ event.replace ≠ some false then
    (state.record .activity event.messageId event.subagentRunId.toOption).recordMessageOwner
      event.messageId event.subagentRunId.toOption
  else state

/-- The switch over the event type, without the chunk's inferred lane. -/
def checkEvent (state : Attribution) (event : Event) : Except Thrown Attribution :=
  match event with
  | .subagentStarted e => subagentStarted state e
  | .subagentFinished e => subagentFinished state e
  | .subagentError e => subagentError state e
  | .runFinished _ =>
    if state.activeSubagents.size ≠ 0 then
      .error (.invalidOperation ("Cannot send 'RUN_FINISHED' while subagents are still active: " ++
        ", ".intercalate state.activeSubagents.keys))
    else .ok state
  | .messagesSnapshot e => .ok (seedOwnersFromMessages true e.messages state)
  | .runStarted e => .ok (seedOwnersFromMessages false ((e.input.map RunAgentInput.messages).getD []) state)
  | .textMessageStart e => openEntity .message "message" .textMessageStart state e.subagentRunId.toOption e.messageId
  | .textMessageContent e =>
    continueEntity .message "message" .textMessageContent state e.subagentRunId.toOption e.messageId
  | .textMessageEnd e => continueEntity .message "message" .textMessageEnd state e.subagentRunId.toOption e.messageId
  | .toolCallStart e => toolCallStart state e
  | .toolCallResult e => .ok (state.recordMessageOwner e.messageId e.subagentRunId.toOption)
  | .reasoningStart e =>
    openEntity .reasoning "reasoning message" .reasoningStart state e.subagentRunId.toOption e.messageId
  | .reasoningMessageStart e =>
    openEntity .reasoning "reasoning message" .reasoningMessageStart state e.subagentRunId.toOption e.messageId
  | .reasoningMessageContent e =>
    continueEntity .reasoning "reasoning message" .reasoningMessageContent state e.subagentRunId.toOption e.messageId
  | .reasoningMessageEnd e =>
    continueEntity .reasoning "reasoning message" .reasoningMessageEnd state e.subagentRunId.toOption e.messageId
  | .reasoningEnd e =>
    continueEntity .reasoning "reasoning message" .reasoningEnd state e.subagentRunId.toOption e.messageId
  | .reasoningEncryptedValue e =>
    continueEntity (encryptedValueBucket state e) (encryptedValueKind e.subtype) .reasoningEncryptedValue state
      e.subagentRunId.toOption e.entityId
  | .activitySnapshot e => .ok (activitySnapshot state e)
  | .activityDelta e =>
    continueEntity .activity "activity" .activityDelta state e.subagentRunId.toOption e.messageId
  | .toolCallArgs e => continueEntity .toolCall "tool call" .toolCallArgs state e.subagentRunId.toOption e.toolCallId
  | .toolCallEnd e => continueEntity .toolCall "tool call" .toolCallEnd state e.subagentRunId.toOption e.toolCallId
  | _ => .ok state

/-- Both switches.  A chunk's inferred lane goes with the state. -/
def check (state : Attribution) (event : Event) : Except Thrown (Attribution × Option String) :=
  let state := state.closeLanes event
  match event with
  | .reasoningMessageChunk e => reasoningMessageChunk state e
  | event => (checkEvent state event).map fun state => (state, none)

end Attribution

end DotnetClient
end AgUi
