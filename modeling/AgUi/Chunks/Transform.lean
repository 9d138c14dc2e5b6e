import AgUi.Library.Stage
import AgUi.Protocol.Event

namespace AgUi
namespace Chunks

open Library Protocol

/-!
# Expansion of chunks

`transformChunks` rewrites the chunk shorthand into START, CONTENT and END
events.  It keeps at most one pending stream for each lane, a lane being the
subagent its chunks are attributed to, or the parent agent.

The three chunk types are expanded by arms that differ in their fields and in
nothing else.  `ChunkArm` is what an arm reads off its chunk, `expandChunk`
is the common body, and `textChunkArm`, `toolChunkArm` and
`reasoningChunkArm` are the three arms.
-/

/-- The owner a lane is keyed by; none is the parent agent. -/
abbrev Lane := Option String

structure TextMessageFields where
  messageId : String
  role : TextMessageRole
  name : Option String
  subagentRunId : Tag

structure ToolCallFields where
  toolCallId : String
  toolCallName : String
  parentMessageId : Option String
  subagentRunId : Tag

structure ReasoningMessageFields where
  messageId : String
  subagentRunId : Tag

inductive PendingKind where
  | text
  | tool
  | reasoning
deriving DecidableEq

/-- The stream one lane is currently assembling. -/
inductive PendingStream where
  | text (fields : TextMessageFields)
  | tool (fields : ToolCallFields)
  | reasoning (fields : ReasoningMessageFields)

namespace PendingStream

def kind : PendingStream -> PendingKind
  | text _ => .text
  | tool _ => .tool
  | reasoning _ => .reasoning

/-- `pendingEntityId`. -/
def entityId : PendingStream -> String
  | text fields => fields.messageId
  | tool fields => fields.toolCallId
  | reasoning fields => fields.messageId

/-- The tag of the event that opened the stream. -/
def subagentRunId : PendingStream -> Tag
  | text fields => fields.subagentRunId
  | tool fields => fields.subagentRunId
  | reasoning fields => fields.subagentRunId

/-- The synthesized opener, before the remainder is carried onto it. -/
def startEvent (metadata : Option Metadata) : PendingStream -> Event
  | text fields =>
    .textMessageStart
      { messageId := fields.messageId, role := some fields.role, name := fields.name
        subagentRunId := fields.subagentRunId, metadata := metadata }
  | tool fields =>
    .toolCallStart
      { toolCallId := fields.toolCallId, toolCallName := fields.toolCallName
        parentMessageId := fields.parentMessageId
        subagentRunId := fields.subagentRunId, metadata := metadata }
  | reasoning fields =>
    .reasoningMessageStart
      { messageId := fields.messageId, subagentRunId := fields.subagentRunId, metadata := metadata }

/-- The synthesized content event, on top of what it inherits from its chunk. -/
def contentEvent (base : BaseEvent) (delta : String) (subagentRunId : Tag) : PendingStream -> Event
  | text fields =>
    .textMessageContent
      { base with messageId := fields.messageId, delta := delta, subagentRunId := subagentRunId }
  | tool fields =>
    .toolCallArgs
      { base with toolCallId := fields.toolCallId, delta := delta, subagentRunId := subagentRunId }
  | reasoning fields =>
    .reasoningMessageContent
      { base with messageId := fields.messageId, delta := delta, subagentRunId := subagentRunId }

/-- The end that is synthesized for an open stream. -/
def endEvent : PendingStream -> Event
  | text fields =>
    .textMessageEnd { messageId := fields.messageId, subagentRunId := fields.subagentRunId }
  | tool fields =>
    .toolCallEnd { toolCallId := fields.toolCallId, subagentRunId := fields.subagentRunId }
  | reasoning fields =>
    .reasoningMessageEnd { messageId := fields.messageId, subagentRunId := fields.subagentRunId }

end PendingStream

/-- What one arm of the expansion calls the things it talks about. -/
def PendingKind.entityKind : PendingKind -> String
  | .text => "text message"
  | .tool => "tool call"
  | .reasoning => "reasoning message"

/-- The chunks such a stream is made of. -/
def PendingKind.chunkType : PendingKind -> EventType
  | .text => .textMessageChunk
  | .tool => .toolCallChunk
  | .reasoning => .reasoningMessageChunk

def missingIdFieldName : PendingKind -> String
  | .tool => "toolCallId"
  | _ => "messageId"

/-! ## Errors and warnings -/

/-- Why a chunk is refused. -/
inductive ChunkError where
  | continuationOwner (kind : PendingKind) (entityId : String) (tag : String) (owner : Lane)
  | ambiguous (kind : PendingKind) (candidates : Nat)
  | openerDisagreement (kind : PendingKind) (entityId field : String) (incoming : String)
      (established : Option String)
  | missingFirst (kind : PendingKind) (field : String)

def ChunkError.message : ChunkError -> String
  | continuationOwner kind entityId tag owner =>
    "Cannot continue " ++ kind.entityKind ++ " '" ++ entityId ++ "': chunk subagentRunId '" ++ tag ++
      "' does not match the open stream's subagent '" ++ owner.getD "(the parent agent)" ++ "'."
  | ambiguous kind candidates =>
    "Ambiguous " ++ kind.chunkType.name ++ ": it carries neither a " ++ missingIdFieldName kind ++
      " nor a subagentRunId, but " ++ toString candidates ++ " lanes have an open " ++
      kind.entityKind ++ ". Attribute the chunk to the subagent it belongs to."
  | openerDisagreement kind entityId field incoming established =>
    "Cannot continue " ++ kind.entityKind ++ " '" ++ entityId ++ "': chunk " ++ field ++ " '" ++
      incoming ++ "' does not match the open stream's " ++ field ++ " " ++
      (match established with
        | none => "(absent)"
        | some value => "'" ++ value ++ "'") ++ "."
  | missingFirst kind field => "First " ++ kind.chunkType.name ++ " must have a " ++ field

/-- A report that an opener describes properties its chunk also carried. -/
structure ChunkWarning where
  chunkType : EventType
  shadowed : List String
  synthesized : EventType

def ChunkWarning.sentence (warning : ChunkWarning) : String :=
  "A " ++ warning.chunkType.name ++ " carried " ++
    ", ".intercalate (warning.shadowed.map fun key => "'" ++ key ++ "'") ++
    ", which the synthesized " ++ warning.synthesized.name ++
    " already describes. The synthesized value is kept and the chunk's is dropped — " ++
    "this stage does not judge a described field, so the producer's value cannot be substituted for its own."

/-! ## State -/

/-- At most one stream is open in each lane. -/
structure TransformState where
  lanes : OrderedMap Lane PendingStream := OrderedMap.empty
  /-- What was written to the console so far. -/
  warnings : List ChunkWarning := []

/-- Emit the END for whatever `owner` has open, and clear the lane. -/
def closeLane (lanes : OrderedMap Lane PendingStream) (owner : Lane) :
    OrderedMap Lane PendingStream × List Event :=
  match lanes.get? owner with
  | none => (lanes, [])
  | some pending => (lanes.erase owner, [pending.endEvent])

/-- Close every lane, in the order they opened. -/
def closeAllLanes (lanes : OrderedMap Lane PendingStream) : OrderedMap Lane PendingStream × List Event :=
  (OrderedMap.empty, lanes.entries.map fun entry => entry.2.endEvent)

/-- The lane holding an open stream of `kind` under `entityId`, if any. -/
def laneHolding (lanes : OrderedMap Lane PendingStream) (kind : PendingKind) (entityId : String) :
    Option Lane :=
  (lanes.entries.find? fun entry => entry.2.kind == kind && entry.2.entityId == entityId).map Prod.fst

/-- Decide which lane a chunk belongs to. -/
def resolveLane (lanes : OrderedMap Lane PendingStream) (kind : PendingKind) (entityId : Option String)
    (tag : Option String) : Except ChunkError Lane :=
  match entityId with
  | some entityId =>
    match laneHolding lanes kind entityId with
    | some owner =>
      match tag with
      | some name =>
        if owner = some name then .ok owner
        else .error (.continuationOwner kind entityId name owner)
      | none => .ok owner
    | none => .ok tag
  | none =>
    match tag with
    | some name => .ok (some name)
    | none =>
      if ((lanes.get? none).map PendingStream.kind) = some kind then .ok none
      else
        match lanes.entries.filter fun entry => entry.2.kind == kind with
        | [] => .ok none
        | [entry] => .ok entry.1
        | candidates => .error (.ambiguous kind candidates.length)

/-! ## Arms -/

/-- What the expansion reads off a chunk. -/
structure ChunkArm where
  kind : PendingKind
  /-- The field names of the chunk's schema. -/
  described : List String
  entityId : Option String
  delta : Option String
  event : AttributedEvent
  /-- A repeated opener field that contradicts the open stream. -/
  disagreement : PendingStream -> Option ChunkError
  /-- The stream the chunk opens, if it carries what an opener needs. -/
  opener : Except ChunkError PendingStream
  /-- Only a chunk that names an id opens a stream: that id, in its own name. -/
  opens : ∀ pending, opener = .ok pending ->
    entityId = some pending.entityId ∧ pending.kind = kind ∧ pending.subagentRunId = event.subagentRunId

/-- A continuing chunk may repeat a field of the opener, but not contradict it. -/
def requireOpenerAgreement (kind : PendingKind) (entityId field : String)
    (incoming established : Option String) : Option ChunkError :=
  match incoming with
  | none => none
  | some value =>
    if established = some value then none
    else some (.openerDisagreement kind entityId field value established)

def roleName : TextMessageRole -> String
  | .developer => "developer"
  | .system => "system"
  | .assistant => "assistant"
  | .user => "user"

def textChunkArm (chunk : TextMessageChunkEvent) : ChunkArm where
  kind := .text
  described := ["type", "timestamp", "rawEvent", "metadata", "subagentRunId", "messageId", "role", "delta", "name"]
  entityId := chunk.messageId
  delta := chunk.delta
  event := chunk.toAttributedEvent
  disagreement
    | .text fields =>
      (requireOpenerAgreement .text fields.messageId "role" (chunk.role.map roleName)
          (some (roleName fields.role))).or
        (requireOpenerAgreement .text fields.messageId "name" chunk.name fields.name)
    | _ => none
  opener :=
    match chunk.messageId with
    | none => .error (.missingFirst .text "messageId")
    | some messageId =>
      .ok (.text
        { messageId := messageId, role := chunk.role.getD .assistant, name := chunk.name
          subagentRunId := chunk.subagentRunId })
  opens := by
    intro pending opened
    split at opened
    · cases opened
    · cases opened
      exact ⟨‹_›, rfl, rfl⟩

def toolChunkArm (chunk : ToolCallChunkEvent) : ChunkArm where
  kind := .tool
  described :=
    ["type", "timestamp", "rawEvent", "metadata", "subagentRunId", "toolCallId", "toolCallName", "parentMessageId",
      "delta"]
  entityId := chunk.toolCallId
  delta := chunk.delta
  event := chunk.toAttributedEvent
  disagreement
    | .tool fields =>
      (requireOpenerAgreement .tool fields.toolCallId "toolCallName" chunk.toolCallName
          (some fields.toolCallName)).or
        (requireOpenerAgreement .tool fields.toolCallId "parentMessageId" chunk.parentMessageId
          fields.parentMessageId)
    | _ => none
  opener :=
    match chunk.toolCallId with
    | none => .error (.missingFirst .tool "toolCallId")
    | some toolCallId =>
      match chunk.toolCallName with
      | none => .error (.missingFirst .tool "toolCallName")
      | some toolCallName =>
        .ok (.tool
          { toolCallId := toolCallId, toolCallName := toolCallName
            parentMessageId := chunk.parentMessageId, subagentRunId := chunk.subagentRunId })
  opens := by
    intro pending opened
    split at opened
    · cases opened
    · split at opened
      · cases opened
      · cases opened
        exact ⟨‹_›, rfl, rfl⟩

def reasoningChunkArm (chunk : ReasoningMessageChunkEvent) : ChunkArm where
  kind := .reasoning
  described := ["type", "timestamp", "rawEvent", "metadata", "subagentRunId", "messageId", "delta"]
  entityId := chunk.messageId
  delta := chunk.delta
  event := chunk.toAttributedEvent
  disagreement := fun _ => none
  opener :=
    match chunk.messageId with
    | none => .error (.missingFirst .reasoning "messageId")
    | some messageId =>
      .ok (.reasoning { messageId := messageId, subagentRunId := chunk.subagentRunId })
  opens := by
    intro pending opened
    split at opened
    · cases opened
    · cases opened
      exact ⟨‹_›, rfl, rfl⟩

/-! ## The remainder -/

/-- `target[key] = value` on a plain object.  Assigning to `__proto__` runs
the accessor inherited from `Object.prototype` and makes no property. -/
def assignProperty (target : Properties) (key : String) (value : Json) : Properties :=
  if key = "__proto__" then target else target.set key value

/-- Whatever the chunk carries that its schema has no field for. -/
def unrecognisedChunkProperties (properties : Properties) (described : List String) : Option Properties :=
  properties.entries.foldl
    (fun remainder entry =>
      if described.contains entry.1 then remainder
      else some (assignProperty (remainder.getD OrderedMap.empty) entry.1 entry.2))
    none

/-- The keys a synthesized opener owns.  Only an opener is ever asked. -/
def ownKeys : Event -> List String
  | .textMessageStart event =>
    ["type", "messageId", "role"] ++ (event.name.map fun _ => "name").toList ++ shared event.toAttributedEvent
  | .toolCallStart event =>
    ["type", "toolCallId", "toolCallName"] ++ (event.parentMessageId.map fun _ => "parentMessageId").toList ++
      shared event.toAttributedEvent
  | .reasoningMessageStart event => ["type", "messageId", "role"] ++ shared event.toAttributedEvent
  | event => event.extra.keys
where
  shared (event : AttributedEvent) : List String :=
    (if event.subagentRunId.isPresent then ["subagentRunId"] else []) ++
      (event.metadata.map fun _ => "metadata").toList

/-- `{ ...remainder, ...last }`, for an opener: what it does not own is added to it. -/
def spreadUnder (remainder : Properties) (event : Event) : Event :=
  let kept := remainder.filterKeys fun key => !(ownKeys event).contains key
  match event with
  | .textMessageStart event => .textMessageStart { event with extra := kept.merge event.extra }
  | .toolCallStart event => .toolCallStart { event with extra := kept.merge event.extra }
  | .reasoningMessageStart event => .reasoningMessageStart { event with extra := kept.merge event.extra }
  | event => event

/-- When nothing else took the remainder, it goes onto the last synthesized
event, and what that event already describes is reported.  A host that set
`SUPPRESS_TRANSFORMATION_WARNINGS` hears nothing. -/
def carryRemainderOnOpener (suppressed : Bool) (synthesized : List Event) (remainder : Option Properties)
    (alreadyCarried : Bool) (chunkType : EventType) : List Event × List ChunkWarning :=
  match remainder, synthesized.getLast? with
  | some remainder, some last =>
    if alreadyCarried then (synthesized, [])
    else
      let shadowed := remainder.keys.filter fun key => (ownKeys last).contains key
      (synthesized.dropLast ++ [spreadUnder remainder last],
        if shadowed.isEmpty || suppressed then [] else [⟨chunkType, shadowed, last.type⟩])
  | _, _ => (synthesized, [])

/-! ## Expansion of one chunk -/

/-- What an arm makes of its chunk, given what its lane has open. -/
structure Assembly where
  pending : PendingStream
  opened : Bool
  events : List Event
  warnings : List ChunkWarning

/-- Continue the open stream, or close it and open the chunk's own. -/
def openStream (arm : ChunkArm) (open? : Option PendingStream) :
    Except ChunkError (PendingStream × Bool × List Event) :=
  match open? with
  | some pending =>
    if pending.kind = arm.kind ∧ (arm.entityId = none ∨ arm.entityId = some pending.entityId) then
      match arm.disagreement pending with
      | some error => .error error
      | none => .ok (pending, false, [])
    else openNew
  | none => openNew
where
  openNew : Except ChunkError (PendingStream × Bool × List Event) :=
    match arm.opener with
    | .error error => .error error
    | .ok pending =>
      .ok (pending, true,
        (open?.map PendingStream.endEvent).toList ++ [pending.startEvent arm.event.metadata])

/-- The incoming chunk's tag if it has one, a `null` included, else the opener's. -/
def contentOwner (arm : ChunkArm) (pending : PendingStream) : Tag :=
  if arm.event.subagentRunId.isPresent then arm.event.subagentRunId else pending.subagentRunId

namespace ChunkArm

/-- The properties of the chunk that none of its fields describes. -/
def remainder (arm : ChunkArm) : Option Properties :=
  unrecognisedChunkProperties arm.event.extra arm.described

/-- `withChunkOrigin`, on top of the remainder: what a content event takes over from its chunk. -/
def origin (arm : ChunkArm) : BaseEvent where
  metadata := arm.event.metadata
  rawEvent := arm.event.rawEvent
  extra := arm.remainder.getD OrderedMap.empty

/-- The content event of a chunk, written for the owner of its stream. -/
def content (arm : ChunkArm) (pending : PendingStream) (delta : String) : Event :=
  pending.contentEvent arm.origin delta (contentOwner arm pending)

end ChunkArm

/-- The chunk as start, where it opens a stream, and content, where it has any. -/
def assemble (suppressed : Bool) (arm : ChunkArm) (open? : Option PendingStream) :
    Except ChunkError Assembly :=
  match openStream arm open? with
  | .error error => .error error
  | .ok (pending, opened, synthesized) =>
    let streams := arm.delta.isSome || arm.event.rawEvent.isSome
    let streamed :=
      if streams then synthesized ++ [arm.content pending (arm.delta.getD "")] else synthesized
    -- A continuation that synthesized nothing may still have something to say.
    let bare := streamed.isEmpty &&
      (arm.event.metadata.isSome || arm.event.rawEvent.isSome || arm.event.subagentRunId.isNull ||
        arm.remainder.isSome)
    let complete := if bare then streamed ++ [arm.content pending ""] else streamed
    let carried :=
      carryRemainderOnOpener suppressed complete arm.remainder (streams || bare) arm.kind.chunkType
    .ok { pending := pending, opened := opened, events := carried.1, warnings := carried.2 }

/-- The lane of the chunk is found first, and its stream is opened or continued there. -/
def expandChunk (suppressed : Bool) (state : TransformState) (arm : ChunkArm) :
    Except ChunkError (TransformState × List Event) :=
  match resolveLane state.lanes arm.kind arm.entityId arm.event.subagentRunId.toOption with
  | .error error => .error error
  | .ok lane =>
    match assemble suppressed arm (state.lanes.get? lane) with
    | .error error => .error error
    | .ok assembly =>
      .ok
        ({ lanes :=
             if assembly.opened then (state.lanes.erase lane).set lane assembly.pending
             else state.lanes
           warnings := state.warnings ++ assembly.warnings },
         assembly.events)

/-! ## The stage -/

/-- Which pending streams an event that is not a chunk closes. -/
inductive Closing where
  | lane (owner : Lane)
  | allLanes
  | nothing

/-- Which lanes an event closes before it passes. -/
def closing : Event -> Closing
  | .textMessageStart e => .lane e.subagentRunId.toOption
  | .textMessageContent e => .lane e.subagentRunId.toOption
  | .textMessageEnd e => .lane e.subagentRunId.toOption
  | .toolCallStart e => .lane e.subagentRunId.toOption
  | .toolCallArgs e => .lane e.subagentRunId.toOption
  | .toolCallEnd e => .lane e.subagentRunId.toOption
  | .toolCallResult e => .lane e.subagentRunId.toOption
  | .stateSnapshot e => .lane e.subagentRunId.toOption
  | .stateDelta e => .lane e.subagentRunId.toOption
  | .custom e => .lane e.subagentRunId.toOption
  | .stepStarted e => .lane e.subagentRunId.toOption
  | .stepFinished e => .lane e.subagentRunId.toOption
  | .reasoningStart e => .lane e.subagentRunId.toOption
  | .reasoningMessageStart e => .lane e.subagentRunId.toOption
  | .reasoningMessageContent e => .lane e.subagentRunId.toOption
  | .reasoningMessageEnd e => .lane e.subagentRunId.toOption
  | .reasoningEnd e => .lane e.subagentRunId.toOption
  | .runStarted _ => .allLanes
  | .runFinished _ => .allLanes
  | .runError _ => .allLanes
  | .messagesSnapshot _ => .allLanes
  -- A terminal without an id must not be read as closing the parent's lane.
  | .subagentFinished e => terminal e.subagentRunId
  | .subagentError e => terminal e.subagentRunId
  | _ => .nothing
where
  terminal (tag : Tag) : Closing :=
    match tag.toOption with
    | none => .nothing
    | some owner => .lane (some owner)

/-- An event that is not a chunk goes through, after what it closes. -/
def passThrough (state : TransformState) (event : Event) : TransformState × List Event :=
  match closing event with
  | .lane owner =>
    let closed := closeLane state.lanes owner
    ({ state with lanes := closed.1 }, closed.2 ++ [event])
  | .allLanes =>
    let closed := closeAllLanes state.lanes
    ({ state with lanes := closed.1 }, closed.2 ++ [event])
  | .nothing => (state, [event])

def chunkArm? : Event -> Option ChunkArm
  | .textMessageChunk chunk => some (textChunkArm chunk)
  | .toolCallChunk chunk => some (toolChunkArm chunk)
  | .reasoningMessageChunk chunk => some (reasoningChunkArm chunk)
  | _ => none

/-- Chunks are expanded; every other event passes, and may close lanes before it does. -/
def transformChunks (suppressed : Bool) : Stage TransformState Event Event ChunkError := fun state event =>
  match chunkArm? event with
  | some arm => expandChunk suppressed state arm
  | none => .ok (passThrough state event)

/-- At the end of the stream every lane is cleared.  The END events are built
and discarded: nothing can be emitted any more. -/
def finalize (state : TransformState) : TransformState :=
  { state with lanes := (closeAllLanes state.lanes).1 }

end Chunks
end AgUi
