import AgUi.Apply.Reducer

namespace AgUi
namespace Compact

open Library Protocol Apply

/-!
# Compaction

`compactEvents` keeps one buffer for each text message and each tool call it
has seen start, holds back what arrives meanwhile, and writes a buffer out
when its END arrives.  State events wait for the next run event.  What is
still held at the end of the list is written out then.

The source spells the buffer of a text message and the buffer of a tool call
out separately.  They differ in the types of their events and in nothing
else: `StreamKind` is what differs, and `textMessages` and `toolCalls` are
the two.
-/

/-! ## Metadata -/

/-- The metadata of a start that follows another start of the same stream. -/
def carryStartMetadata {Start : Type} (metadata : Start -> Option Metadata)
    (withMetadata : Start -> Option Metadata -> Start) (previous : Option Start) (following : Start) :
    Start :=
  match previous with
  | none => following
  | some previous =>
    match mergeMetadata (metadata previous) (metadata following) with
    | none => following
    | some merged => withMetadata following (some merged)

/-- A start replayed after deltas: its fields win, its metadata stays behind. -/
def replaceStartFields {Start : Type} (metadata : Start -> Option Metadata)
    (withMetadata : Start -> Option Metadata -> Start) (previous : Option Start) (following : Start) :
    Start :=
  withMetadata following (previous.bind metadata)

/-- Later entries win, as they do when the events are applied one by one. -/
def collapseMetadata (carried : List (Option Metadata)) : Option Metadata :=
  carried.foldl mergeMetadata none

/-! ## Buffers -/

/-- What the code for text messages and the code for tool calls differ in. -/
structure StreamKind (Start Delta End : Type) where
  startMetadata : Start -> Option Metadata
  withMetadata : Start -> Option Metadata -> Start
  text : Delta -> String
  deltaMetadata : Delta -> Option Metadata
  /-- The delta that stands for a whole buffer of them. -/
  compacted : String -> String -> Option Metadata -> Delta
  ofStart : Start -> Event
  ofDelta : Delta -> Event
  ofEnd : End -> Event

/-- What has been buffered of one stream. -/
structure Pending (Start Delta End : Type) where
  start : Option Start := none
  deltas : List Delta := []
  ended : Option End := none
  otherEvents : List Event := []
  postStartMetadata : Option Metadata := none

namespace Pending

variable {Start Delta End : Type} (kind : StreamKind Start Delta End)

/-- A further start takes the place of the first; once there are deltas, its metadata counts as later. -/
def addStart (pending : Pending Start Delta End) (event : Start) : Pending Start Delta End :=
  if pending.deltas.isEmpty then
    { pending with
      start := some (carryStartMetadata kind.startMetadata kind.withMetadata pending.start event) }
  else
    { pending with
      start := some (replaceStartFields kind.startMetadata kind.withMetadata pending.start event)
      postStartMetadata := mergeMetadata pending.postStartMetadata (kind.startMetadata event) }

def addDelta (pending : Pending Start Delta End) (event : Delta) : Pending Start Delta End :=
  { pending with
    deltas := pending.deltas ++ [event]
    postStartMetadata := mergeMetadata pending.postStartMetadata (kind.deltaMetadata event) }

/-- An event that came between start and end; it is written behind the stream. -/
def addOther (pending : Pending Start Delta End) (event : Event) : Pending Start Delta End :=
  { pending with otherEvents := pending.otherEvents ++ [event] }

/-- `pending.start && !pending.end` -/
def isBetween (pending : Pending Start Delta End) : Bool :=
  pending.start.isSome && pending.ended.isNone

/-- The one delta a buffer of them becomes. -/
def compactedDelta (id : String) (pending : Pending Start Delta End) : List Delta :=
  if pending.deltas.isEmpty then []
  else [kind.compacted id (String.join (pending.deltas.map kind.text)) pending.postStartMetadata]

/-- The stream as start, one delta and end, and behind it what came between. -/
def flush (id : String) (pending : Pending Start Delta End) : List Event :=
  pending.start.toList.map kind.ofStart ++ (pending.compactedDelta kind id).map kind.ofDelta ++
    pending.ended.toList.map kind.ofEnd ++ pending.otherEvents

end Pending

abbrev PendingTextMessage :=
  Pending TextMessageStartEvent TextMessageContentEvent TextMessageEndEvent

abbrev PendingToolCall :=
  Pending ToolCallStartEvent ToolCallArgsEvent ToolCallEndEvent

def textMessages : StreamKind TextMessageStartEvent TextMessageContentEvent TextMessageEndEvent where
  startMetadata event := event.metadata
  withMetadata event metadata := { event with metadata := metadata }
  text event := event.delta
  deltaMetadata event := event.metadata
  compacted messageId delta metadata := { messageId := messageId, delta := delta, metadata := metadata }
  ofStart := .textMessageStart
  ofDelta := .textMessageContent
  ofEnd := .textMessageEnd

def toolCalls : StreamKind ToolCallStartEvent ToolCallArgsEvent ToolCallEndEvent where
  startMetadata event := event.metadata
  withMetadata event metadata := { event with metadata := metadata }
  text event := event.delta
  deltaMetadata event := event.metadata
  compacted toolCallId delta metadata := { toolCallId := toolCallId, delta := delta, metadata := metadata }
  ofStart := .toolCallStart
  ofDelta := .toolCallArgs
  ofEnd := .toolCallEnd

def flushTextMessage (messageId : String) (pending : PendingTextMessage) : List Event :=
  pending.flush textMessages messageId

def flushToolCall (toolCallId : String) (pending : PendingToolCall) : List Event :=
  pending.flush toolCalls toolCallId

/-! ## State events -/

/-- The events that change the state document. -/
inductive StateEvent where
  | snapshot (event : StateSnapshotEvent)
  | delta (event : StateDeltaEvent)

namespace StateEvent

def toEvent : StateEvent -> Event
  | snapshot event => .stateSnapshot event
  | delta event => .stateDelta event

def metadata : StateEvent -> Option Metadata
  | snapshot event => event.metadata
  | delta event => event.metadata

def isSnapshot : StateEvent -> Bool
  | snapshot _ => true
  | delta _ => false

/-- A patch that does not apply is skipped. -/
def apply (applyPatch : ApplyPatch) (state : Json) : StateEvent -> Json
  | snapshot event => event.snapshot
  | delta event => (applyPatch state event.delta).getD state

end StateEvent

/-- The events from the last snapshot on, or nothing without a snapshot. -/
def fromLastSnapshot : List StateEvent -> List StateEvent
  | [] => []
  | event :: rest =>
    if rest.any StateEvent.isSnapshot then fromLastSnapshot rest
    else if event.isSnapshot then event :: rest
    else []

/-- With a snapshot among them the state events become one snapshot; without, they stay. -/
def flushState (applyPatch : ApplyPatch) (stateEvents : List StateEvent) : List Event :=
  if stateEvents.any StateEvent.isSnapshot then
    [.stateSnapshot
      { snapshot := (fromLastSnapshot stateEvents).foldl (StateEvent.apply applyPatch) (.object [])
        metadata := collapseMetadata (stateEvents.map StateEvent.metadata) }]
  else stateEvents.map StateEvent.toEvent

/-! ## The loop -/

/-- What is buffered until the next boundary. -/
structure CompactState where
  pendingTextMessages : OrderedMap String PendingTextMessage := OrderedMap.empty
  pendingToolCalls : OrderedMap String PendingToolCall := OrderedMap.empty
  stateEvents : List StateEvent := []

/-- Write to the buffer of an id, which is a new one if there is none. -/
def withPending {Start Delta End : Type} (buffers : OrderedMap String (Pending Start Delta End))
    (id : String) (change : Pending Start Delta End -> Pending Start Delta End) :
    OrderedMap String (Pending Start Delta End) :=
  buffers.set id (change ((buffers.get? id).getD {}))

/-- The first buffer, in order of insertion, that an event in between goes to. -/
def firstBetween {Start Delta End : Type} (buffers : OrderedMap String (Pending Start Delta End)) :
    Option String :=
  (buffers.entries.find? fun entry => entry.2.isBetween).map Prod.fst

namespace CompactState

/-- An event that belongs to no stream waits for the first one that is open. -/
def holdOther (state : CompactState) (event : Event) : CompactState × List Event :=
  match firstBetween state.pendingTextMessages with
  | some messageId =>
    ({ state with
        pendingTextMessages :=
          withPending state.pendingTextMessages messageId fun pending => pending.addOther event }, [])
  | none =>
    match firstBetween state.pendingToolCalls with
    | some toolCallId =>
      ({ state with
          pendingToolCalls :=
            withPending state.pendingToolCalls toolCallId fun pending => pending.addOther event }, [])
    | none => (state, [event])

/-- One event: the buffers after it, and what is written out. -/
def step (applyPatch : ApplyPatch) (state : CompactState) : Event -> CompactState × List Event
  | .textMessageStart e =>
    ({ state with
        pendingTextMessages :=
          withPending state.pendingTextMessages e.messageId fun pending =>
            pending.addStart textMessages e }, [])
  | .textMessageContent e =>
    ({ state with
        pendingTextMessages :=
          withPending state.pendingTextMessages e.messageId fun pending =>
            pending.addDelta textMessages e }, [])
  | .textMessageEnd e =>
    let pending := (state.pendingTextMessages.get? e.messageId).getD {}
    ({ state with pendingTextMessages := state.pendingTextMessages.erase e.messageId },
      flushTextMessage e.messageId { pending with ended := some e })
  | .toolCallStart e =>
    ({ state with
        pendingToolCalls :=
          withPending state.pendingToolCalls e.toolCallId fun pending =>
            pending.addStart toolCalls e }, [])
  | .toolCallArgs e =>
    ({ state with
        pendingToolCalls :=
          withPending state.pendingToolCalls e.toolCallId fun pending =>
            pending.addDelta toolCalls e }, [])
  | .toolCallEnd e =>
    let pending := (state.pendingToolCalls.get? e.toolCallId).getD {}
    ({ state with pendingToolCalls := state.pendingToolCalls.erase e.toolCallId },
      flushToolCall e.toolCallId { pending with ended := some e })
  | .runStarted e =>
    ({ state with stateEvents := [] }, flushState applyPatch state.stateEvents ++ [Event.runStarted e])
  | .runFinished e =>
    ({ state with stateEvents := [] }, flushState applyPatch state.stateEvents ++ [Event.runFinished e])
  | .runError e =>
    ({ state with stateEvents := [] }, flushState applyPatch state.stateEvents ++ [Event.runError e])
  | .stateSnapshot e => ({ state with stateEvents := state.stateEvents ++ [StateEvent.snapshot e] }, [])
  | .stateDelta e => ({ state with stateEvents := state.stateEvents ++ [StateEvent.delta e] }, [])
  | event => state.holdOther event

/-- What is written out at the end of the list. -/
def flush (applyPatch : ApplyPatch) (state : CompactState) : List Event :=
  state.pendingTextMessages.entries.flatMap (fun entry => flushTextMessage entry.1 entry.2) ++
    state.pendingToolCalls.entries.flatMap (fun entry => flushToolCall entry.1 entry.2) ++
    flushState applyPatch state.stateEvents

end CompactState

def compactFrom (applyPatch : ApplyPatch) (state : CompactState) : List Event -> List Event
  | [] => state.flush applyPatch
  | event :: rest =>
    (state.step applyPatch event).2 ++ compactFrom applyPatch (state.step applyPatch event).1 rest

/-- `compactEvents`, with the patches it applies as a parameter. -/
def compactEvents (applyPatch : ApplyPatch) (events : List Event) : List Event :=
  compactFrom applyPatch {} events

end Compact
end AgUi
