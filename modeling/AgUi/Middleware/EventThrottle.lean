import Mathlib.Algebra.Order.Ring.Unbundled.Rat
import AgUi.A2ui.Surfaces
import AgUi.Chunks.Transform

namespace AgUi
namespace Middleware

open Library Protocol Chunks

/-!
# Throttling

The throttle holds events back and delivers them in batches.  When a batch
goes out, consecutive chunks of one stream are coalesced into one chunk.  When
it goes out depends on the clock, on a timer and on the length of the text:
what happens to the throttle is a list of occurrences, an event that arrives or
the timer that fires, each at a time of the clock.
-/

/-! ## Configuration -/

structure EventThrottleConfig where
  intervalMs : Rat
  minChunkSize : Option Rat := none

structure EventThrottleMiddleware where
  intervalMs : Rat
  minChunkSize : Rat
  intervalMs_nonneg : 0 ≤ intervalMs
  minChunkSize_nonneg : 0 ≤ minChunkSize

/-- The constructor throws on a negative number. -/
def EventThrottleConfig.toMiddleware (config : EventThrottleConfig) : Option EventThrottleMiddleware :=
  if interval : 0 ≤ config.intervalMs then
    if size : 0 ≤ config.minChunkSize.getD 0 then
      some ⟨config.intervalMs, config.minChunkSize.getD 0, interval, size⟩
    else none
  else none

/-! ## Chunks -/

/-- The events that may wait; all others pass at once. -/
def BUFFERABLE_EVENT_TYPES : List EventType :=
  [.textMessageChunk, .textMessageContent, .toolCallChunk, .stateSnapshot, .stateDelta, .messagesSnapshot,
   .activitySnapshot, .activityDelta, .reasoningMessageContent, .reasoningMessageChunk, .raw]

/-- What two chunks share when they can be merged. -/
structure ChunkKey where
  kind : PendingKind
  owner : Option String
  entityId : String
deriving DecidableEq

def keyOf (kind : PendingKind) (owner : Tag) : Option String -> Option ChunkKey
  | none => none
  | some entityId => if entityId = "" then none else some ⟨kind, owner.toOption, entityId⟩

/-- What a chunk is coalesced by. -/
def chunkKey : Event -> Option ChunkKey
  | .textMessageChunk chunk => keyOf .text chunk.subagentRunId chunk.messageId
  | .toolCallChunk chunk => keyOf .tool chunk.subagentRunId chunk.toolCallId
  | .reasoningMessageChunk chunk => keyOf .reasoning chunk.subagentRunId chunk.messageId
  | _ => none

def chunkDelta : Event -> Option String
  | .textMessageChunk chunk => chunk.delta
  | .toolCallChunk chunk => chunk.delta
  | .reasoningMessageChunk chunk => chunk.delta
  | _ => none

/-- A chunk that takes in the delta and the metadata of the next one, and nothing else of it. -/
def mergeChunk (last event : Event) : Event :=
  let merged := some ((chunkDelta last).getD "" ++ (chunkDelta event).getD "")
  let metadata := mergeMetadata last.metadata event.metadata
  match last with
  | .textMessageChunk chunk => .textMessageChunk { chunk with delta := merged, metadata := metadata }
  | .toolCallChunk chunk => .toolCallChunk { chunk with delta := merged, metadata := metadata }
  | .reasoningMessageChunk chunk => .reasoningMessageChunk { chunk with delta := merged, metadata := metadata }
  | other => other

def coalesceNext (coalesced : List Event) (event : Event) : List Event :=
  match chunkKey event, coalesced.getLast? with
  | some key, some last =>
    if chunkKey last = some key then coalesced.dropLast ++ [mergeChunk last event] else coalesced ++ [event]
  | _, _ => coalesced ++ [event]

/-- Neighbors with one key become one chunk. -/
def coalesce (batch : List Event) : List Event :=
  batch.foldl coalesceNext []

/-! ## The throttle -/

/-- What waits to be delivered, and since when. -/
structure Throttle where
  buffer : List Event := []
  lastFlushTime : Rat := 0
  charsSinceFlush : Nat := 0
  lastTrackedMessageId : Option String := none
  /-- How long the timer that is set was set for. -/
  timer : Option Rat := none

/-- What goes out at once: a batch, and an event that was never held back. -/
structure Delivery where
  batch : List Event := []
  immediate : List Event := []

def Delivery.events (delivery : Delivery) : List Event :=
  coalesce delivery.batch ++ delivery.immediate

inductive Occurrence where
  | next (event : Event) (now : Rat)
  | timer (now : Rat)

def Throttle.flush (throttle : Throttle) (now : Rat) : Throttle × Delivery :=
  if throttle.buffer.isEmpty then ({ throttle with timer := none }, {})
  else
    ({ throttle with timer := none, buffer := [], charsSinceFlush := 0, lastFlushTime := now },
      { batch := throttle.buffer })

namespace EventThrottleMiddleware

variable (middleware : EventThrottleMiddleware)

def isNoop : Bool :=
  middleware.intervalMs ≤ 0 && middleware.minChunkSize ≤ 0

/-- Counts the text that arrives for one message. -/
def track (throttle : Throttle) : Event -> Throttle
  | .textMessageChunk chunk =>
    if 0 < middleware.minChunkSize then
      let counted := if chunk.messageId = throttle.lastTrackedMessageId then throttle.charsSinceFlush else 0
      { throttle with
        lastTrackedMessageId := chunk.messageId
        charsSinceFlush := counted + A2ui.utf16Length (chunk.delta.getD "") }
    else throttle
  | _ => throttle

def thresholdMet (throttle : Throttle) (now : Rat) : Bool :=
  let isLeading := throttle.lastFlushTime == 0
  let timeThresholdMet := 0 < middleware.intervalMs && middleware.intervalMs ≤ now - throttle.lastFlushTime
  let chunkThresholdMet := 0 < middleware.minChunkSize && middleware.minChunkSize ≤ throttle.charsSinceFlush
  isLeading || timeThresholdMet || chunkThresholdMet

def scheduleTrailing (throttle : Throttle) (now : Rat) : Throttle :=
  if throttle.timer.isSome ∨ middleware.intervalMs ≤ 0 then throttle
  else { throttle with timer := some (max 0 (middleware.intervalMs - (now - throttle.lastFlushTime))) }

def next (throttle : Throttle) (event : Event) (now : Rat) : Throttle × Delivery :=
  if BUFFERABLE_EVENT_TYPES.contains event.type then
    let buffered := middleware.track { throttle with buffer := throttle.buffer ++ [event] } event
    if middleware.thresholdMet buffered now then buffered.flush now
    else (middleware.scheduleTrailing buffered now, {})
  else
    let flushed := throttle.flush now
    ({ flushed.1 with lastFlushTime := now }, { flushed.2 with immediate := [event] })

/-- A timer that is not set does not fire. -/
def occur (throttle : Throttle) : Occurrence -> Throttle × Delivery
  | .next event now => middleware.next throttle event now
  | .timer now => if throttle.timer.isSome then throttle.flush now else (throttle, {})

/-- What is delivered until the source completes, and then. -/
def deliveries (completed : Rat) : Throttle -> List Occurrence -> List Delivery
  | throttle, [] => [(throttle.flush completed).2]
  | throttle, occurrence :: rest =>
    let occurred := middleware.occur throttle occurrence
    occurred.2 :: deliveries completed occurred.1 rest

end EventThrottleMiddleware

/-- The events of the source. -/
def arrivals (schedule : List Occurrence) : List Event :=
  schedule.filterMap fun occurrence =>
    match occurrence with
    | .next event _ => some event
    | .timer _ => none

/-- What the middleware emits for a source that completes. -/
def EventThrottleMiddleware.run (middleware : EventThrottleMiddleware) (schedule : List Occurrence) (completed : Rat) :
    List Event :=
  if middleware.isNoop then arrivals schedule
  else (middleware.deliveries completed {} schedule).flatMap Delivery.events

end Middleware
end AgUi
