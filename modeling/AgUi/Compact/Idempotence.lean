import AgUi.Compact.Schedule
import AgUi.Verify.Refinement
import AgUi.Verify.Comparison

namespace AgUi
namespace Compact

open Library Protocol Apply

/-!
# Compaction is idempotent

What compaction writes out is settled: whatever follows it, compacting it again
writes it out as it is and leaves no buffer open.  Only what is still held at
the end of the list is not, and there is nothing of that if every stream ends.
-/

section

variable (applyPatch : ApplyPatch)

/-! ## Settled events -/

/-- Compaction writes the events out as they are, and holds nothing back behind them. -/
def Settled (events : List Event) : Prop :=
  ∀ rest, compactFrom applyPatch {} (events ++ rest) = events ++ compactFrom applyPatch {} rest

theorem settled_nil : Settled applyPatch [] :=
  fun _ => rfl

theorem Settled.append {applyPatch : ApplyPatch} {first second : List Event} (early : Settled applyPatch first)
    (late : Settled applyPatch second) : Settled applyPatch (first ++ second) := by
  intro rest
  rw [List.append_assoc, early, late, List.append_assoc]

theorem settled_other {event : Event} (other : part event = .other) : Settled applyPatch [event] := by
  intro rest
  cases event with
  | _ => first | rfl | cases other

theorem settled_others {events : List Event} (others : ∀ event ∈ events, part event = .other) :
    Settled applyPatch events := by
  induction events with
  | nil => exact settled_nil applyPatch
  | cons event rest ih =>
    exact (settled_other applyPatch (others event List.mem_cons_self)).append
      (ih (List.forall_mem_cons.mp others).2)

/-! ## State events -/

theorem compactFrom_toEvent (window later : List StateEvent) (rest : List Event) :
    compactFrom applyPatch { stateEvents := window } (later.map StateEvent.toEvent ++ rest) =
      compactFrom applyPatch { stateEvents := window ++ later } rest := by
  induction later generalizing window with
  | nil => rw [List.append_nil, List.map_nil, List.nil_append]
  | cons event later ih =>
    have split : window ++ event :: later = (window ++ [event]) ++ later := by
      rw [List.append_assoc, List.singleton_append]
    rw [split, ← ih]
    cases event with
    | snapshot event => rfl
    | delta event => rfl

/-- The state events that a window is written out as. -/
theorem exists_window (window : List StateEvent) :
    ∃ written : List StateEvent, flushState applyPatch window = written.map StateEvent.toEvent ∧
      flushState applyPatch written = flushState applyPatch window := by
  cases snapshots : window.any StateEvent.isSnapshot with
  | false =>
    refine ⟨window, ?_, rfl⟩
    rw [flushState, snapshots]
    rfl
  | true =>
    refine ⟨[.snapshot
      { snapshot := (fromLastSnapshot window).foldl (StateEvent.apply applyPatch) (.object [])
        metadata := collapseMetadata (window.map StateEvent.metadata) }], ?_, ?_⟩
    · rw [flushState, snapshots]
      rfl
    · rw [flushState, flushState, snapshots]
      simp [fromLastSnapshot, StateEvent.isSnapshot, StateEvent.apply, collapseMetadata, StateEvent.metadata]

theorem compactFrom_flushState (window : List StateEvent) (rest : List Event) :
    ∃ written, compactFrom applyPatch {} (flushState applyPatch window ++ rest) =
        compactFrom applyPatch { stateEvents := written } rest ∧
      flushState applyPatch written = flushState applyPatch window := by
  rcases exists_window applyPatch window with ⟨written, same, again⟩
  refine ⟨written, ?_, again⟩
  rw [same, compactFrom_toEvent applyPatch []]
  rfl

theorem settled_boundary {event : Event} (boundary : part event = .boundary) (window : List StateEvent) :
    Settled applyPatch (flushState applyPatch window ++ [event]) := by
  intro rest
  rw [List.append_assoc]
  rcases compactFrom_flushState applyPatch window ([event] ++ rest) with ⟨written, same, again⟩
  rw [same, ← again]
  cases event with
  | runStarted event | runFinished event | runError event => rfl
  | _ => cases boundary

theorem compactFrom_flushState_end (window : List StateEvent) :
    compactFrom applyPatch {} (flushState applyPatch window) = flushState applyPatch window := by
  rcases compactFrom_flushState applyPatch window [] with ⟨written, same, again⟩
  rw [List.append_nil] at same
  rw [same, ← again]
  rfl

/-! ## Streams -/

section Streams

variable {Start Delta End : Type} (kind : StreamKind Start Delta End)

theorem get?_withPending (buffers : OrderedMap String (Pending Start Delta End)) (id : String)
    (change : Pending Start Delta End -> Pending Start Delta End) :
    (withPending buffers id change).get? id = some (change ((buffers.get? id).getD {})) := by
  rw [withPending, OrderedMap.get?_set_self]

theorem erase_withPending (buffers : OrderedMap String (Pending Start Delta End)) (id : String)
    (change : Pending Start Delta End -> Pending Start Delta End) :
    (withPending buffers id change).erase id = buffers.erase id := by
  rw [withPending, OrderedMap.erase_set]

/-- The buffers after the starts and the deltas of one stream. -/
def bufferStream (id : String) (starts : List Start) (deltas : List Delta)
    (buffers : OrderedMap String (Pending Start Delta End)) : OrderedMap String (Pending Start Delta End) :=
  deltas.foldl (fun buffers delta => withPending buffers id fun pending => pending.addDelta kind delta)
    (starts.foldl (fun buffers start => withPending buffers id fun pending => pending.addStart kind start) buffers)

/-- The deltas are the one that a buffer of them becomes. -/
def IsCompacted (id : String) (deltas : List Delta) : Prop :=
  deltas = [] ∨ ∃ text metadata, deltas = [kind.compacted id text metadata]

/-- A delta that was made has the text and the metadata it was made with. -/
structure MakesDeltas : Prop where
  text : ∀ id text metadata, kind.text (kind.compacted id text metadata) = text
  metadata : ∀ id text metadata, kind.deltaMetadata (kind.compacted id text metadata) = metadata

theorem compactedDelta_isCompacted (id : String) (pending : Pending Start Delta End) :
    IsCompacted kind id (pending.compactedDelta kind id) := by
  unfold Pending.compactedDelta
  split
  · exact .inl rfl
  · exact .inr ⟨_, _, rfl⟩

/-- A stream that was written out is buffered and written out again as it is. -/
theorem flush_bufferStream (makes : MakesDeltas kind) {id : String} (start : Option Start) {deltas : List Delta}
    (compacted : IsCompacted kind id deltas) (ended : End) :
    Pending.flush kind id
        { ((bufferStream kind id start.toList deltas OrderedMap.empty).get? id).getD {} with ended := some ended } =
      start.toList.map kind.ofStart ++ deltas.map kind.ofDelta ++ [kind.ofEnd ended] ∧
    (bufferStream kind id start.toList deltas OrderedMap.empty).erase id = OrderedMap.empty := by
  have fresh : (OrderedMap.empty : OrderedMap String (Pending Start Delta End)).erase id = OrderedMap.empty := rfl
  rcases compacted with rfl | ⟨text, metadata, rfl⟩
  · cases start with
    | none => exact ⟨rfl, fresh⟩
    | some start =>
      simp only [bufferStream, Option.toList_some, List.foldl_cons, List.foldl_nil, get?_withPending,
        erase_withPending]
      exact ⟨rfl, fresh⟩
  · have remade : ∀ earlier : Option Start, Pending.flush kind id
        { Pending.addDelta kind { start := earlier } (kind.compacted id text metadata) with ended := some ended } =
          earlier.toList.map kind.ofStart ++ [kind.ofDelta (kind.compacted id text metadata)] ++
            [kind.ofEnd ended] := by
      intro earlier
      simp [Pending.flush, Pending.addDelta, Pending.compactedDelta, makes.text, makes.metadata]
    cases start with
    | none =>
      simp only [bufferStream, Option.toList_none, List.foldl_cons, List.foldl_nil, get?_withPending,
        erase_withPending]
      exact ⟨remade none, fresh⟩
    | some start =>
      simp only [bufferStream, Option.toList_some, List.foldl_cons, List.foldl_nil, get?_withPending,
        erase_withPending]
      exact ⟨remade (some start), fresh⟩

end Streams

theorem textMessages_makesDeltas : MakesDeltas textMessages where
  text _ _ _ := rfl
  metadata _ _ _ := rfl

theorem toolCalls_makesDeltas : MakesDeltas toolCalls where
  text _ _ _ := rfl
  metadata _ _ _ := rfl

theorem compactFrom_textStream {id : String} {starts : List TextMessageStartEvent}
    (opens : ∀ start ∈ starts, start.messageId = id) {deltas : List TextMessageContentEvent}
    (continues : ∀ delta ∈ deltas, delta.messageId = id) (state : CompactState) (rest : List Event) :
    compactFrom applyPatch state
        (starts.map Event.textMessageStart ++ deltas.map Event.textMessageContent ++ rest) =
      compactFrom applyPatch
        { state with pendingTextMessages := bufferStream textMessages id starts deltas state.pendingTextMessages }
        rest := by
  induction starts generalizing state with
  | cons start starts ih =>
    have own := opens start List.mem_cons_self
    subst own
    exact ih (List.forall_mem_cons.mp opens).2 _
  | nil =>
    induction deltas generalizing state with
    | nil => rfl
    | cons delta deltas ih =>
      have own := continues delta List.mem_cons_self
      subst own
      exact ih (List.forall_mem_cons.mp continues).2 _

theorem IsCompacted.forall {Start Delta End : Type} {kind : StreamKind Start Delta End} {id : String}
    {deltas : List Delta} (compacted : IsCompacted kind id deltas) {P : Delta -> Prop}
    (made : ∀ text metadata, P (kind.compacted id text metadata)) : ∀ delta ∈ deltas, P delta := by
  intro delta member
  rcases compacted with rfl | ⟨text, metadata, rfl⟩
  · cases member
  · rw [List.mem_singleton.mp member]
    exact made text metadata

theorem settled_textMessage {id : String} {start : Option TextMessageStartEvent}
    (opens : ∀ event ∈ start.toList, event.messageId = id) {deltas : List TextMessageContentEvent}
    (compacted : IsCompacted textMessages id deltas) {ended : TextMessageEndEvent} (closes : ended.messageId = id) :
    Settled applyPatch
      (start.toList.map Event.textMessageStart ++ deltas.map Event.textMessageContent ++
        [Event.textMessageEnd ended]) := by
  intro rest
  subst closes
  rcases flush_bufferStream textMessages textMessages_makesDeltas start compacted ended with ⟨written, emptied⟩
  rw [List.append_assoc, compactFrom_textStream applyPatch opens (compacted.forall fun _ _ => rfl)]
  exact congrArg₂ (· ++ ·) written
    (congrArg (fun buffers => compactFrom applyPatch { pendingTextMessages := buffers } rest) emptied)

theorem compactFrom_callStream {id : String} {starts : List ToolCallStartEvent}
    (opens : ∀ start ∈ starts, start.toolCallId = id) {deltas : List ToolCallArgsEvent}
    (continues : ∀ delta ∈ deltas, delta.toolCallId = id) (state : CompactState) (rest : List Event) :
    compactFrom applyPatch state (starts.map Event.toolCallStart ++ deltas.map Event.toolCallArgs ++ rest) =
      compactFrom applyPatch
        { state with pendingToolCalls := bufferStream toolCalls id starts deltas state.pendingToolCalls } rest := by
  induction starts generalizing state with
  | cons start starts ih =>
    have own := opens start List.mem_cons_self
    subst own
    exact ih (List.forall_mem_cons.mp opens).2 _
  | nil =>
    induction deltas generalizing state with
    | nil => rfl
    | cons delta deltas ih =>
      have own := continues delta List.mem_cons_self
      subst own
      exact ih (List.forall_mem_cons.mp continues).2 _

theorem settled_toolCall {id : String} {start : Option ToolCallStartEvent}
    (opens : ∀ event ∈ start.toList, event.toolCallId = id) {deltas : List ToolCallArgsEvent}
    (compacted : IsCompacted toolCalls id deltas) {ended : ToolCallEndEvent} (closes : ended.toolCallId = id) :
    Settled applyPatch
      (start.toList.map Event.toolCallStart ++ deltas.map Event.toolCallArgs ++ [Event.toolCallEnd ended]) := by
  intro rest
  subst closes
  rcases flush_bufferStream toolCalls toolCalls_makesDeltas start compacted ended with ⟨written, emptied⟩
  rw [List.append_assoc, compactFrom_callStream applyPatch opens (compacted.forall fun _ _ => rfl)]
  exact congrArg₂ (· ++ ·) written
    (congrArg (fun buffers => compactFrom applyPatch { pendingToolCalls := buffers } rest) emptied)

/-! ## What the buffers hold -/

section Buffers

variable {Start Delta End : Type} {kind : StreamKind Start Delta End}

/-- A buffer has the start of its own stream and holds back what belongs to no stream. -/
structure HoldsOwn (startId : Start -> String) (id : String) (pending : Pending Start Delta End) : Prop where
  start : ∀ event ∈ pending.start.toList, startId event = id
  others : ∀ event ∈ pending.otherEvents, part event = .other

theorem holdsOwn_empty (startId : Start -> String) (id : String) :
    HoldsOwn startId id ({} : Pending Start Delta End) where
  start := fun _ impossible => absurd impossible List.not_mem_nil
  others := fun _ impossible => absurd impossible List.not_mem_nil

/-- Rewriting the metadata of a start leaves its id. -/
def KeepsId (kind : StreamKind Start Delta End) (startId : Start -> String) : Prop :=
  ∀ event metadata, startId (kind.withMetadata event metadata) = startId event

variable {startId : Start -> String}

theorem HoldsOwn.addStart {id : String} {pending : Pending Start Delta End}
    (holds : HoldsOwn startId id pending) (keeps : KeepsId kind startId) {event : Start} (own : startId event = id) :
    HoldsOwn startId id (pending.addStart kind event) := by
  unfold Pending.addStart
  split
  · refine ⟨?_, holds.others⟩
    intro written member
    rw [List.mem_singleton.mp member]
    unfold carryStartMetadata
    split
    · exact own
    · split
      · exact own
      · exact (keeps event _).trans own
  · refine ⟨?_, holds.others⟩
    intro written member
    rw [List.mem_singleton.mp member]
    exact (keeps event _).trans own

theorem HoldsOwn.addOther {id : String} {pending : Pending Start Delta End}
    (holds : HoldsOwn startId id pending) {event : Event} (other : part event = .other) :
    HoldsOwn startId id (pending.addOther event) where
  start := holds.start
  others := by
    intro held member
    rcases List.mem_append.mp member with earlier | newest
    · exact holds.others held earlier
    · rw [List.mem_singleton.mp newest]
      exact other

def AllHoldOwn (startId : Start -> String) (buffers : OrderedMap String (Pending Start Delta End)) : Prop :=
  ∀ id pending, buffers.get? id = some pending -> HoldsOwn startId id pending

variable {buffers : OrderedMap String (Pending Start Delta End)}

theorem AllHoldOwn.current
    (holds : AllHoldOwn startId buffers) (id : String) : HoldsOwn startId id ((buffers.get? id).getD {}) := by
  cases found : buffers.get? id with
  | none => exact holdsOwn_empty startId id
  | some pending => exact holds id pending found

theorem AllHoldOwn.withPending
    (holds : AllHoldOwn startId buffers) (id : String) {change : Pending Start Delta End -> Pending Start Delta End}
    (keeps : HoldsOwn startId id ((buffers.get? id).getD {}) ->
      HoldsOwn startId id (change ((buffers.get? id).getD {}))) :
    AllHoldOwn startId (Compact.withPending buffers id change) := by
  intro name pending found
  unfold Compact.withPending at found
  rw [OrderedMap.get?_set] at found
  split at found
  · rename_i same
    cases found
    rw [same]
    exact keeps (holds.current id)
  · exact holds name pending found

theorem AllHoldOwn.erase
    (holds : AllHoldOwn startId buffers) (id : String) : AllHoldOwn startId (buffers.erase id) :=
  fun name pending found => holds name pending (OrderedMap.get?_of_erase _ found)

end Buffers

/-- Every buffer holds a start of its own stream, if any. -/
structure StateHoldsOwn (state : CompactState) : Prop where
  texts : AllHoldOwn TextMessageStartEvent.messageId state.pendingTextMessages
  calls : AllHoldOwn ToolCallStartEvent.toolCallId state.pendingToolCalls

theorem stateHoldsOwn_initial : StateHoldsOwn {} where
  texts := fun _ _ impossible => by cases impossible
  calls := fun _ _ impossible => by cases impossible

theorem settled_flushTextMessage {id : String} {pending : PendingTextMessage}
    (holds : HoldsOwn TextMessageStartEvent.messageId id pending) {ended : TextMessageEndEvent}
    (closes : ended.messageId = id) :
    Settled applyPatch (flushTextMessage id { pending with ended := some ended }) :=
  (settled_textMessage applyPatch holds.start (compactedDelta_isCompacted textMessages id _) closes).append
    (settled_others applyPatch holds.others)

theorem settled_flushToolCall {id : String} {pending : PendingToolCall}
    (holds : HoldsOwn ToolCallStartEvent.toolCallId id pending) {ended : ToolCallEndEvent}
    (closes : ended.toolCallId = id) :
    Settled applyPatch (flushToolCall id { pending with ended := some ended }) :=
  (settled_toolCall applyPatch holds.start (compactedDelta_isCompacted toolCalls id _) closes).append
    (settled_others applyPatch holds.others)

/-- An event is written out settled, and the buffers go on holding their own. -/
structure Settles (effect : CompactState × List Event) : Prop where
  holds : StateHoldsOwn effect.1
  settled : Settled applyPatch effect.2

variable {state : CompactState}

theorem settles_other (holds : StateHoldsOwn state) {event : Event}
    (other : part event = .other) : Settles applyPatch (state.holdOther event) := by
  unfold CompactState.holdOther
  split
  · exact ⟨⟨holds.texts.withPending _ fun held => held.addOther other, holds.calls⟩, settled_nil applyPatch⟩
  · split
    · exact ⟨⟨holds.texts, holds.calls.withPending _ fun held => held.addOther other⟩, settled_nil applyPatch⟩
    · exact ⟨holds, settled_other applyPatch other⟩

theorem settles_step (holds : StateHoldsOwn state) (event : Event) :
    Settles applyPatch (state.step applyPatch event) := by
  cases event with
  | textMessageStart e =>
    refine ⟨⟨?_, holds.calls⟩, settled_nil applyPatch⟩
    exact holds.texts.withPending e.messageId fun held => held.addStart (fun _ _ => rfl) rfl
  | textMessageContent e =>
    exact ⟨⟨holds.texts.withPending e.messageId fun held => ⟨held.start, held.others⟩, holds.calls⟩,
      settled_nil applyPatch⟩
  | textMessageEnd e =>
    exact ⟨⟨holds.texts.erase e.messageId, holds.calls⟩,
      settled_flushTextMessage applyPatch (holds.texts.current e.messageId) rfl⟩
  | toolCallStart e =>
    refine ⟨⟨holds.texts, ?_⟩, settled_nil applyPatch⟩
    exact holds.calls.withPending e.toolCallId fun held => held.addStart (fun _ _ => rfl) rfl
  | toolCallArgs e =>
    exact ⟨⟨holds.texts, holds.calls.withPending e.toolCallId fun held => ⟨held.start, held.others⟩⟩,
      settled_nil applyPatch⟩
  | toolCallEnd e =>
    exact ⟨⟨holds.texts, holds.calls.erase e.toolCallId⟩,
      settled_flushToolCall applyPatch (holds.calls.current e.toolCallId) rfl⟩
  | runStarted e | runFinished e | runError e =>
    exact ⟨⟨holds.texts, holds.calls⟩, settled_boundary applyPatch rfl state.stateEvents⟩
  | stateSnapshot e | stateDelta e => exact ⟨⟨holds.texts, holds.calls⟩, settled_nil applyPatch⟩
  | _ => exact settles_other applyPatch holds rfl

/-- The state after a list. -/
def reached (state : CompactState) (events : List Event) : CompactState :=
  events.foldl (fun state event => (state.step applyPatch event).1) state

/-- Where no buffer is left, compacting again changes nothing. -/
theorem compactFrom_settles (holds : StateHoldsOwn state) {events : List Event}
    (texts : (reached applyPatch state events).pendingTextMessages.entries = [])
    (calls : (reached applyPatch state events).pendingToolCalls.entries = []) :
    compactFrom applyPatch {} (compactFrom applyPatch state events) = compactFrom applyPatch state events := by
  induction events generalizing state with
  | nil =>
    change state.pendingTextMessages.entries = [] at texts
    change state.pendingToolCalls.entries = [] at calls
    rw [compactFrom, CompactState.flush, texts, calls]
    exact compactFrom_flushState_end applyPatch state.stateEvents
  | cons event rest ih =>
    have step := settles_step applyPatch holds event
    rw [compactFrom, step.settled, ih step.holds texts calls]

/-! ## Which buffers are left -/

def hasBuffer (state : CompactState) : Lane -> String -> Bool
  | .text, id => state.pendingTextMessages.has id
  | .call, id => state.pendingToolCalls.has id

/-- An event that makes a buffer for its stream. -/
def Fills (lane : Lane) (id : String) (event : Event) : Prop :=
  part event = .opening lane id ∨ part event = .delta lane id

def Ends (lane : Lane) (id : String) (event : Event) : Prop :=
  part event = .closing lane id

theorem has_of_withPending {Start Delta End : Type} {buffers : OrderedMap String (Pending Start Delta End)}
    {id name : String} {change : Pending Start Delta End -> Pending Start Delta End}
    (has : (withPending buffers id change).has name = true) : name = id ∨ buffers.has name = true := by
  rw [withPending, OrderedMap.has_set] at has
  rcases Bool.or_eq_true_iff.mp has with same | old
  · exact .inl (of_decide_eq_true same)
  · exact .inr old

theorem has_of_erase {Start Delta End : Type} {buffers : OrderedMap String (Pending Start Delta End)}
    {id name : String} (has : (buffers.erase id).has name = true) : name ≠ id ∧ buffers.has name = true := by
  rw [OrderedMap.has_erase] at has
  rcases Bool.and_eq_true_iff.mp has with ⟨other, old⟩
  exact ⟨by simpa using other, old⟩

/-- A buffer that holds an event back is there already. -/
theorem has_firstBetween {Start Delta End : Type} {buffers : OrderedMap String (Pending Start Delta End)} {id : String}
    (first : firstBetween buffers = some id) : buffers.has id = true := by
  rcases Option.map_eq_some_iff.mp first with ⟨entry, found, rfl⟩
  have listed := (buffers.mem_entries_iff entry.1 entry.2).mp (List.mem_of_find?_eq_some found)
  exact (buffers.has_eq_true_iff entry.1).mpr ⟨entry.2, listed⟩

theorem hasBuffer_holdOther {event : Event} {lane : Lane} {id : String}
    (has : hasBuffer (state.holdOther event).1 lane id = true) : hasBuffer state lane id = true := by
  unfold CompactState.holdOther at has
  split at has
  · rename_i first
    cases lane with
    | text =>
      rcases has_of_withPending has with same | old
      · exact same ▸ has_firstBetween first
      · exact old
    | call => exact has
  · split at has
    · rename_i first
      cases lane with
      | text => exact has
      | call =>
        rcases has_of_withPending has with same | old
        · exact same ▸ has_firstBetween first
        · exact old
    · exact has

/-- A buffer is made by an event of its stream, and gone with the end of it. -/
theorem hasBuffer_step {event : Event} {lane : Lane} {id : String}
    (has : hasBuffer (state.step applyPatch event).1 lane id = true) :
    Fills lane id event ∨ (hasBuffer state lane id = true ∧ ¬ Ends lane id event) := by
  cases event with
  | textMessageStart e =>
    cases lane with
    | text =>
      rcases has_of_withPending has with rfl | old
      · exact .inl (.inl rfl)
      · exact .inr ⟨old, fun ends => by cases ends⟩
    | call => exact .inr ⟨has, fun ends => by cases ends⟩
  | textMessageContent e =>
    cases lane with
    | text =>
      rcases has_of_withPending has with rfl | old
      · exact .inl (.inr rfl)
      · exact .inr ⟨old, fun ends => by cases ends⟩
    | call => exact .inr ⟨has, fun ends => by cases ends⟩
  | textMessageEnd e =>
    cases lane with
    | text =>
      rcases has_of_erase has with ⟨other, old⟩
      refine .inr ⟨old, fun ends => ?_⟩
      cases ends
      exact other rfl
    | call => exact .inr ⟨has, fun ends => by cases ends⟩
  | toolCallStart e =>
    cases lane with
    | text => exact .inr ⟨has, fun ends => by cases ends⟩
    | call =>
      rcases has_of_withPending has with rfl | old
      · exact .inl (.inl rfl)
      · exact .inr ⟨old, fun ends => by cases ends⟩
  | toolCallArgs e =>
    cases lane with
    | text => exact .inr ⟨has, fun ends => by cases ends⟩
    | call =>
      rcases has_of_withPending has with rfl | old
      · exact .inl (.inr rfl)
      · exact .inr ⟨old, fun ends => by cases ends⟩
  | toolCallEnd e =>
    cases lane with
    | text => exact .inr ⟨has, fun ends => by cases ends⟩
    | call =>
      rcases has_of_erase has with ⟨other, old⟩
      refine .inr ⟨old, fun ends => ?_⟩
      cases ends
      exact other rfl
  | runStarted e | runFinished e | runError e | stateSnapshot e | stateDelta e =>
    refine .inr ⟨?_, fun ends => by cases ends⟩
    cases lane with
    | text => exact has
    | call => exact has
  | _ => exact .inr ⟨hasBuffer_holdOther has, fun ends => by cases ends⟩

theorem since_of_hasBuffer {past : List Event} {lane : Lane} {id : String}
    (has : hasBuffer (reached applyPatch {} past) lane id = true) : Since (Fills lane id) (Ends lane id) past := by
  induction past using List.reverseRecOn with
  | nil =>
    cases lane with
    | text => cases has
    | call => cases has
  | append_singleton past event ih =>
    rw [reached, List.foldl_append] at has
    rw [since_snoc]
    rcases hasBuffer_step applyPatch has with fills | ⟨old, stays⟩
    · exact .inl fills
    · exact .inr ⟨ih old, stays⟩

/-- Every text message and every tool call that starts ends, before the next run event. -/
def EndsItsStreams (events : List Event) : Prop :=
  ∀ past event future lane id, events = past ++ event :: future -> part event = .opening lane id ->
    ∃ between ended rest, future = between ++ ended :: rest ∧
      part ended = .closing lane id ∧ ∀ other ∈ between, part other ≠ .boundary

theorem EndsItsStreams.exists_end {events : List Event} (ends : EndsItsStreams events) {past future : List Event}
    {event : Event} (split : events = past ++ event :: future) {lane : Lane} {id : String}
    (opening : part event = .opening lane id) : ∃ ended ∈ future, Ends lane id ended := by
  rcases ends past event future lane id split opening with ⟨between, ended, rest, rfl, closing, _⟩
  exact ⟨ended, List.mem_append_right _ List.mem_cons_self, closing⟩

/-- The bracket the verifier keeps for the streams of a lane. -/
def Lane.bracket : Lane -> Verify.Bracket
  | text => .textMessage
  | call => .toolCall

theorem continues_of_part {event : Event} {lane : Lane} {id : String} (plays : part event = .delta lane id) :
    Verify.continues? event = some (.entity lane.bracket id) := by
  cases event with
  | textMessageContent e | toolCallArgs e =>
    cases plays
    rfl
  | _ => cases plays

theorem part_of_opens {event : Event} {lane : Lane} {id : String}
    (opens : Verify.opens? event = some (.entity lane.bracket id)) : part event = .opening lane id := by
  cases event with
  | textMessageStart e =>
    cases lane with
    | text =>
      cases opens
      rfl
    | call => cases opens
  | toolCallStart e =>
    cases lane with
    | text => cases opens
    | call =>
      cases opens
      rfl
  | subagentStarted e =>
    rcases Option.map_eq_some_iff.mp opens with ⟨_, _, impossible⟩
    cases impossible
  | _ =>
    cases lane with
    | text | call => cases opens

theorem closes_of_part {event : Event} {lane : Lane} {id : String} (plays : part event = .closing lane id) :
    Verify.closes? event = some (.entity lane.bracket id) := by
  cases event with
  | textMessageEnd e | toolCallEnd e =>
    cases plays
    rfl
  | _ => cases plays

/-- Of an accepted list whose streams end no buffer is left. -/
theorem hasBuffer_reached {events : List Event} (verified : Verify.accepted events = true)
    (ends : EndsItsStreams events) (lane : Lane) (id : String) :
    hasBuffer (reached applyPatch {} events) lane id = false := by
  by_contra has
  rcases since_of_hasBuffer applyPatch (eq_true_of_ne_false has) with ⟨past, event, future, split, fills, unclosed⟩
  rcases fills with opening | continuing
  · rcases ends.exists_end split opening with ⟨ended, behind, closing⟩
    exact unclosed ended behind closing
  · -- the start of the stream stands before, and its end neither between nor behind
    rcases Verify.isOpen_of_continues (split ▸ verified) (continues_of_part continuing) with
      ⟨before, start, middle, rfl, opens, kept⟩
    have place : events = before ++ start :: (middle ++ event :: future) := by
      rw [split, List.append_assoc, List.cons_append]
    rcases ends.exists_end place (part_of_opens opens) with ⟨ended, behind, closing⟩
    rcases List.mem_append.mp behind with between | later
    · exact kept ended between (.inl (closes_of_part closing))
    · rcases List.mem_cons.mp later with rfl | later
      · rw [Ends, continuing] at closing
        cases closing
      · exact unclosed ended later closing

/-- Compacting twice is compacting once, of an accepted list all of whose streams end. -/
theorem compactEvents_idempotent {events : List Event} (verified : Verify.accepted events = true)
    (ends : EndsItsStreams events) :
    compactEvents applyPatch (compactEvents applyPatch events) = compactEvents applyPatch events := by
  apply compactFrom_settles applyPatch stateHoldsOwn_initial
  · apply List.length_eq_zero_iff.mp
    exact (OrderedMap.size_eq_zero_iff _).mpr (hasBuffer_reached applyPatch verified ends .text)
  · apply List.length_eq_zero_iff.mp
    exact (OrderedMap.size_eq_zero_iff _).mpr (hasBuffer_reached applyPatch verified ends .call)

end

theorem endsItsStreams_nil : EndsItsStreams [] := by
  intro past event future lane id split
  cases past with
  | nil => cases split
  | cons head past => cases split

theorem endsItsStreams_cons {event : Event} {rest : List Event}
    (own : ∀ lane id, part event = .opening lane id ->
      ∃ between ended later, rest = between ++ ended :: later ∧
        part ended = .closing lane id ∧ ∀ other ∈ between, part other ≠ .boundary)
    (others : EndsItsStreams rest) : EndsItsStreams (event :: rest) := by
  intro past opener future lane id split opening
  cases past with
  | nil =>
    cases split
    exact own lane id opening
  | cons head past =>
    cases split
    exact others past opener future lane id rfl opening

/-- A call and an event of no stream inside a message, and state before and after them. -/
def callInMessage : List Event :=
  [.runStarted { threadId := "t", runId := "r" },
   .stateSnapshot { snapshot := .object [] },
   .textMessageStart { messageId := "m" },
   .textMessageContent { messageId := "m", delta := "a" },
   .toolCallStart { toolCallId := "c", toolCallName := "search" },
   .custom { name := "progress", value := .null },
   .textMessageContent { messageId := "m", delta := "b" },
   .toolCallArgs { toolCallId := "c", delta := "{}" },
   .textMessageEnd { messageId := "m" },
   .toolCallEnd { toolCallId := "c" },
   .stateDelta { delta := .array [] },
   .runFinished { threadId := "t", runId := "r" }]

/-- The patch without operations, which is all the list has. -/
def emptyPatch : ApplyPatch :=
  fun state _ => some state

/-- A call within a message. -/
theorem compactEvents_idempotent_callInMessage :
    (compactEvents emptyPatch callInMessage).map Event.type =
        [.runStarted, .textMessageStart, .textMessageContent, .textMessageEnd, .custom, .toolCallStart, .toolCallArgs,
          .toolCallEnd, .stateSnapshot, .runFinished] ∧
      compactEvents emptyPatch (compactEvents emptyPatch callInMessage) = compactEvents emptyPatch callInMessage := by
  refine ⟨by decide, compactEvents_idempotent _ (by decide) ?_⟩
  have quiet : ∀ {event : Event} {rest : List Event}, isOpening event = false -> EndsItsStreams rest ->
      EndsItsStreams (event :: rest) := by
    intro event rest silent others
    refine endsItsStreams_cons (fun lane id opening => ?_) others
    rw [isOpening, opening] at silent
    cases silent
  refine quiet rfl (quiet rfl (endsItsStreams_cons ?_ (quiet rfl (endsItsStreams_cons ?_ ?_))))
  · intro lane id opening
    cases opening
    refine ⟨callInMessage.extract 3 8, _, callInMessage.drop 9, rfl, rfl, ?_⟩
    simp [callInMessage, part]
  · intro lane id opening
    cases opening
    refine ⟨callInMessage.extract 5 9, _, callInMessage.drop 10, rfl, rfl, ?_⟩
    simp [callInMessage, part]
  · exact quiet rfl (quiet rfl (quiet rfl (quiet rfl (quiet rfl (quiet rfl (quiet rfl endsItsStreams_nil))))))

end Compact
end AgUi
