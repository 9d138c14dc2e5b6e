import AgUi.Compact.Schedule

namespace AgUi
namespace Compact

open Library Protocol Apply

/-!
# The state behind a compacted stream

A reducer that replays a stream takes its state from the snapshots and deltas
in it, and nothing else.  Compaction collapses a window of them as soon as it
holds a snapshot, and writes it out at the next run event.  The state a run
event finds, and the state the whole list leaves, are the same either way,
whatever the state was before and whichever patches apply.
-/

/-! ## The state of a reducer -/

/-- The state after one event. -/
def stateStep (applyPatch : ApplyPatch) (state : Json) : Event -> Json
  | .stateSnapshot event => event.snapshot
  | .stateDelta event => (applyPatch state event.delta).getD state
  | _ => state

/-- The state document after the events. -/
def foldState (applyPatch : ApplyPatch) (state : Json) (events : List Event) : Json :=
  events.foldl (stateStep applyPatch) state

/-- The event at which everything buffered is written. -/
def isBoundary (event : Event) : Bool :=
  match part event with
  | .boundary => true
  | _ => false

/-- The run events of a list, each with the state that it finds. -/
def boundaryStates (applyPatch : ApplyPatch) (state : Json) : List Event -> List (Event × Json)
  | [] => []
  | event :: rest =>
    (if isBoundary event then [(event, state)] else []) ++
      boundaryStates applyPatch (stateStep applyPatch state event) rest

section Reducer

variable (applyPatch : ApplyPatch)

theorem emitIf_state (changed : Bool) (state : ApplyState) (messages : List Message) :
    (state.emitIf changed messages).1.state = state.state := by
  unfold ApplyState.emitIf
  split <;> rfl

variable (state : ApplyState)

theorem startMessage_state (message : Message) (event : BaseEvent) :
    (state.startMessage message event).1.state = state.state := by
  unfold ApplyState.startMessage
  split
  · rfl
  · split
    · rfl
    · exact emitIf_state _ _ _

theorem appendMessage_state (messageId delta : String) (event : BaseEvent) :
    (state.appendMessage messageId delta event).1.state = state.state := by
  unfold ApplyState.appendMessage
  split
  · rfl
  · split <;> rfl

theorem finishMessage_state (messageId : String) (event : BaseEvent) :
    (state.finishMessage messageId event).1.state = state.state := by
  unfold ApplyState.finishMessage
  split
  · rfl
  · split
    · rfl
    · exact emitIf_state _ _ _

theorem toolCallStart_state (event : ToolCallStartEvent) :
    (toolCallStart state event).1.state = state.state := by
  have listed : (if state.runToolCallIds.contains event.toolCallId then state
      else { state with runToolCallIds := state.runToolCallIds ++ [event.toolCallId] }).state = state.state := by
    split <;> rfl
  unfold toolCallStart
  dsimp only
  split
  · exact (emitIf_state _ _ _).trans listed
  · exact listed

/-- The reducer reads its state off the state events. -/
theorem reduce_state (event : Event) :
    (reduce applyPatch state event).1.state = stateStep applyPatch state.state event := by
  cases event with
  | textMessageStart e | reasoningMessageStart e => exact startMessage_state _ _ _
  | textMessageContent e | reasoningMessageContent e => exact appendMessage_state _ _ _ _
  | textMessageEnd e | reasoningMessageEnd e => exact finishMessage_state _ _ _
  | toolCallStart e => exact toolCallStart_state _ _
  | toolCallArgs e =>
    simp only [reduce, toolCallArgs]
    split <;> rfl
  | toolCallEnd e =>
    simp only [reduce, toolCallEnd]
    split <;> first | rfl | apply emitIf_state
  | stateDelta e =>
    simp only [reduce, stateDelta, stateStep]
    split <;> (rename_i found; rw [found]; rfl)
  | activitySnapshot e =>
    simp only [reduce, activitySnapshot]
    split
    · rfl
    · split <;> first | rfl | (split <;> rfl)
  | activityDelta e =>
    simp only [reduce, activityDelta]
    split
    · rfl
    · split
      · split <;> first | rfl | apply emitIf_state
      · rfl
  | runStarted e =>
    simp only [reduce, runStarted]
    split <;> rfl
  | reasoningEncryptedValue e =>
    simp only [reduce, reasoningEncryptedValue]
    split
    · exact emitIf_state _ _ _
    · split <;> first | rfl | (split <;> rfl)
  | _ => rfl

theorem replay_state (events : List Event) :
    (replay applyPatch state events).state = foldState applyPatch state.state events := by
  induction events generalizing state with
  | nil => rfl
  | cons event rest ih =>
    change (replay applyPatch (reduce applyPatch state event).1 rest).state =
      foldState applyPatch (stateStep applyPatch state.state event) rest
    rw [ih, reduce_state]

end Reducer

/-! ## Parts of a list -/

section Parts

variable {applyPatch : ApplyPatch}

theorem foldState_append (state : Json) (first second : List Event) :
    foldState applyPatch state (first ++ second) = foldState applyPatch (foldState applyPatch state first) second :=
  List.foldl_append

theorem boundaryStates_append (state : Json) (first second : List Event) :
    boundaryStates applyPatch state (first ++ second) =
      boundaryStates applyPatch state first ++
        boundaryStates applyPatch (foldState applyPatch state first) second := by
  induction first generalizing state with
  | nil => rfl
  | cons event rest ih =>
    rw [List.cons_append, boundaryStates, boundaryStates, ih, List.append_assoc]
    rfl

/-- Neither a run event nor a state event. -/
def Silent (event : Event) : Prop :=
  part event ≠ .boundary ∧ part event ≠ .state

theorem isBoundary_of_silent {event : Event} (silent : Silent event) : isBoundary event = false := by
  unfold isBoundary
  split
  · rename_i boundary
    exact absurd boundary silent.1
  · rfl

theorem stateStep_of_silent {event : Event} (silent : Silent event) (state : Json) :
    stateStep applyPatch state event = state := by
  cases event <;> first | rfl | exact absurd rfl silent.2

theorem silent_fold {events : List Event} (silent : ∀ event ∈ events, Silent event) (state : Json) :
    foldState applyPatch state events = state ∧ boundaryStates applyPatch state events = [] := by
  induction events with
  | nil => exact ⟨rfl, rfl⟩
  | cons event rest ih =>
    have head := silent event List.mem_cons_self
    have tail := ih (List.forall_mem_cons.mp silent).2
    have unchanged : stateStep applyPatch state event = state := stateStep_of_silent head state
    constructor
    · change foldState applyPatch (stateStep applyPatch state event) rest = state
      rw [unchanged, tail.1]
    · rw [boundaryStates, isBoundary_of_silent head, unchanged, tail.2]
      rfl

end Parts

/-! ## A window of state events -/

section Window

variable {applyPatch : ApplyPatch}

/-- What a window of state events makes of a state. -/
def windowState (applyPatch : ApplyPatch) (state : Json) (window : List StateEvent) : Json :=
  window.foldl (StateEvent.apply applyPatch) state

theorem stateStep_toEvent (state : Json) (event : StateEvent) :
    stateStep applyPatch state event.toEvent = event.apply applyPatch state := by
  cases event <;> rfl

theorem foldState_toEvent (state : Json) (window : List StateEvent) :
    foldState applyPatch state (window.map StateEvent.toEvent) = windowState applyPatch state window := by
  unfold foldState windowState
  rw [List.foldl_map]
  congr
  funext state event
  exact stateStep_toEvent state event

theorem boundaryStates_toEvent (state : Json) (window : List StateEvent) :
    boundaryStates applyPatch state (window.map StateEvent.toEvent) = [] := by
  induction window generalizing state with
  | nil => rfl
  | cons event rest ih =>
    rw [List.map_cons, boundaryStates, ih]
    cases event <;> rfl

/-- What comes before the last snapshot of a window has no say. -/
theorem windowState_fromLastSnapshot (state seed : Json) {window : List StateEvent}
    (snapshot : window.any StateEvent.isSnapshot = true) :
    windowState applyPatch seed (fromLastSnapshot window) = windowState applyPatch state window := by
  induction window generalizing state with
  | nil => cases snapshot
  | cons event rest ih =>
    unfold fromLastSnapshot
    by_cases later : rest.any StateEvent.isSnapshot = true
    · rw [if_pos later]
      exact ih (event.apply applyPatch state) later
    · rw [if_neg later]
      rw [List.any_cons, Bool.eq_false_iff.mpr later, Bool.or_false] at snapshot
      rw [if_pos snapshot]
      cases event with
      | snapshot event => rfl
      | delta event => cases snapshot

theorem flushState_fold (state : Json) (window : List StateEvent) :
    foldState applyPatch state (flushState applyPatch window) = windowState applyPatch state window ∧
      boundaryStates applyPatch state (flushState applyPatch window) = [] := by
  unfold flushState
  by_cases snapshot : window.any StateEvent.isSnapshot = true
  · rw [if_pos snapshot]
    refine ⟨?_, rfl⟩
    exact windowState_fromLastSnapshot state (.object []) snapshot
  · rw [if_neg snapshot]
    exact ⟨foldState_toEvent state window, boundaryStates_toEvent state window⟩

end Window

/-! ## Buffers -/

section Buffers

variable {Start Delta End : Type} {lane : Lane} {kind : StreamKind Start Delta End}

theorem silent_of_streaming {event : Event} {id : String}
    (plays : part event = .opening lane id ∨ part event = .delta lane id ∨ part event = .closing lane id) :
    Silent event := by
  rcases plays with plays | plays | plays <;>
  · unfold Silent
    rw [plays]
    exact ⟨nofun, nofun⟩

def HoldsSilent (pending : Pending Start Delta End) : Prop :=
  ∀ event ∈ pending.otherEvents, Silent event

theorem flush_silent (plays : PlaysIn lane kind) (id : String) {pending : Pending Start Delta End}
    (holds : HoldsSilent pending) : ∀ event ∈ pending.flush kind id, Silent event := by
  intro event member
  rcases flush_eq_append plays id pending with ⟨stream, written, streaming⟩
  rw [written] at member
  rcases List.mem_append.mp member with own | other
  · rcases streaming event own with ⟨name, part⟩
    exact silent_of_streaming part
  · exact holds event other

def AllHoldSilent (buffers : OrderedMap String (Pending Start Delta End)) : Prop :=
  ∀ id pending, buffers.get? id = some pending -> HoldsSilent pending

variable {buffers : OrderedMap String (Pending Start Delta End)}

theorem AllHoldSilent.current
    (silent : AllHoldSilent buffers) (id : String) : HoldsSilent ((buffers.get? id).getD {}) := by
  cases found : buffers.get? id with
  | none => exact fun event impossible => absurd impossible List.not_mem_nil
  | some pending => exact silent id pending found

theorem AllHoldSilent.withPending
    (silent : AllHoldSilent buffers) (id : String) {change : Pending Start Delta End -> Pending Start Delta End}
    (keeps : ∀ pending, HoldsSilent pending -> HoldsSilent (change pending)) :
    AllHoldSilent (withPending buffers id change) := by
  intro name pending found
  unfold Compact.withPending at found
  rw [OrderedMap.get?_set] at found
  split at found
  · cases found
    exact keeps _ (silent.current id)
  · exact silent name pending found

theorem AllHoldSilent.erase
    (silent : AllHoldSilent buffers) (id : String) : AllHoldSilent (buffers.erase id) :=
  fun name pending found => silent name pending (OrderedMap.get?_of_erase _ found)

theorem AllHoldSilent.flush (plays : PlaysIn lane kind) (silent : AllHoldSilent buffers) :
    ∀ event ∈ buffers.entries.flatMap (fun entry => entry.2.flush kind entry.1), Silent event := by
  intro event member
  rcases List.mem_flatMap.mp member with ⟨entry, held, written⟩
  have found := (buffers.mem_entries_iff entry.1 entry.2).mp held
  exact flush_silent plays entry.1 (silent entry.1 entry.2 found) event written

theorem HoldsSilent.addStart {pending : Pending Start Delta End} (silent : HoldsSilent pending) (event : Start) :
    HoldsSilent (pending.addStart kind event) := by
  unfold Pending.addStart
  split <;> exact silent

theorem HoldsSilent.addOther {pending : Pending Start Delta End} (silent : HoldsSilent pending) {event : Event}
    (other : Silent event) : HoldsSilent (pending.addOther event) := by
  intro held member
  rcases List.mem_append.mp member with earlier | newest
  · exact silent held earlier
  · rw [List.mem_singleton.mp newest]
    exact other

end Buffers

/-! ## The loop -/

section Run

variable (applyPatch : ApplyPatch)

/-- What the buffers hold back has nothing to do with the state. -/
structure HoldsNoState (state : CompactState) : Prop where
  texts : AllHoldSilent state.pendingTextMessages
  calls : AllHoldSilent state.pendingToolCalls

theorem holdsNoState_initial : HoldsNoState {} where
  texts := fun _ _ impossible => by cases impossible
  calls := fun _ _ impossible => by cases impossible

/-- What a step owes: with `before` the state of a reader of the output, and
the waiting state events still to come, the reader misses nothing. -/
structure KeepsState (state : CompactState) (event : Event) (effect : CompactState × List Event) : Prop where
  holds : HoldsNoState effect.1
  leaves : ∀ before, windowState applyPatch (foldState applyPatch before effect.2) effect.1.stateEvents =
    stateStep applyPatch (windowState applyPatch before state.stateEvents) event
  finds : ∀ before, boundaryStates applyPatch before effect.2 =
    boundaryStates applyPatch (windowState applyPatch before state.stateEvents) [event]

variable {applyPatch}

variable {state : CompactState}

/-- A step that touches no state event and writes out no run event. -/
theorem keepsState_silent {event : Event} {effect : CompactState × List Event}
    (holds : HoldsNoState effect.1) (silent : Silent event) (written : ∀ other ∈ effect.2, Silent other)
    (waiting : effect.1.stateEvents = state.stateEvents) : KeepsState applyPatch state event effect where
  holds := holds
  leaves := by
    intro before
    rw [(silent_fold written before).1, waiting, stateStep_of_silent silent]
  finds := by
    intro before
    rw [(silent_fold written before).2, boundaryStates, isBoundary_of_silent silent]
    rfl

section

variable (holds : HoldsNoState state)

include holds

/-- A run event writes the state events out ahead of itself. -/
theorem keepsState_boundary (event : Event) : KeepsState applyPatch state event
      ({ state with stateEvents := [] }, flushState applyPatch state.stateEvents ++ [event]) where
  holds := ⟨holds.texts, holds.calls⟩
  leaves := by
    intro before
    rw [foldState_append, (flushState_fold before state.stateEvents).1]
    rfl
  finds := by
    intro before
    rw [boundaryStates_append, (flushState_fold before state.stateEvents).1,
      (flushState_fold before state.stateEvents).2]
    rfl

theorem keepsState_state (event : StateEvent) : KeepsState applyPatch state event.toEvent
      ({ state with stateEvents := state.stateEvents ++ [event] }, []) where
  holds := ⟨holds.texts, holds.calls⟩
  leaves := by
    intro before
    change windowState applyPatch before (state.stateEvents ++ [event]) = _
    rw [windowState, List.foldl_append, stateStep_toEvent]
    rfl
  finds := by
    intro before
    exact (@boundaryStates_toEvent applyPatch _ [event]).symm

theorem keepsState_other {event : Event}
    (silent : Silent event) : KeepsState applyPatch state event (state.holdOther event) := by
  unfold CompactState.holdOther
  split
  · rename_i messageId _
    refine keepsState_silent ⟨?_, holds.calls⟩ silent (fun _ impossible => absurd impossible List.not_mem_nil) rfl
    exact holds.texts.withPending messageId fun _ held => held.addOther silent
  · split
    · rename_i toolCallId _
      refine keepsState_silent ⟨holds.texts, ?_⟩ silent (fun _ impossible => absurd impossible List.not_mem_nil) rfl
      exact holds.calls.withPending toolCallId fun _ held => held.addOther silent
    · refine keepsState_silent holds silent ?_ rfl
      intro other member
      rw [List.mem_singleton.mp member]
      exact silent

theorem keepsState_step (event : Event) : KeepsState applyPatch state event (state.step applyPatch event) := by
  have nothing : ∀ other : Event, other ∈ [] -> Silent other :=
    fun _ impossible => absurd impossible List.not_mem_nil
  cases event with
  | textMessageStart e =>
    refine keepsState_silent ⟨?_, holds.calls⟩ ⟨nofun, nofun⟩ nothing rfl
    exact holds.texts.withPending e.messageId fun _ held => held.addStart e
  | textMessageContent e =>
    refine keepsState_silent ⟨?_, holds.calls⟩ ⟨nofun, nofun⟩ nothing rfl
    exact holds.texts.withPending e.messageId fun _ held => held
  | textMessageEnd e =>
    refine keepsState_silent ⟨holds.texts.erase e.messageId, holds.calls⟩ ⟨nofun, nofun⟩ ?_ rfl
    exact flush_silent textMessages_playIn e.messageId (holds.texts.current e.messageId)
  | toolCallStart e =>
    refine keepsState_silent ⟨holds.texts, ?_⟩ ⟨nofun, nofun⟩ nothing rfl
    exact holds.calls.withPending e.toolCallId fun _ held => held.addStart e
  | toolCallArgs e =>
    refine keepsState_silent ⟨holds.texts, ?_⟩ ⟨nofun, nofun⟩ nothing rfl
    exact holds.calls.withPending e.toolCallId fun _ held => held
  | toolCallEnd e =>
    refine keepsState_silent ⟨holds.texts, holds.calls.erase e.toolCallId⟩ ⟨nofun, nofun⟩ ?_ rfl
    exact flush_silent toolCalls_playIn e.toolCallId (holds.calls.current e.toolCallId)
  | runStarted e | runFinished e | runError e => exact keepsState_boundary holds _
  | stateSnapshot e => exact keepsState_state holds (.snapshot e)
  | stateDelta e => exact keepsState_state holds (.delta e)
  | _ => exact keepsState_other holds ⟨nofun, nofun⟩

theorem flush_fold (before : Json) :
    foldState applyPatch before (state.flush applyPatch) = windowState applyPatch before state.stateEvents ∧
      boundaryStates applyPatch before (state.flush applyPatch) = [] := by
  have buffered : ∀ event ∈ (state.pendingTextMessages.entries.flatMap fun entry =>
        flushTextMessage entry.1 entry.2) ++
      state.pendingToolCalls.entries.flatMap (fun entry => flushToolCall entry.1 entry.2), Silent event := by
    intro event member
    rcases List.mem_append.mp member with text | call
    · exact holds.texts.flush textMessages_playIn event text
    · exact holds.calls.flush toolCalls_playIn event call
  unfold CompactState.flush
  rw [foldState_append, boundaryStates_append, (silent_fold buffered before).1, (silent_fold buffered before).2]
  exact flushState_fold before state.stateEvents

theorem compactFrom_fold (before : Json) (events : List Event) :
    foldState applyPatch before (compactFrom applyPatch state events) =
        foldState applyPatch (windowState applyPatch before state.stateEvents) events ∧
      boundaryStates applyPatch before (compactFrom applyPatch state events) =
        boundaryStates applyPatch (windowState applyPatch before state.stateEvents) events := by
  induction events generalizing state before with
  | nil => exact flush_fold holds before
  | cons event rest ih =>
    have kept : KeepsState applyPatch state event (state.step applyPatch event) := keepsState_step holds event
    have tail := ih kept.holds (foldState applyPatch before (state.step applyPatch event).2)
    rw [kept.leaves] at tail
    rw [compactFrom, foldState_append, boundaryStates_append, tail.1, tail.2, kept.finds]
    refine ⟨rfl, ?_⟩
    rw [boundaryStates, boundaryStates, boundaryStates, List.append_nil]

end

/-- Replaying the compacted list instead of the list itself leaves the same
state, and every run event finds the same one. -/
theorem compactEvents_foldsState (applyPatch : ApplyPatch) (initial : ApplyState) (events : List Event) :
    (replay applyPatch initial (compactEvents applyPatch events)).state = (replay applyPatch initial events).state ∧
      boundaryStates applyPatch initial.state (compactEvents applyPatch events) =
        boundaryStates applyPatch initial.state events := by
  rw [replay_state, replay_state]
  exact compactFrom_fold holdsNoState_initial initial.state events

end Run

end Compact
end AgUi
