import Mathlib.Logic.Function.Basic
import AgUi.Chunks.Brackets

namespace AgUi
namespace Chunks

open Library Protocol

/-!
# Lanes do not see each other

When every chunk names its owner, and owners do not share ids, a chunk is
expanded in the lane of its owner, by what that lane has open.  The
expansion of an interleaving, seen from one owner, is then the expansion of
that owner's own chunks.
-/

/-- The party a chunk speaks for, as its tag says. -/
def chunkOwner (event : Event) : Lane :=
  event.subagentRunId.toOption

/-- The item a chunk names, if it carries its id. -/
def names? : Event -> Option Item
  | .textMessageChunk e => e.messageId.map fun id => (.text, id)
  | .toolCallChunk e => e.toolCallId.map fun id => (.tool, id)
  | .reasoningMessageChunk e => e.messageId.map fun id => (.reasoning, id)
  | _ => none

/-- Chunks that carry their own tag, or an id if they are the parent's, and
whose ids are not shared between owners. -/
structure OwnedChunks (events : List Event) : Prop where
  chunks : ∀ event ∈ events, event.isChunk = true
  spelled : ∀ event ∈ events, event.subagentRunId ≠ .null
  parent : ∀ event ∈ events, event.subagentRunId = .absent -> (names? event).isSome
  disjoint : ∀ event ∈ events, ∀ other ∈ events,
    ∀ item, names? event = some item -> names? other = some item ->
      event.subagentRunId = other.subagentRunId

/-- Every stream still being assembled was opened by a chunk of its owner. -/
def Opened (events : List Event) (lanes : OrderedMap Lane PendingStream) : Prop :=
  ∀ owner pending, lanes.get? owner = some pending ->
    ∃ event ∈ events, names? event = some pending.item ∧
      event.subagentRunId = pending.subagentRunId ∧ owner = chunkOwner event

theorem chunkArm_of_isChunk {event : Event} (chunk : event.isChunk = true) :
    ∃ arm, chunkArm? event = some arm := by
  cases event <;> first | exact ⟨_, rfl⟩ | cases chunk

variable {arm : ChunkArm}

theorem arm_tag {event : Event} (chunk : chunkArm? event = some arm) :
    arm.event.subagentRunId = event.subagentRunId := by
  cases event <;> first | (cases chunk; rfl) | cases chunk

theorem arm_names {event : Event} (chunk : chunkArm? event = some arm) :
    names? event = arm.entityId.map fun id => (arm.kind, id) := by
  cases event <;> first | (cases chunk; rfl) | cases chunk

variable {lanes : OrderedMap Lane PendingStream}

/-- A chunk is resolved to the lane of its owner. -/
theorem resolveLane_own {events : List Event} (owned : OwnedChunks events)
    (opened : Opened events lanes) {event : Event}
    (member : event ∈ events) (chunk : chunkArm? event = some arm) :
    resolveLane lanes arm.kind arm.entityId arm.event.subagentRunId.toOption = .ok (chunkOwner event) := by
  rw [arm_tag chunk]
  have naming := arm_names chunk
  cases entityId : arm.entityId with
  | none =>
    cases tag : event.subagentRunId with
    | absent =>
      have named := owned.parent event member tag
      rw [naming, entityId] at named
      cases named
    | null => exact absurd tag (owned.spelled event member)
    | value name => simp [resolveLane, chunkOwner, tag, Nullable.toOption]
  | some id =>
    rw [entityId] at naming
    cases holder : laneHolding lanes arm.kind id with
    | none => simp [resolveLane, holder, chunkOwner]
    | some owner =>
      rcases laneHolding_eq_some holder with ⟨pending, found, kind, entity⟩
      rcases opened owner pending found with ⟨opener, here, openerNames, openerTag, placed⟩
      have sameItem : names? event = some pending.item := by
        rw [naming, PendingStream.item, kind, entity]
        rfl
      have sameTag := owned.disjoint event member opener here pending.item sameItem openerNames
      have same : owner = chunkOwner event := by
        rw [placed, chunkOwner, chunkOwner, sameTag]
      subst same
      cases tag : event.subagentRunId.toOption with
      | none => simp [resolveLane, holder, chunkOwner, tag]
      | some name => simp [resolveLane, holder, chunkOwner, tag]

/-- What an owner sees of an output: its own events, and the end of the run. -/
def visibleTo (owner : Lane) (event : Event) : Bool :=
  chunkOwner event = owner || event.type = .runFinished

variable {assembly : Assembly} {suppressed : Bool}

/-- A chunk speaks to its own owner only. -/
theorem visibleTo_of_mem {events : List Event}
    (opened : Opened events lanes) {event : Event} (chunk : chunkArm? event = some arm)
    (assembled : Assembled suppressed arm (lanes.get? (chunkOwner event)) assembly) {output : Event}
    (emitted : output ∈ assembly.events) (owner : Lane) :
    visibleTo owner output = decide (chunkOwner event = owner) := by
  have heldTag : ∀ held, lanes.get? (chunkOwner event) = some held ->
      held.subagentRunId.toOption = chunkOwner event := by
    intro held found
    rcases opened _ held found with ⟨opener, _, _, tag, placed⟩
    rw [placed, chunkOwner, tag]
  have pendingTag : assembly.pending.subagentRunId.toOption = chunkOwner event := by
    cases assembled with
    | continues pending held same => exact heldTag pending held
    | opens pending opener apart => rw [(arm.opens pending opener).2.2, arm_tag chunk, chunkOwner]
  have visible : ∀ tag : Tag, tag.toOption = chunkOwner event ->
      ∀ output : Event, output.subagentRunId = tag -> output.type ≠ .runFinished ->
        visibleTo owner output = decide (chunkOwner event = owner) := by
    intro tag same output tagged notEnd
    rw [visibleTo, decide_eq_false notEnd, Bool.or_false, chunkOwner, tagged, same]
  cases synthesized_of_mem assembled emitted with
  | closing held found =>
    apply visible _ (heldTag held found) _ (tag_endEvent held)
    cases held <;> exact EventType.noConfusion
  | start =>
    apply visible _ pendingTag _ (tag_startEvent _ _)
    cases assembly.pending <;> exact EventType.noConfusion
  | carrying remainder _ =>
    apply visible _ pendingTag
    · rw [tag_spreadUnder, tag_startEvent]
    · cases assembly.pending <;> exact EventType.noConfusion
  | content delta =>
    apply visible (contentOwner arm assembly.pending)
    · unfold contentOwner
      split
      · rw [arm_tag chunk, chunkOwner]
      · exact pendingTag
    · exact tag_contentEvent _ _ _ _
    · rw [ChunkArm.content]
      cases assembly.pending <;> exact EventType.noConfusion

/-- The lanes after a chunk of `owner`, which was assembled as `assembly`. -/
def lanesAfter (lanes : OrderedMap Lane PendingStream) (owner : Lane) (assembly : Assembly) :
    OrderedMap Lane PendingStream :=
  if assembly.opened then (lanes.erase owner).set owner assembly.pending else lanes

theorem get?_lanesAfter {owner : Lane}
    (assembled : Assembled suppressed arm (lanes.get? owner) assembly) (other : Lane) :
    (lanesAfter lanes owner assembly).get? other =
      if other = owner then some assembly.pending else lanes.get? other := by
  unfold lanesAfter
  cases assembled with
  | continues pending held same =>
    simp only [Bool.false_eq_true, if_false]
    split
    · rename_i here
      rw [here, held]
    · rfl
  | opens pending opener apart =>
    simp only [if_true, OrderedMap.get?_set, OrderedMap.get?_erase]
    split
    · rfl
    · rfl

theorem opened_lanesAfter {events : List Event} (opened : Opened events lanes) {event : Event}
    (member : event ∈ events) (chunk : chunkArm? event = some arm)
    (assembled : Assembled suppressed arm (lanes.get? (chunkOwner event)) assembly) :
    Opened events (lanesAfter lanes (chunkOwner event) assembly) := by
  intro owner pending found
  rw [get?_lanesAfter assembled] at found
  split at found
  · rename_i here
    cases found
    cases assembled with
    | continues pending held same => exact opened owner pending (here ▸ held)
    | opens pending opener apart =>
      rcases arm.opens pending opener with ⟨named, kind, tag⟩
      refine ⟨event, member, ?_, ?_, here⟩
      · rw [arm_names chunk, named, PendingStream.item, kind]
        rfl
      · rw [tag, arm_tag chunk]
  · exact opened owner pending found

/-! ## Two runs -/

/-- The whole stream's lanes, seen from one owner, are the lanes of a run of
that owner's chunks alone. -/
structure Alone (events : List Event) (whole : TransformState) (owner : Lane) (alone : TransformState) :
    Prop where
  same : alone.lanes.get? owner = whole.lanes.get? owner
  others : ∀ other, other ≠ owner -> alone.lanes.get? other = none
  opened : Opened events alone.lanes

theorem alone_initial (events : List Event) (owner : Lane) : Alone events {} owner {} where
  same := rfl
  others := fun _ _ => rfl
  opened := by
    intro owner pending impossible
    cases impossible

theorem expandChunk_own (suppressed : Bool) {events : List Event} (owned : OwnedChunks events)
    {state : TransformState} (opened : Opened events state.lanes) {event : Event} (member : event ∈ events)
    (chunk : chunkArm? event = some arm) : transformChunks suppressed state event =
      match assemble suppressed arm (state.lanes.get? (chunkOwner event)) with
      | .error error => .error error
      | .ok assembly =>
        .ok ({ lanes := lanesAfter state.lanes (chunkOwner event) assembly
               warnings := state.warnings ++ assembly.warnings }, assembly.events) := by
  simp only [transformChunks, chunk, expandChunk, resolveLane_own owned opened member chunk]
  rfl

/-- The END events of a run, seen from one owner. -/
theorem filter_closeAllLanes {events : List Event} (opened : Opened events lanes) (owner : Lane) :
    (closeAllLanes lanes).2.filter (visibleTo owner) =
      (lanes.get? owner).toList.map PendingStream.endEvent := by
  have visible : ∀ entry ∈ lanes.entries,
      (visibleTo owner ∘ fun entry => entry.2.endEvent) entry = decide (entry.1 = owner) := by
    rintro ⟨lane, pending⟩ member
    rcases opened lane pending ((lanes.mem_entries_iff lane pending).mp member) with ⟨opener, _, _, tag, placed⟩
    have notEnd : pending.endEvent.type ≠ .runFinished := by
      cases pending <;> exact EventType.noConfusion
    rw [Function.comp_apply, visibleTo, decide_eq_false notEnd, Bool.or_false, chunkOwner, tag_endEvent,
      ← tag, placed, chunkOwner]
  rw [closeAllLanes, List.filter_map, List.filter_congr visible, lanes.filter_key owner, List.map_map]
  rfl

/-- A run of one owner alone has no lane but that owner's. -/
theorem closeAllLanes_alone {events : List Event} {whole alone : TransformState} {owner : Lane}
    (agree : Alone events whole owner alone) :
    (closeAllLanes alone.lanes).2 = (alone.lanes.get? owner).toList.map PendingStream.endEvent := by
  rw [← filter_closeAllLanes agree.opened owner, closeAllLanes]
  symm
  apply List.filter_eq_self.mpr
  intro event member
  rcases List.mem_map.mp member with ⟨⟨lane, pending⟩, entry, rfl⟩
  have found := (alone.lanes.mem_entries_iff lane pending).mp entry
  rcases agree.opened lane pending found with ⟨opener, _, _, tag, placed⟩
  have here : lane = owner := by
    by_contra apart
    rw [agree.others lane apart] at found
    cases found
  rw [visibleTo, chunkOwner, tag_endEvent, ← tag, ← here, placed, chunkOwner, decide_eq_true rfl, Bool.true_or]

theorem alone_step {events : List Event} {whole : TransformState}
    {alone : Lane -> TransformState} (agree : ∀ owner, Alone events whole owner (alone owner))
    {event : Event} (member : event ∈ events) (chunk : chunkArm? event = some arm)
    (assembled : Assembled suppressed arm (whole.lanes.get? (chunkOwner event)) assembly)
    (warnings others : List ChunkWarning) (owner : Lane) :
    Alone events { lanes := lanesAfter whole.lanes (chunkOwner event) assembly, warnings := warnings } owner
      (Function.update alone (chunkOwner event)
        { lanes := lanesAfter (alone (chunkOwner event)).lanes (chunkOwner event) assembly
          warnings := others } owner) := by
  have before := agree (chunkOwner event)
  have inAlone : Assembled suppressed arm ((alone (chunkOwner event)).lanes.get? (chunkOwner event)) assembly := by
    rw [before.same]
    exact assembled
  by_cases here : owner = chunkOwner event
  · subst here
    rw [Function.update_self]
    refine ⟨?_, ?_, opened_lanesAfter before.opened member chunk inAlone⟩
    · rw [get?_lanesAfter inAlone, get?_lanesAfter assembled, if_pos rfl, if_pos rfl]
    · intro other apart
      rw [get?_lanesAfter inAlone, if_neg apart]
      exact before.others other apart
  · rw [Function.update_of_ne here]
    refine ⟨?_, (agree owner).others, (agree owner).opened⟩
    rw [get?_lanesAfter assembled, if_neg here]
    exact (agree owner).same

/-- The transform on an interleaving agrees with itself on each owner's part. -/
theorem run_interleaving (suppressed : Bool) {events : List Event} (owned : OwnedChunks events)
    (finish : RunFinishedEvent) (rest : List Event) (subset : ∀ event ∈ rest, event ∈ events)
    (whole : TransformState) (opened : Opened events whole.lanes) (alone : Lane -> TransformState)
    (agree : ∀ owner, Alone events whole owner (alone owner)) :
    ((transformChunks suppressed).accepts whole (rest ++ [Event.runFinished finish]) = true ↔
      ∀ owner, (transformChunks suppressed).accepts (alone owner)
        (rest.filter (fun event => chunkOwner event = owner) ++ [Event.runFinished finish]) = true) ∧
    ((transformChunks suppressed).accepts whole (rest ++ [Event.runFinished finish]) = true ->
      ∀ owner,
        ((transformChunks suppressed).run whole (rest ++ [Event.runFinished finish])).1.filter (visibleTo owner) =
          ((transformChunks suppressed).run (alone owner)
            (rest.filter (fun event => chunkOwner event = owner) ++ [Event.runFinished finish])).1) := by
  induction rest generalizing whole alone with
  | nil =>
    have finishes : ∀ state : TransformState,
        transformChunks suppressed state (.runFinished finish) =
          .ok ({ state with lanes := OrderedMap.empty },
            (closeAllLanes state.lanes).2 ++ [Event.runFinished finish]) := fun _ => rfl
    refine ⟨iff_of_true ?_ fun owner => ?_, fun _ owner => ?_⟩
    · exact Stage.accepts_cons_ok (finishes whole) []
    · exact Stage.accepts_cons_ok (finishes (alone owner)) []
    · have wholeRun := Stage.run_cons_ok (finishes whole) []
      have aloneRun := Stage.run_cons_ok (finishes (alone owner)) []
      have ending : visibleTo owner (.runFinished finish) = true := by simp [visibleTo, Event.type]
      simp only [List.filter_nil, List.nil_append]
      rw [wholeRun, aloneRun, closeAllLanes_alone (agree owner), (agree owner).same,
        ← filter_closeAllLanes opened owner]
      simp [Stage.run, List.filter_append, ending]
  | cons event rest ih =>
    have member := subset event List.mem_cons_self
    rcases chunkArm_of_isChunk (owned.chunks event member) with ⟨arm, chunk⟩
    have before := agree (chunkOwner event)
    have wholeStep := expandChunk_own suppressed owned opened member chunk
    have aloneStep := expandChunk_own suppressed owned before.opened member chunk
    rw [before.same] at aloneStep
    cases assembled : assemble suppressed arm (whole.lanes.get? (chunkOwner event)) with
    | error error =>
      simp only [assembled] at wholeStep aloneStep
      have refused := Stage.accepts_cons_error wholeStep (rest ++ [Event.runFinished finish])
      have alsoRefused := Stage.accepts_cons_error aloneStep
        (rest.filter (fun other => chunkOwner other = chunkOwner event) ++ [Event.runFinished finish])
      rw [List.cons_append, refused]
      refine ⟨iff_of_false Bool.false_ne_true fun all => ?_, fun accepted => by cases accepted⟩
      have impossible := all (chunkOwner event)
      rw [List.filter_cons_of_pos (by simp), List.cons_append, alsoRefused] at impossible
      cases impossible
    | ok assembly =>
      simp only [assembled] at wholeStep aloneStep
      have shape := assemble_assembled assembled
      have later := ih (List.forall_mem_cons.mp subset).2 _
        (opened_lanesAfter opened member chunk shape) _
        (alone_step agree member chunk shape (whole.warnings ++ assembly.warnings)
          ((alone (chunkOwner event)).warnings ++ assembly.warnings))
      have emitted : ∀ owner, assembly.events.filter (visibleTo owner) =
          if chunkOwner event = owner then assembly.events else [] := by
        intro owner
        have visible : ∀ output ∈ assembly.events,
            visibleTo owner output = decide (chunkOwner event = owner) :=
          fun output here => visibleTo_of_mem opened chunk shape here owner
        rw [List.filter_congr visible]
        by_cases own : chunkOwner event = owner <;> simp [own]
      rw [List.cons_append, Stage.accepts_cons_ok wholeStep, Stage.run_cons_ok wholeStep]
      constructor
      · rw [later.1]
        apply forall_congr'
        intro owner
        by_cases own : chunkOwner event = owner
        · subst own
          rw [Function.update_self, List.filter_cons_of_pos (by simp), List.cons_append,
            Stage.accepts_cons_ok aloneStep]
        · rw [Function.update_of_ne (Ne.symm own), List.filter_cons_of_neg (by simp [own])]
      · intro accepted owner
        have restricted := later.2 accepted owner
        rw [List.filter_append, emitted, restricted]
        by_cases own : chunkOwner event = owner
        · subst own
          rw [if_pos rfl, Function.update_self, List.filter_cons_of_pos (by simp), List.cons_append,
            Stage.run_cons_ok aloneStep]
        · rw [if_neg own, Function.update_of_ne (Ne.symm own), List.filter_cons_of_neg (by simp [own]),
            List.nil_append]

/-- Lane noninterference.  `streams` is a family of chunk streams by owner and
`events` an interleaving of it.  Closed by a `RUN_FINISHED`, the interleaving
is refused exactly when one of the streams is, and otherwise shows each owner
what its own stream shows it. -/
theorem transformChunks_noninterference (suppressed : Bool) (streams : Lane -> List Event)
    (events : List Event)
    (interleaved : ∀ owner, events.filter (fun event => chunkOwner event = owner) = streams owner)
    (owned : OwnedChunks events) (finish : RunFinishedEvent) :
    ((transformChunks suppressed).accepts {} (events ++ [Event.runFinished finish]) = true ↔
      ∀ owner, (transformChunks suppressed).accepts {} (streams owner ++ [Event.runFinished finish]) = true) ∧
    ((transformChunks suppressed).accepts {} (events ++ [Event.runFinished finish]) = true ->
      ∀ owner,
        ((transformChunks suppressed).run {} (events ++ [Event.runFinished finish])).1.filter (visibleTo owner) =
          ((transformChunks suppressed).run {} (streams owner ++ [Event.runFinished finish])).1) := by
  have opened : Opened events (TransformState.lanes {}) := (alone_initial events none).opened
  have both := run_interleaving suppressed owned finish events (fun _ member => member) {} opened
    (fun _ => {}) (alone_initial events)
  simp only [interleaved] at both
  exact both

/-- Two subagents and the parent stream at once.  Subagent `a` omits its id
after its first chunk, and changes from a message to a tool call. -/
theorem transformChunks_noninterference_three :
    let ofA : List Event :=
      [.textMessageChunk { subagentRunId := .value "a", messageId := some "m", delta := some "one" },
       .textMessageChunk { subagentRunId := .value "a", delta := some "two" },
       .toolCallChunk { subagentRunId := .value "a", toolCallId := some "c", toolCallName := some "search" }]
    let finish : RunFinishedEvent := { threadId := "t", runId := "r" }
    let both : List Event :=
      [.textMessageChunk { subagentRunId := .value "a", messageId := some "m", delta := some "one" },
       .textMessageChunk { subagentRunId := .value "b", messageId := some "n", delta := some "three" },
       .reasoningMessageChunk { messageId := some "r", delta := some "five" },
       .textMessageChunk { subagentRunId := .value "a", delta := some "two" },
       .toolCallChunk { subagentRunId := .value "a", toolCallId := some "c", toolCallName := some "search" },
       .textMessageChunk { subagentRunId := .value "b", delta := some "four" }]
    ((transformChunks false).run {} (both ++ [Event.runFinished finish])).1.filter (visibleTo (some "a")) =
      ((transformChunks false).run {} (ofA ++ [Event.runFinished finish])).1 := by
  intro ofA finish both
  let ofB : List Event :=
    [.textMessageChunk { subagentRunId := .value "b", messageId := some "n", delta := some "three" },
     .textMessageChunk { subagentRunId := .value "b", delta := some "four" }]
  let ofParent : List Event := [.reasoningMessageChunk { messageId := some "r", delta := some "five" }]
  let streams : Lane -> List Event := fun owner =>
    if owner = some "a" then ofA else if owner = some "b" then ofB else if owner = none then ofParent else []
  have interleaved : ∀ owner, both.filter (fun event => chunkOwner event = owner) = streams owner := by
    intro owner
    by_cases isA : owner = some "a"
    · subst isA
      rfl
    by_cases isB : owner = some "b"
    · subst isB
      rfl
    by_cases isParent : owner = none
    · subst isParent
      rfl
    simp [both, streams, chunkOwner, Event.subagentRunId, Nullable.toOption, isA, isB, isParent, Ne.symm isA,
      Ne.symm isB, Ne.symm isParent]
  have owned : OwnedChunks both := by
    constructor
    · simp [both, Event.isChunk]
    · simp [both, Event.subagentRunId]
    · simp [both, Event.subagentRunId, names?]
    · simp [both, Event.subagentRunId, names?]
  exact (transformChunks_noninterference false streams both interleaved owned finish).2 (by decide) (some "a")

end Chunks
end AgUi
