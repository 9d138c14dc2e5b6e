import AgUi.Chunks.Transform

namespace AgUi
namespace Chunks

open Library Protocol

/-!
# What the expansion of one chunk can do

Inversion lemmas for the operations of the transform.  A chunk finds its lane
in one of three ways (`Resolved`), and is expanded in one of two
(`Assembled`): it adds to the stream its lane has open, or it closes that
stream and opens its own.  Everything proved about the transform is proved
from these.
-/

/-! ## Lanes -/

variable {lanes : OrderedMap Lane PendingStream}

theorem laneHolding_eq_some {kind : PendingKind}
    {entityId : String} {owner : Lane} (found : laneHolding lanes kind entityId = some owner) :
    ∃ pending, lanes.get? owner = some pending ∧ pending.kind = kind ∧
      pending.entityId = entityId := by
  rw [laneHolding, Option.map_eq_some_iff] at found
  rcases found with ⟨⟨other, pending⟩, hit, rfl⟩
  have holds := List.find?_some hit
  simp only [Bool.and_eq_true, beq_iff_eq] at holds
  exact ⟨pending, (lanes.mem_entries_iff other pending).mp (List.mem_of_find?_eq_some hit), holds⟩

theorem laneHolding_eq_none {kind : PendingKind}
    {entityId : String} (missing : laneHolding lanes kind entityId = none) {owner : Lane}
    {pending : PendingStream} (held : lanes.get? owner = some pending) :
    ¬ (pending.kind = kind ∧ pending.entityId = entityId) := by
  rw [laneHolding, Option.map_eq_none_iff, List.find?_eq_none] at missing
  have refuses := missing (owner, pending) ((lanes.mem_entries_iff owner pending).mpr held)
  simpa only [Bool.and_eq_true, beq_iff_eq] using refuses

/-- How a chunk found its lane. -/
inductive Resolved (lanes : OrderedMap Lane PendingStream) (kind : PendingKind) (tag : Option String)
    (lane : Lane) : Option String -> Prop
  | held {entityId : String} (holder : laneHolding lanes kind entityId = some lane)
      (agrees : ∀ name, tag = some name -> lane = some name) : Resolved lanes kind tag lane (some entityId)
  | fresh {entityId : String} (nobody : laneHolding lanes kind entityId = none) (own : lane = tag) :
      Resolved lanes kind tag lane (some entityId)
  | shorthand (agrees : ∀ name, tag = some name -> lane = some name) : Resolved lanes kind tag lane none

theorem resolveLane_resolved {kind : PendingKind}
    {entityId : Option String} {tag : Option String} {lane : Lane}
    (found : resolveLane lanes kind entityId tag = .ok lane) : Resolved lanes kind tag lane entityId := by
  cases entityId with
  | none =>
    apply Resolved.shorthand
    rintro name rfl
    simp only [resolveLane, Except.ok.injEq] at found
    exact found.symm
  | some entityId =>
    cases holder : laneHolding lanes kind entityId with
    | none =>
      simp only [resolveLane, holder, Except.ok.injEq] at found
      exact .fresh holder found.symm
    | some owner =>
      cases tag with
      | none =>
        simp only [resolveLane, holder, Except.ok.injEq] at found
        subst found
        exact .held holder nofun
      | some name =>
        simp only [resolveLane, holder] at found
        split at found
        · rename_i same
          cases found
          apply Resolved.held holder
          rintro other ⟨⟩
          exact same
        · cases found

/-- A chunk never lands in a lane that its own tag contradicts. -/
theorem Resolved.agrees {kind : PendingKind} {tag : Option String} {lane : Lane} {entityId : Option String}
    (resolved : Resolved lanes kind tag lane entityId) {name : String} (tagged : tag = some name) :
    lane = some name := by
  cases resolved with
  | held _ agrees => exact agrees name tagged
  | fresh _ own => exact own.trans tagged
  | shorthand agrees => exact agrees name tagged

/-! ## Expansions -/

namespace ChunkArm

/-- The chunk is written out as content of its stream. -/
def streams (arm : ChunkArm) : Bool :=
  arm.delta.isSome || arm.event.rawEvent.isSome

/-- A chunk that has no delta and no raw event may have something else to deliver. -/
def delivers (arm : ChunkArm) : Bool :=
  arm.event.metadata.isSome || arm.event.subagentRunId.isNull || arm.remainder.isSome

/-- The content events of a chunk that continues a stream. -/
def continuation (arm : ChunkArm) (pending : PendingStream) : List Event :=
  if arm.streams then [arm.content pending (arm.delta.getD "")]
  else if arm.delivers then [arm.content pending ""] else []

/-- The opener of a chunk that opens a stream, and the content that follows it. -/
def opening (arm : ChunkArm) (pending : PendingStream) : List Event :=
  let start := pending.startEvent arm.event.metadata
  if arm.streams then [start, arm.content pending (arm.delta.getD "")]
  else
    match arm.remainder with
    | none => [start]
    | some remainder => [spreadUnder remainder start]

/-- What the chunk carries beyond its fields although the synthesized event describes it. -/
def shadowed (arm : ChunkArm) (pending : PendingStream) : List String :=
  (arm.remainder.getD OrderedMap.empty).keys.filter fun key =>
    (ownKeys (pending.startEvent arm.event.metadata)).contains key

def openingWarnings (suppressed : Bool) (arm : ChunkArm) (pending : PendingStream) : List ChunkWarning :=
  if arm.streams || (arm.shadowed pending).isEmpty || suppressed then []
  else [⟨arm.kind.chunkType, arm.shadowed pending, (pending.startEvent arm.event.metadata).type⟩]

/-- The chunk adds to what its lane has open. -/
def Continues (arm : ChunkArm) (pending : PendingStream) : Prop :=
  pending.kind = arm.kind ∧ (arm.entityId = none ∨ arm.entityId = some pending.entityId)

instance (arm : ChunkArm) (pending : PendingStream) : Decidable (arm.Continues pending) :=
  inferInstanceAs (Decidable (_ ∧ _))

end ChunkArm

/-- The two ways a chunk is expanded. -/
inductive Assembled (suppressed : Bool) (arm : ChunkArm) (open? : Option PendingStream) : Assembly -> Prop
  | continues (pending : PendingStream) (held : open? = some pending) (same : arm.Continues pending) :
      Assembled suppressed arm open?
        { pending := pending, opened := false, events := arm.continuation pending, warnings := [] }
  | opens (pending : PendingStream) (opener : arm.opener = .ok pending)
      (apart : ∀ held, open? = some held -> ¬ arm.Continues held) :
      Assembled suppressed arm open?
        { pending := pending, opened := true
          events := (open?.map PendingStream.endEvent).toList ++ arm.opening pending
          warnings := arm.openingWarnings suppressed pending }

variable {open? : Option PendingStream} {arm : ChunkArm}

theorem openStream_eq_ok {pending : PendingStream}
    {opened : Bool} {events : List Event} (done : openStream arm open? = .ok (pending, opened, events)) :
    (open? = some pending ∧ arm.Continues pending ∧ opened = false ∧ events = []) ∨
    (arm.opener = .ok pending ∧ (∀ held, open? = some held -> ¬ arm.Continues held) ∧ opened = true ∧
      events = (open?.map PendingStream.endEvent).toList ++ [pending.startEvent arm.event.metadata]) := by
  have opening : openStream.openNew arm open? = .ok (pending, opened, events) ->
      arm.opener = .ok pending ∧ opened = true ∧
        events = (open?.map PendingStream.endEvent).toList ++ [pending.startEvent arm.event.metadata] := by
    intro new
    rw [openStream.openNew] at new
    cases opener : arm.opener with
    | error error =>
      rw [opener] at new
      cases new
    | ok other =>
      rw [opener] at new
      cases new
      exact ⟨rfl, rfl, rfl⟩
  unfold openStream at done
  cases open? with
  | none =>
    rcases opening done with ⟨opener, isOpened, synthesized⟩
    exact Or.inr ⟨opener, (by rintro held ⟨⟩), isOpened, synthesized⟩
  | some held =>
    simp only at done
    split at done
    · rename_i same
      split at done
      · cases done
      · cases done
        exact Or.inl ⟨rfl, same, rfl, rfl⟩
    · rename_i apart
      rcases opening done with ⟨opener, isOpened, synthesized⟩
      refine Or.inr ⟨opener, ?_, isOpened, synthesized⟩
      rintro other ⟨⟩
      exact apart

/-- A chunk that opens a stream was resolved to the lane of its own tag, and
no lane holds what it opens. -/
theorem resolved_of_opens {lane : Lane}
    (resolved : Resolved lanes arm.kind arm.event.subagentRunId.toOption lane arm.entityId)
    {pending : PendingStream} (opener : arm.opener = .ok pending)
    (apart : ∀ held, lanes.get? lane = some held -> ¬ arm.Continues held) :
    lane = pending.subagentRunId.toOption ∧
      laneHolding lanes pending.kind pending.entityId = none := by
  rcases arm.opens pending opener with ⟨named, kind, tag⟩
  rw [named, ← kind, ← tag] at resolved
  cases resolved with
  | held holder _ =>
    rcases laneHolding_eq_some holder with ⟨held, found, sameKind, sameId⟩
    refine absurd ⟨sameKind.trans kind, Or.inr ?_⟩ (apart held found)
    rw [named, sameId]
  | fresh nobody own => exact ⟨own, nobody⟩

theorem carryRemainderOnOpener_carried (suppressed : Bool) (synthesized : List Event)
    (remainder : Option Properties) (chunkType : EventType) :
    carryRemainderOnOpener suppressed synthesized remainder true chunkType = (synthesized, []) := by
  unfold carryRemainderOnOpener
  split <;> rfl

theorem carryRemainderOnOpener_opener (suppressed : Bool) (arm : ChunkArm) (closed : List Event)
    (pending : PendingStream) (bare : arm.streams = false) :
    carryRemainderOnOpener suppressed (closed ++ [pending.startEvent arm.event.metadata]) arm.remainder false
        arm.kind.chunkType =
      (closed ++ arm.opening pending, arm.openingWarnings suppressed pending) := by
  cases carried : arm.remainder with
  | none =>
    simp [carryRemainderOnOpener, ChunkArm.opening, ChunkArm.openingWarnings, ChunkArm.shadowed, bare, carried,
      OrderedMap.keys, OrderedMap.empty]
  | some remainder =>
    simp [carryRemainderOnOpener, ChunkArm.opening, ChunkArm.openingWarnings, ChunkArm.shadowed, bare, carried]

theorem assemble_assembled {suppressed : Bool}
    {assembly : Assembly} (done : assemble suppressed arm open? = .ok assembly) :
    Assembled suppressed arm open? assembly := by
  unfold assemble at done
  cases stream : openStream arm open? with
  | error error =>
    rw [stream] at done
    cases done
  | ok triple =>
    rcases triple with ⟨pending, opened, synthesized⟩
    simp only [stream, Except.ok.injEq] at done
    subst done
    have streams_eq : (arm.delta.isSome || arm.event.rawEvent.isSome) = arm.streams := rfl
    rcases openStream_eq_ok stream with ⟨held, same, rfl, rfl⟩ | ⟨opener, apart, rfl, rfl⟩
    · have continues : Assembled suppressed arm open? _ := Assembled.continues pending held same
      rw [ChunkArm.continuation] at continues
      cases streaming : arm.streams with
      | true =>
        simpa [streams_eq, streaming, carryRemainderOnOpener_carried] using continues
      | false =>
        have noRaw : arm.event.rawEvent.isSome = false :=
          (Bool.or_eq_false_iff.mp (streams_eq.trans streaming)).2
        have delivers_eq : (arm.event.metadata.isSome || arm.event.rawEvent.isSome ||
            arm.event.subagentRunId.isNull || arm.remainder.isSome) = arm.delivers := by
          rw [noRaw, Bool.or_false, ChunkArm.delivers]
        cases delivering : arm.delivers with
        | true =>
          simpa [streams_eq, streaming, delivers_eq, delivering, carryRemainderOnOpener_carried]
            using continues
        | false =>
          simpa [streams_eq, streaming, delivers_eq, delivering, carryRemainderOnOpener] using continues
    · have opens : Assembled suppressed arm open? _ := Assembled.opens pending opener apart
      cases streaming : arm.streams with
      | true =>
        simpa [streams_eq, streaming, carryRemainderOnOpener_carried, ChunkArm.opening,
          ChunkArm.openingWarnings] using opens
      | false =>
        have nonempty : ((open?.map PendingStream.endEvent).toList ++
            [pending.startEvent arm.event.metadata]).isEmpty = false :=
          List.isEmpty_eq_false_iff.mpr (List.append_ne_nil_of_right_ne_nil _ (List.cons_ne_nil _ _))
        simpa [streams_eq, streaming, nonempty, carryRemainderOnOpener_opener] using opens

/-- The three shapes of a synthesized event. -/
inductive Synthesized (arm : ChunkArm) (open? : Option PendingStream) (pending : PendingStream) : Event -> Prop
  | closing (held : PendingStream) (same : open? = some held) :
      Synthesized arm open? pending held.endEvent
  | start : Synthesized arm open? pending (pending.startEvent arm.event.metadata)
  | carrying (remainder : Properties) (same : arm.remainder = some remainder) :
      Synthesized arm open? pending (spreadUnder remainder (pending.startEvent arm.event.metadata))
  | content (delta : String) : Synthesized arm open? pending (arm.content pending delta)

theorem synthesized_of_mem {suppressed : Bool}
    {assembly : Assembly} (assembled : Assembled suppressed arm open? assembly) {event : Event}
    (member : event ∈ assembly.events) : Synthesized arm open? assembly.pending event := by
  cases assembled with
  | continues pending held same =>
    simp only [ChunkArm.continuation] at member
    split at member
    · rw [List.mem_singleton.mp member]
      exact .content _
    · split at member
      · rw [List.mem_singleton.mp member]
        exact .content _
      · cases member
  | opens pending opener apart =>
    rcases List.mem_append.mp member with closed | opening
    · rw [Option.mem_toList, Option.map_eq_some_iff] at closed
      rcases closed with ⟨held, found, rfl⟩
      exact .closing held found
    · simp only [ChunkArm.opening] at opening
      split at opening
      · rcases List.mem_cons.mp opening with rfl | later
        · exact .start
        · rw [List.mem_singleton.mp later]
          exact .content _
      · split at opening
        · rw [List.mem_singleton.mp opening]
          exact .start
        · rename_i remainder carried
          rw [List.mem_singleton.mp opening]
          exact .carrying remainder carried

/-- A chunk is expanded in the lane it resolves to, and nowhere else. -/
theorem expandChunk_eq_ok {suppressed : Bool} {state after : TransformState}
    {events : List Event} (done : expandChunk suppressed state arm = .ok (after, events)) : ∃ lane assembly,
      resolveLane state.lanes arm.kind arm.entityId arm.event.subagentRunId.toOption = .ok lane ∧
      assemble suppressed arm (state.lanes.get? lane) = .ok assembly ∧
      after = { lanes :=
                  if assembly.opened then (state.lanes.erase lane).set lane assembly.pending
                  else state.lanes
                warnings := state.warnings ++ assembly.warnings } ∧
      events = assembly.events := by
  unfold expandChunk at done
  cases resolution : resolveLane state.lanes arm.kind arm.entityId arm.event.subagentRunId.toOption with
  | error error =>
    rw [resolution] at done
    cases done
  | ok lane =>
    simp only [resolution] at done
    cases assembled : assemble suppressed arm (state.lanes.get? lane) with
    | error error =>
      rw [assembled] at done
      cases done
    | ok assembly =>
      simp only [assembled, Except.ok.injEq, Prod.mk.injEq] at done
      exact ⟨lane, assembly, rfl, assembled, done.1.symm, done.2.symm⟩

end Chunks
end AgUi
