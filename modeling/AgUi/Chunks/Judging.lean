import AgUi.Chunks.Assembly
import AgUi.Library.Judgement

namespace AgUi
namespace Chunks

open Library Protocol

/-!
# What the expansion judges

Whether a chunk is refused depends on the open streams and on what the chunk
says of the stream it belongs to: its kind, its id, its owner and what its
opener established.  Its delta, its metadata and its raw event have no say.
-/

/-- The verdict on a chunk, from the lanes alone. -/
def judgeChunk (lanes : OrderedMap Lane PendingStream) (arm : ChunkArm) :
    Except ChunkError (OrderedMap Lane PendingStream) :=
  match resolveLane lanes arm.kind arm.entityId arm.event.subagentRunId.toOption with
  | .error error => .error error
  | .ok lane =>
    match openStream arm (lanes.get? lane) with
    | .error error => .error error
    | .ok (pending, opened, _) => .ok (if opened then (lanes.erase lane).set lane pending else lanes)

/-- The lanes after an event, or the error it is refused with. -/
def judgeLanes (lanes : OrderedMap Lane PendingStream) (event : Event) :
    Except ChunkError (OrderedMap Lane PendingStream) :=
  match chunkArm? event with
  | some arm => judgeChunk lanes arm
  | none => .ok (passThrough { lanes := lanes } event).1.lanes

theorem judges_lanes (suppressed : Bool) :
    Stage.Judges (transformChunks suppressed) TransformState.lanes judgeLanes := by
  intro state event
  unfold transformChunks judgeLanes
  cases chunkArm? event with
  | none =>
    unfold passThrough
    cases closing event <;> rfl
  | some arm =>
    unfold expandChunk judgeChunk assemble
    dsimp only
    cases resolveLane state.lanes arm.kind arm.entityId arm.event.subagentRunId.toOption with
    | error error => rfl
    | ok lane =>
      dsimp only
      cases openStream arm (state.lanes.get? lane) with
      | error error => rfl
      | ok stream => rfl

/-- The arms of two chunks that say the same of their stream. -/
structure SameStream (first second : ChunkArm) : Prop where
  kind : first.kind = second.kind
  entityId : first.entityId = second.entityId
  owner : first.event.subagentRunId = second.event.subagentRunId
  disagreement : first.disagreement = second.disagreement
  opener : first.opener = second.opener

theorem judgeChunk_of_sameStream {first second : ChunkArm} (same : SameStream first second)
    (lanes : OrderedMap Lane PendingStream) : judgeChunk lanes first = judgeChunk lanes second := by
  unfold judgeChunk
  rw [same.kind, same.entityId, same.owner]
  cases resolveLane lanes second.kind second.entityId second.event.subagentRunId.toOption with
  | error error => rfl
  | ok lane =>
    dsimp only
    unfold openStream
    cases lanes.get? lane with
    | none =>
      dsimp only
      unfold openStream.openNew
      rw [same.opener]
      cases second.opener <;> rfl
    | some pending =>
      dsimp only
      rw [same.kind, same.entityId, same.disagreement]
      unfold openStream.openNew
      rw [same.opener]
      by_cases continues :
          pending.kind = second.kind ∧ (second.entityId = none ∨ second.entityId = some pending.entityId)
      · rw [if_pos continues, if_pos continues]
      · rw [if_neg continues, if_neg continues]
        cases second.opener <;> rfl

theorem judgeLanes_of_sameStream {first second : Event} {firstArm secondArm : ChunkArm}
    (isFirst : chunkArm? first = some firstArm) (isSecond : chunkArm? second = some secondArm)
    (same : SameStream firstArm secondArm) (lanes : OrderedMap Lane PendingStream) :
    judgeLanes lanes first = judgeLanes lanes second := by
  unfold judgeLanes
  rw [isFirst, isSecond]
  exact judgeChunk_of_sameStream same lanes

/-! ## A chunk of the stream that was judged last -/

/-- The stream of a kind that is open under an id. -/
def streamUnder (lanes : OrderedMap Lane PendingStream) (kind : PendingKind) (entityId : String) :
    Option PendingStream :=
  (laneHolding lanes kind entityId).bind lanes.get?

/-- A chunk that continues a stream is refused for a disagreement with it, and opens nothing. -/
def judgeRepeat (lanes : OrderedMap Lane PendingStream) (arm : ChunkArm) (pending : PendingStream) :
    Except ChunkError (OrderedMap Lane PendingStream) :=
  match arm.disagreement pending with
  | some error => .error error
  | none => .ok lanes

theorem laneHolding_of_opened (lane : Lane) {lanes : OrderedMap Lane PendingStream} {pending : PendingStream}
    (nobody : laneHolding lanes pending.kind pending.entityId = none) :
    laneHolding ((lanes.erase lane).set lane pending) pending.kind pending.entityId = some lane := by
  have held : ((lanes.erase lane).set lane pending).get? lane = some pending := OrderedMap.get?_set_self _ _ _
  cases holder : laneHolding ((lanes.erase lane).set lane pending) pending.kind pending.entityId with
  | none => exact absurd ⟨rfl, rfl⟩ (laneHolding_eq_none holder held)
  | some owner =>
    by_cases same : owner = lane
    · rw [same]
    · rcases laneHolding_eq_some holder with ⟨other, found, sameKind, sameId⟩
      rw [OrderedMap.get?_set_of_ne _ _ same, OrderedMap.get?_erase, if_neg same] at found
      exact absurd ⟨sameKind, sameId⟩ (laneHolding_eq_none nobody found)

/-- After a chunk with an id is accepted its stream is open in the lane to which its owner leads. -/
theorem stream_of_judged {lanes after : OrderedMap Lane PendingStream} {arm : ChunkArm} {entityId : String}
    (named : arm.entityId = some entityId) (judged : judgeChunk lanes arm = .ok after) :
    ∃ lane pending,
      resolveLane after arm.kind (some entityId) arm.event.subagentRunId.toOption = .ok lane ∧
        laneHolding after arm.kind entityId = some lane ∧ after.get? lane = some pending ∧
        pending.kind = arm.kind ∧ pending.entityId = entityId := by
  unfold judgeChunk at judged
  cases resolution : resolveLane lanes arm.kind arm.entityId arm.event.subagentRunId.toOption with
  | error error =>
    rw [resolution] at judged
    cases judged
  | ok lane =>
    rw [resolution] at judged
    dsimp only at judged
    have resolved := resolveLane_resolved resolution
    cases stream : openStream arm (lanes.get? lane) with
    | error error =>
      rw [stream] at judged
      cases judged
    | ok triple =>
      rcases triple with ⟨pending, opened, synthesized⟩
      rw [stream] at judged
      rcases openStream_eq_ok stream with ⟨held, same, rfl, _⟩ | ⟨opener, apart, rfl, _⟩
      · cases judged
        have sameId : pending.entityId = entityId := by
          rcases same.2 with absent | present
          · rw [named] at absent
            cases absent
          · rw [named] at present
            exact (Option.some.inj present).symm
        rw [named] at resolution resolved
        refine ⟨lane, pending, resolution, ?_, held, same.1, sameId⟩
        cases resolved with
        | held holder _ => exact holder
        | fresh nobody _ => exact absurd ⟨same.1, sameId⟩ (laneHolding_eq_none nobody held)
      · cases judged
        rcases arm.opens pending opener with ⟨opensId, opensKind, opensTag⟩
        rcases resolved_of_opens resolved opener apart with ⟨own, nobody⟩
        have sameId : pending.entityId = entityId := Option.some.inj (opensId.symm.trans named)
        have holder := laneHolding_of_opened lane nobody
        rw [opensKind, sameId] at holder
        refine ⟨lane, pending, ?_, holder, OrderedMap.get?_set_self _ _ _, opensKind, sameId⟩
        rw [if_pos rfl, resolveLane, holder, ← opensTag, own]
        cases pending.subagentRunId.toOption with
        | none => rfl
        | some name => exact if_pos rfl

/-- A second chunk with the same kind, id and owner goes to the stream that the first one left. -/
theorem judgeChunk_again {lanes after : OrderedMap Lane PendingStream} {first second : ChunkArm} {entityId : String}
    (named : first.entityId = some entityId) (judged : judgeChunk lanes first = .ok after)
    (sameKind : second.kind = first.kind) (sameId : second.entityId = some entityId)
    (sameOwner : second.event.subagentRunId.toOption = first.event.subagentRunId.toOption) :
    ∃ pending, streamUnder after first.kind entityId = some pending ∧
      judgeChunk after second = judgeRepeat after second pending := by
  rcases stream_of_judged named judged with ⟨lane, pending, resolution, holder, held, kind, id⟩
  refine ⟨pending, ?_, ?_⟩
  · unfold streamUnder
    rw [holder]
    exact held
  · have continues : pending.kind = second.kind ∧ (second.entityId = none ∨ second.entityId = some pending.entityId) :=
      ⟨kind.trans sameKind.symm, Or.inr (id ▸ sameId)⟩
    unfold judgeChunk
    rw [sameKind, sameId, sameOwner, resolution]
    dsimp only
    unfold openStream
    rw [held]
    dsimp only
    rw [if_pos continues]
    unfold judgeRepeat
    cases second.disagreement pending <;> rfl

end Chunks
end AgUi
