import AgUi.DotnetClient.Records
import AgUi.DotnetClient.Interrupts

namespace AgUi
namespace DotnetClient

open Library Protocol Verify Building

/-!
# Attribution is fixed when an event arrives

An update that stands for an entity's event is to carry the owner the entity
has when the event arrives, however long the update is held.  What is held is
stamped when it is held, except for the end of a call and for a result: their
owner is read when they are let go, from a map that later events write.  And
text, reasoning, activities and results share the message ids of that map, so
one kind may be stamped with the owner of another.
-/

/-! ## Owners at arrival -/

namespace Attribution

/-- The entity an event is about, by kind and id. -/
def entityOf (state : Attribution) : Event -> Option (Bucket × String)
  | .textMessageContent event => some (.message, event.messageId)
  | .textMessageChunk event => event.messageId.map fun id => (.message, id)
  | .reasoningMessageContent event => some (.reasoning, event.messageId)
  | .reasoningMessageChunk event => event.messageId.map fun id => (.reasoning, id)
  | .toolCallEnd event => some (.toolCall, event.toolCallId)
  | .activitySnapshot event => some (.activity, event.messageId)
  | .activityDelta event => some (.activity, event.messageId)
  | .reasoningEncryptedValue event => some (state.encryptedValueBucket event, event.entityId)
  | _ => none

/-- The owner on record for an entity; none is the parent agent. -/
def ownerOf (state : Attribution) (entity : Bucket × String) : Owner :=
  ((state.recorded.bucket entity.1).get? entity.2).join

/-- A result brings the owner of the message it mints, and a chunk without an
id continues the message of its lane. -/
def broughtOwner (inferred : Option String) : Event -> Option Owner
  | .toolCallResult event => some event.subagentRunId.toOption
  | .reasoningMessageChunk _ => some inferred
  | _ => none

/-- The owner of what an event stands for, once the event is checked. -/
def ownerAtArrival (checked : Attribution × Option String) (event : Event) : Option Owner :=
  ((checked.1.entityOf event).map checked.1.ownerOf).or (broughtOwner checked.2 event)

end Attribution

/-- The events whose updates are about a message or a call. -/
def standsForEntity : Event -> Bool
  | .textMessageContent _ | .reasoningMessageContent _ | .reasoningMessageChunk _ | .toolCallEnd _
  | .toolCallResult _ | .activitySnapshot _ | .activityDelta _ | .reasoningEncryptedValue _ => true
  | .textMessageChunk event => event.messageId.isSome
  | _ => false

/-- An accepted event about an entity, with the owner of the entity. -/
def arrival (state : ConverterState) (event : Event) : List (Event × Owner) :=
  match state.gate event with
  | .error _ => []
  | .ok gated =>
    match gated.attribution.check event with
    | .error _ => []
    | .ok checked => (Attribution.ownerAtArrival checked event).toList.map fun owner => (event, owner)

/-- The events about entities a converter accepts, each with the owner at its arrival. -/
def arrivals (deserialize : String -> Except Thrown (Option Arguments)) :
    ConverterState -> List Event -> List (Event × Owner)
  | _, [] => []
  | state, event :: rest =>
    match asChatResponseUpdates deserialize state event with
    | .error _ => []
    | .ok (next, _) => arrival state event ++ arrivals deserialize next rest

/-- The owner an update is stamped with, where it is about a message or a call. -/
def stampOf (update : ChatResponseUpdate) : Option (Event × Owner) :=
  if standsForEntity update.rawRepresentation then some (update.rawRepresentation, update.subagentRunId) else none

/-- The updates that stand for entities, each with the owner it carries. -/
def stamps (updates : List ChatResponseUpdate) : List (Event × Owner) :=
  updates.filterMap stampOf

/-- The updates that stand for entities are yielded in the order their events
arrive, each with the owner at that time. -/
def FrozenAtArrival (deserialize : String -> Except Thrown (Option Arguments)) (events : List Event)
    (updates : List ChatResponseUpdate) : Prop :=
  stamps updates <+: arrivals deserialize {} events

/-! ## When owners stay -/

/-- The owner the resolution map has for a message id.  A text chunk is not looked up. -/
def Attribution.sharedOwner (state : Attribution) (event : Event) (id : String) : Owner :=
  match event with
  | .textMessageChunk _ => none
  | _ => (state.owners.get? (.message id)).join

/-- No entity of another kind has left another owner under the id of the
event's entity.  A call on record is looked up under its own id. -/
def Attribution.Undisputed (state : Attribution) (event : Event) : Prop :=
  ∀ entity ∈ state.entityOf event, state.entries event = [] ->
    (entity.1 = .toolCall ∧ state.recorded.toolCall.has entity.2 = true) ∨
      state.sharedOwner event entity.2 = state.ownerOf entity

/-- The event puts no other owner on record for a held call or a held result. -/
def ConverterState.Steady (state : ConverterState) (event : Event) : Prop :=
  ∀ held ∈ state.toolCallBuilder.buffer, held.ownerResolved = false ->
    ∀ key ∈ (Attribution.attributedEntityKeys held.rawRepresentation).head?,
      ∀ owner ∈ (Attribution.resolutions (state.attribution.entries event)).get? key,
        state.attribution.owners.get? key = some owner

structure ConverterState.Settled (state : ConverterState) (event : Event) : Prop where
  undisputed : state.attribution.Undisputed event
  steady : state.Steady event

instance (state : Attribution) (event : Event) : Decidable (state.Undisputed event) := by
  unfold Attribution.Undisputed
  infer_instance

instance (state : ConverterState) (event : Event) : Decidable (state.Steady event) := by
  unfold ConverterState.Steady
  infer_instance

instance (state : ConverterState) (event : Event) : Decidable (state.Settled event) :=
  decidable_of_iff (state.attribution.Undisputed event ∧ state.Steady event)
    ⟨fun both => ⟨both.1, both.2⟩, fun settled => ⟨settled.undisputed, settled.steady⟩⟩

/-! ## Stamps of held updates -/

theorem stamps_append (first second : List ChatResponseUpdate) :
    stamps (first ++ second) = stamps first ++ stamps second :=
  List.filterMap_append

/-- The stamps the updates would get now. -/
def settledStamps (owners : OrderedMap EntityKey Owner) (updates : List ChatResponseUpdate) : List (Event × Owner) :=
  stamps (updates.map (Attribution.attributed owners))

variable (owners : OrderedMap EntityKey Owner)

theorem settledStamps_append (first second : List ChatResponseUpdate) :
    settledStamps owners (first ++ second) = settledStamps owners first ++ settledStamps owners second := by
  unfold settledStamps
  rw [List.map_append, stamps_append]

theorem settledStamps_singleton (update : ChatResponseUpdate) :
    settledStamps owners [update] = (stampOf (Attribution.attributed owners update)).toList := by
  unfold settledStamps stamps
  rw [List.map_singleton, List.filterMap_cons, List.filterMap_nil]
  cases stampOf (Attribution.attributed owners update) <;> rfl

theorem rawRepresentation_attributed (update : ChatResponseUpdate) :
    (Attribution.attributed owners update).rawRepresentation = update.rawRepresentation := by
  unfold Attribution.attributed
  split <;> rfl

theorem settledStamps_of_others {updates : List ChatResponseUpdate}
    (others : ∀ update ∈ updates, standsForEntity update.rawRepresentation = false) :
    settledStamps owners updates = [] := by
  unfold settledStamps stamps
  rw [List.filterMap_map, List.filterMap_eq_nil_iff]
  intro update member
  unfold stampOf
  rw [Function.comp_apply, rawRepresentation_attributed, others update member]
  rfl

/-- The owner an update that is not stamped would get now. -/
def settledOwner (owners : OrderedMap EntityKey Owner) (update : ChatResponseUpdate) : Owner :=
  (Attribution.resolveOwner update owners).or update.subagentRunId

theorem stampOf_fresh {update : ChatResponseUpdate}
    (fresh : update.ownerResolved = false) :
    stampOf (Attribution.attributed owners update) =
      if standsForEntity update.rawRepresentation then some (update.rawRepresentation, settledOwner owners update)
      else none := by
  unfold Attribution.attributed
  rw [if_neg (Bool.eq_false_iff.mp fresh)]
  rfl

/-- To stamp an update is to give it the stamp it would get now. -/
theorem stampOf_stampOwner {update : ChatResponseUpdate}
    (fresh : update.ownerResolved = false) :
    stampOf (Attribution.attributed owners (Attribution.stampOwner update owners)) =
      stampOf (Attribution.attributed owners update) := by
  rw [stampOf_fresh owners fresh]
  rfl

/-- A held update is stamped and no call, or its own key is on record. -/
inductive Held (owners : OrderedMap EntityKey Owner) (update : ChatResponseUpdate) : Prop where
  | stamped (resolved : update.ownerResolved = true) (other : ∀ call, update.contents ≠ [.functionCall call])
  | waiting (fresh : update.ownerResolved = false) (bare : update.subagentRunId = none) (key : EntityKey)
      (first : (Attribution.attributedEntityKeys update.rawRepresentation).head? = some key)
      (known : owners.has key = true)

theorem settledOwner_waiting {owners : OrderedMap EntityKey Owner} {update : ChatResponseUpdate}
    (bare : update.subagentRunId = none) {key : EntityKey}
    (first : (Attribution.attributedEntityKeys update.rawRepresentation).head? = some key)
    (known : owners.has key = true) : settledOwner owners update = (owners.get? key).join := by
  rcases (OrderedMap.has_eq_true_iff owners key).mp known with ⟨owner, found⟩
  rcases List.head?_eq_some_iff.mp first with ⟨rest, keys⟩
  unfold settledOwner Attribution.resolveOwner
  dsimp only
  rw [keys, List.cons_append, List.cons_append, List.findSome?_cons, found, bare, Option.or_none]

theorem stampOf_waiting {owners : OrderedMap EntityKey Owner} {update : ChatResponseUpdate}
    (fresh : update.ownerResolved = false) (bare : update.subagentRunId = none) {key : EntityKey}
    (first : (Attribution.attributedEntityKeys update.rawRepresentation).head? = some key)
    (known : owners.has key = true) :
    stampOf (Attribution.attributed owners update) =
      if standsForEntity update.rawRepresentation then some (update.rawRepresentation, (owners.get? key).join)
      else none := by
  rw [stampOf_fresh owners fresh, settledOwner_waiting bare first known]

/-- The stamp of a held update stays if what is on record under its key does. -/
theorem Held.stays {owners later : OrderedMap EntityKey Owner} {update : ChatResponseUpdate} (held : Held owners update)
    (steady : update.ownerResolved = false -> ∀ key,
      (Attribution.attributedEntityKeys update.rawRepresentation).head? = some key -> owners.has key = true ->
      later.get? key = owners.get? key) :
    stampOf (Attribution.attributed later update) = stampOf (Attribution.attributed owners update) ∧
      Held later update := by
  cases held with
  | stamped resolved other =>
    refine ⟨?_, .stamped resolved other⟩
    unfold Attribution.attributed
    rw [if_pos resolved, if_pos resolved]
  | waiting fresh bare key first known =>
    have same := steady fresh key first known
    have later' : later.has key = true := by
      rw [OrderedMap.has, same]
      exact known
    refine ⟨?_, .waiting fresh bare key first later'⟩
    rw [stampOf_waiting fresh bare first later', stampOf_waiting fresh bare first known, same]

/-- The approval asked for a held call gets the stamp of the call. -/
theorem stampOf_approvalOf {owners : OrderedMap EntityKey Owner} (interrupts : OrderedMap String Interrupt)
    {update : ChatResponseUpdate} (held : Held owners update) :
    stampOf (Attribution.attributed owners (ToolCallBuilder.approvalOf interrupts update)) =
      stampOf (Attribution.attributed owners update) := by
  unfold ToolCallBuilder.approvalOf
  split
  next call contents =>
    split
    next interrupt found =>
      cases held with
      | stamped resolved other => exact absurd contents (other call)
      | waiting fresh bare key first known =>
        rw [stampOf_waiting fresh bare first known]
        exact stampOf_waiting rfl rfl first known
    next => rfl
  next => rfl

/-! ## What the switch does to stamps -/

/-- The stamps of what was held, followed by what arrived, are the stamps of
what is yielded and then of what is held. -/
structure Advances (owners : OrderedMap EntityKey Owner) (arrived : List (Event × Owner))
    (before after : ToolCallBuilder) (updates : List ChatResponseUpdate) : Prop where
  order : settledStamps owners before.buffer ++ arrived = settledStamps owners updates ++
    settledStamps owners after.buffer
  held : ∀ update ∈ after.buffer, Held owners update

section Advances

variable {owners : OrderedMap EntityKey Owner} {before : ToolCallBuilder}

theorem held_concat {update other : ChatResponseUpdate} (held : ∀ update ∈ before.buffer, Held owners update)
    (newest : Held owners update) (member : other ∈ before.buffer ++ [update]) : Held owners other := by
  rcases List.mem_append.mp member with earlier | last
  · exact held other earlier
  · rw [List.mem_singleton.mp last]
    exact newest

/-- Updates that stand for no entity may overtake what is held. -/
theorem Advances.others {after : ToolCallBuilder} {updates : List ChatResponseUpdate}
    (held : ∀ update ∈ before.buffer, Held owners update) (same : after.buffer = before.buffer)
    (others : ∀ update ∈ updates, standsForEntity update.rawRepresentation = false) :
    Advances owners [] before after updates where
  order := by
    rw [List.append_nil, same, settledStamps_of_others owners others, List.nil_append]
  held := by
    rw [same]
    exact held

/-- What changes nothing of the queue and yields nothing. -/
theorem Advances.silent {after : ToolCallBuilder} (held : ∀ update ∈ before.buffer, Held owners update)
    (same : after.buffer = before.buffer) : Advances owners [] before after [] :=
  .others held same fun _ member => absurd member List.not_mem_nil

variable {arrived : List (Event × Owner)}

/-- An update joins the queue. -/
theorem Advances.joins {after : ToolCallBuilder} {update : ChatResponseUpdate}
    (held : ∀ update ∈ before.buffer, Held owners update) (joined : after.buffer = before.buffer ++ [update])
    (newest : Held owners update) (stamp : (stampOf (Attribution.attributed owners update)).toList = arrived) :
    Advances owners arrived before after [] where
  order := by
    rw [joined, settledStamps_append, settledStamps_singleton, stamp]
    rfl
  held := by
    rw [joined]
    exact fun other member => held_concat held newest member

/-- An update is yielded at once, or is held with its stamp. -/
theorem Advances.emit {state : ConverterState} (sound : state.toolCallBuilder.Sound)
    (held : ∀ update ∈ state.toolCallBuilder.buffer, Held state.attribution.owners update)
    {update : ChatResponseUpdate} (fresh : update.ownerResolved = false) (other : heldCall update = none)
    (stamp : (stampOf (Attribution.attributed state.attribution.owners update)).toList = arrived) :
    Advances state.attribution.owners arrived state.toolCallBuilder (state.emit update).1.toolCallBuilder
      (state.emit update).2 := by
  unfold ConverterState.emit
  split
  · refine Advances.joins held rfl (.stamped rfl fun call contents => ?_) ?_
    · change update.contents = _ at contents
      rw [heldCall, contents] at other
      cases other
    · rw [stampOf_stampOwner _ fresh]
      exact stamp
  next passing =>
    have none := (ToolCallBuilder.isBuffering_eq_false_iff _).mp (Bool.eq_false_iff.mpr passing)
    have empty := sound.idle.mpr none
    constructor
    · rw [empty, settledStamps_singleton, stamp]
      exact (List.append_nil _).symm
    · exact held

/-- A result joins the queue, and frees it when no other call waits. -/
theorem Advances.addResult {toolCallId : String} {update : ChatResponseUpdate}
    (held : ∀ update ∈ before.buffer, Held owners update) (newest : Held owners update)
    (stamp : (stampOf (Attribution.attributed owners update)).toList = arrived) :
    Advances owners arrived before (before.addResult toolCallId update).1 (before.addResult toolCallId update).2 := by
  unfold ToolCallBuilder.addResult
  dsimp only
  split
  · constructor
    · dsimp only
      rw [settledStamps_append, settledStamps_singleton, stamp]
      exact (List.append_nil _).symm
    · exact fun other member => absurd member List.not_mem_nil
  · exact Advances.joins held rfl newest stamp

/-- A flush yields every held update with its stamp, then what stands for the run. -/
theorem Advances.flush {after : ToolCallBuilder} {flushed own : List ChatResponseUpdate} (emptied : after.buffer = [])
    (stamped : settledStamps owners flushed = settledStamps owners before.buffer)
    (others : ∀ update ∈ own, standsForEntity update.rawRepresentation = false) :
    Advances owners [] before after (flushed ++ own) where
  order := by
    rw [settledStamps_append, stamped, settledStamps_of_others owners others, emptied]
    exact (List.append_nil _).symm
  held := by
    rw [emptied]
    exact fun other member => absurd member List.not_mem_nil

theorem settledStamps_flushWithInterrupts (held : ∀ update ∈ before.buffer, Held owners update)
    (interrupts : List Interrupt) :
    (before.flushWithInterrupts interrupts).1.buffer = [] ∧
      settledStamps owners (before.flushWithInterrupts interrupts).2 = settledStamps owners before.buffer := by
  unfold ToolCallBuilder.flushWithInterrupts
  split
  next empty =>
    have emptied := List.isEmpty_iff.mp empty
    refine ⟨emptied, ?_⟩
    rw [emptied]
  next =>
    refine ⟨rfl, ?_⟩
    unfold settledStamps stamps
    rw [List.filterMap_map, List.filterMap_map, List.filterMap_map]
    apply List.filterMap_congr
    intro update member
    exact stampOf_approvalOf _ (held update member)

theorem settledStamps_flushAsToolCalls (owners : OrderedMap EntityKey Owner) (before : ToolCallBuilder) :
    before.flushAsToolCalls.1.buffer = [] ∧
      settledStamps owners before.flushAsToolCalls.2 = settledStamps owners before.buffer := by
  unfold ToolCallBuilder.flushAsToolCalls
  split
  next empty =>
    have emptied := List.isEmpty_iff.mp empty
    refine ⟨emptied, ?_⟩
    rw [emptied]
  next => exact ⟨rfl, rfl⟩

theorem standsForEntity_runFinished (state : ConverterState) (event : RunFinishedEvent) (interrupts : List Interrupt)
    {update : ChatResponseUpdate} (member : update ∈ state.interruptUpdates event interrupts) :
    standsForEntity update.rawRepresentation = false := by
  unfold ConverterState.interruptUpdates at member
  dsimp only at member
  split at member
  · cases member
  · rw [List.mem_singleton.mp member]
    rfl

theorem Advances.runFinished {state : ConverterState} {event : RunFinishedEvent}
    {result : ConverterState × List ChatResponseUpdate}
    (held : ∀ update ∈ state.toolCallBuilder.buffer, Held owners update)
    (done : state.runFinishedCase event = .ok result) :
    Advances owners [] state.toolCallBuilder result.1.toolCallBuilder result.2 := by
  have usage : ∀ (state : ConverterState) update, update ∈ state.usageUpdates (.runFinished event) event.usage ->
      standsForEntity update.rawRepresentation = false := by
    intro state update member
    rw [(mem_usageUpdates member).1]
    rfl
  rcases runFinishedCase_ok done with ⟨_, _, rfl, _, ⟨interrupts, _, rfl, rfl⟩ | ⟨_, rfl, rfl⟩⟩
  · rcases settledStamps_flushWithInterrupts held interrupts with ⟨emptied, stamped⟩
    refine .flush emptied stamped ?_
    intro update member
    rcases List.mem_append.mp member with asked | counted
    · exact standsForEntity_runFinished _ event interrupts asked
    · exact usage _ update counted
  · rcases settledStamps_flushAsToolCalls owners state.toolCallBuilder with ⟨emptied, stamped⟩
    refine .flush emptied stamped ?_
    intro update member
    rcases List.mem_append.mp member with terminal | counted
    · rw [List.mem_singleton.mp terminal]
      rfl
    · exact usage _ update counted

end Advances

end DotnetClient
end AgUi
