import AgUi.DotnetClient.Stamps

namespace AgUi
namespace DotnetClient

open Library Protocol Verify Building

/-!
# The stamp an event arrives with

What the switch does with a checked event: the update that stands for it gets
the owner of its entity, at once or when it is let go, as long as the
resolution map has that owner for the entity.
-/

/-! ## Calls the builder knows -/

/-- The calls the builder knows are on record. -/
def Named (attribution : Attribution) (builder : ToolCallBuilder) : Prop :=
  ∀ id, builder.activeToolCalls.has id = true ∨ builder.mintedMessageIds.has id = true ->
    attribution.recorded.toolCall.has id = true

section Named

variable {deserialize : String -> Except Thrown (Option Arguments)} {state : ConverterState}

theorem named_of_fewer {attribution : Attribution} {before after : ToolCallBuilder} (named : Named attribution before)
    (active : ∀ id, after.activeToolCalls.has id = true -> before.activeToolCalls.has id = true)
    (minted : after.mintedMessageIds = before.mintedMessageIds) : Named attribution after := by
  intro id known
  rcases known with started | made
  · exact named id (Or.inl (active id started))
  · exact named id (Or.inr (minted ▸ made))

theorem named_emit (named : Named state.attribution state.toolCallBuilder) (update : ChatResponseUpdate) :
    Named (state.emit update).1.attribution (state.emit update).1.toolCallBuilder := by
  unfold ConverterState.emit
  split
  · exact named
  · exact named

theorem named_startToolCall {attribution : Attribution} {before after : ToolCallBuilder} {event : ToolCallStartEvent}
    (named : Named attribution before) (recorded : attribution.recorded.toolCall.has event.toolCallId = true)
    (done : before.startToolCall event = .ok after) : Named attribution after := by
  unfold ToolCallBuilder.startToolCall at done
  split at done
  · cases done
  · cases done
    intro id known
    dsimp only at known
    rw [OrderedMap.has_set, OrderedMap.has_set, Bool.or_eq_true, Bool.or_eq_true, decide_eq_true_eq] at known
    rcases known with (same | started) | (same | made)
    · exact same ▸ recorded
    · exact named id (Or.inl started)
    · exact same ▸ recorded
    · exact named id (Or.inr made)

theorem named_appendArgs {attribution : Attribution} {before after : ToolCallBuilder} {event : ToolCallArgsEvent}
    (named : Named attribution before) (done : before.appendArgs event = .ok after) : Named attribution after := by
  unfold ToolCallBuilder.appendArgs at done
  split at done
  · cases done
  next call found =>
    cases done
    refine named_of_fewer named ?_ rfl
    intro id known
    dsimp only at known
    rw [OrderedMap.has_set, Bool.or_eq_true, decide_eq_true_eq] at known
    rcases known with same | started
    · rw [same]
      exact (OrderedMap.has_eq_true_iff _ _).mpr ⟨call, found⟩
    · exact started

theorem named_endToolCall {attribution : Attribution} {before after : ToolCallBuilder} {event : ToolCallEndEvent}
    (named : Named attribution before) (done : before.endToolCall deserialize event = .ok after) :
    Named attribution after := by
  unfold ToolCallBuilder.endToolCall at done
  split at done
  · cases done
  · split at done
    · cases done
    · cases done
      refine named_of_fewer named ?_ rfl
      intro id known
      dsimp only at known
      rw [OrderedMap.has_erase, Bool.and_eq_true] at known
      exact known.2

section

variable (named : Named state.attribution state.toolCallBuilder)

include named

theorem named_result (event : ToolCallResultEvent) :
    Named (state.toolCallResultCase event).1.attribution (state.toolCallResultCase event).1.toolCallBuilder := by
  unfold ConverterState.toolCallResultCase
  dsimp only
  split
  · unfold ToolCallBuilder.addResult
    dsimp only
    split
    · exact named
    · exact named
  · exact named

theorem named_runFinished {event : RunFinishedEvent}
    {result : ConverterState × List ChatResponseUpdate} (done : state.runFinishedCase event = .ok result) :
    Named result.1.attribution result.1.toolCallBuilder := by
  rcases runFinishedCase_ok done with ⟨_, _, rfl, ⟨_, flushed⟩, _⟩
  rw [flushed]
  exact named

/-- The switch keeps the calls the builder knows on record, and the record as it is. -/
theorem named_processEvent {inferred : Option String} {event : Event}
    {result : ConverterState × List ChatResponseUpdate} (recorded : ∀ start, event = .toolCallStart start ->
      state.attribution.recorded.toolCall.has start.toolCallId = true)
    (done : state.processEvent deserialize inferred event = .ok result) :
    Named result.1.attribution result.1.toolCallBuilder := by
  cases event with
  | runStarted event | runError event =>
    rw [← Except.ok.inj done]
    exact named
  | runFinished event => exact named_runFinished named done
  | textMessageStart event | textMessageEnd event =>
    rcases outcome_bind_ok_iff.mp done with ⟨builder, -, last⟩
    rw [← Except.ok.inj last]
    exact named
  | textMessageContent event =>
    rcases outcome_bind_ok_iff.mp done with ⟨update, -, last⟩
    rw [← Except.ok.inj last]
    exact named_emit named update
  | toolCallStart event =>
    rcases outcome_bind_ok_iff.mp done with ⟨builder, started, last⟩
    rw [← Except.ok.inj last]
    exact named_startToolCall named (recorded event rfl) started
  | toolCallArgs event =>
    rcases outcome_bind_ok_iff.mp done with ⟨builder, appended, last⟩
    rw [← Except.ok.inj last]
    exact named_appendArgs named appended
  | toolCallEnd event =>
    rcases outcome_bind_ok_iff.mp done with ⟨builder, ended, last⟩
    rw [← Except.ok.inj last]
    exact named_endToolCall named ended
  | toolCallResult event =>
    rw [← Except.ok.inj done]
    exact named_result named event
  | stepStarted event =>
    rcases stepStarted_emits done with ⟨steps, rfl⟩
    have steady : Named ({ state with activeSteps := steps } : ConverterState).attribution
        ({ state with activeSteps := steps } : ConverterState).toolCallBuilder := named
    exact named_emit steady _
  | stepFinished event =>
    rcases stepFinished_emits done with ⟨steps, rfl⟩
    have steady : Named ({ state with activeSteps := steps } : ConverterState).attribution
        ({ state with activeSteps := steps } : ConverterState).toolCallBuilder := named
    exact named_emit steady _
  | _ =>
    rw [← Except.ok.inj done]
    exact named_emit named _

end

end Named

theorem attribution_processEvent {deserialize : String -> Except Thrown (Option Arguments)} {state : ConverterState}
    {inferred : Option String} {event : Event} {result : ConverterState × List ChatResponseUpdate}
    (done : state.processEvent deserialize inferred event = .ok result) :
    result.1.attribution = state.attribution := by
  cases processes_processEvent done with
  | runStarted event | runError event | builds inside texts buffer pending none stays knows | ends done => rfl
  | runFinished done =>
    rcases runFinishedCase_frame done with ⟨calls, same⟩
    rw [same]
  | result event =>
    rcases toolCallResultCase_frame state event with ⟨calls, same⟩
    rw [same]
  | emits inside steps raw own stays =>
    rcases emit_frame { state with activeSteps := steps } _ with ⟨calls, same⟩
    rw [same]

/-! ## The owner an update gets -/

theorem settledOwner_message {owners : OrderedMap EntityKey Owner} {update : ChatResponseUpdate} {id : String}
    (keys : Attribution.attributedEntityKeys update.rawRepresentation = [.message id])
    (again : update.messageId = none ∨ update.messageId = some id)
    (silent : update.contents.flatMap Attribution.callIdOf = [])
    (bare : update.subagentRunId = none) : settledOwner owners update = (owners.get? (.message id)).join := by
  unfold settledOwner Attribution.resolveOwner
  dsimp only
  rw [keys, silent, bare, Option.or_none, List.append_nil]
  rcases again with none | same
  · rw [none]
    change (List.findSome? owners.get? [EntityKey.message id]).join = _
    rw [List.findSome?_cons]
    cases owners.get? (.message id) <;> rfl
  · rw [same]
    change (List.findSome? owners.get? [EntityKey.message id, EntityKey.message id]).join = _
    rw [List.findSome?_cons, List.findSome?_cons]
    cases owners.get? (.message id) <;> rfl

/-- A value about a call is looked up by the call, and then by the message its update joins. -/
theorem settledOwner_call {owners : OrderedMap EntityKey Owner} {update : ChatResponseUpdate} {id message : String}
    (keys : Attribution.attributedEntityKeys update.rawRepresentation = [.call id])
    (joins : update.messageId = some message) (silent : update.contents.flatMap Attribution.callIdOf = [])
    (bare : update.subagentRunId = none) :
    settledOwner owners update = ((owners.get? (.call id)).or (owners.get? (.message message))).join := by
  unfold settledOwner Attribution.resolveOwner
  dsimp only
  rw [keys, silent, bare, Option.or_none, List.append_nil, joins]
  change (List.findSome? owners.get? [EntityKey.call id, EntityKey.message message]).join = _
  rw [List.findSome?_cons, List.findSome?_cons]
  cases owners.get? (.call id) with
  | some owner => rfl
  | none => cases owners.get? (.message message) <;> rfl

/-- What is known of the attribution once an event is checked. -/
structure Checked (checked : Attribution × Option String) (event : Event) : Prop where
  agree : checked.1.CallsAgree
  shared : ∀ bucket id, checked.1.entityOf event = some (bucket, id) ->
    (bucket = .toolCall ∧ checked.1.recorded.toolCall.has id = true) ∨
      checked.1.sharedOwner event id = checked.1.ownerOf (bucket, id)
  whole : (∀ chunk, event ≠ .reasoningMessageChunk chunk) -> checked.2 = none
  lane : ∀ chunk id, event = .reasoningMessageChunk chunk -> chunk.messageId = some id -> checked.2 = none
  result : ∀ result, event = .toolCallResult result ->
    checked.1.owners.get? (.message result.messageId) = some result.subagentRunId.toOption

def arrivedAs (checked : Attribution × Option String) (event : Event) : List (Event × Owner) :=
  (Attribution.ownerAtArrival checked event).toList.map fun owner => (event, owner)

section Arrivals

variable {attribution : Attribution} {inferred : Option String} {event : Event} {update : ChatResponseUpdate}
  (raw : update.rawRepresentation = event)

include raw

/-- An update with the owner of its event has the stamp that arrived. -/
theorem stamp_arrived (owner : Owner) (fresh : update.ownerResolved = false) (stands : standsForEntity event = true)
    (arrived : Attribution.ownerAtArrival (attribution, inferred) event = some owner)
    (settled : settledOwner attribution.owners update = owner) :
    (stampOf (Attribution.attributed attribution.owners update)).toList = arrivedAs (attribution, inferred) event := by
  rw [stampOf_fresh _ fresh, raw, if_pos stands, settled, arrivedAs, arrived]
  rfl

/-- An update that stands for no entity has no stamp. -/
theorem stamp_others (others : standsForEntity event = false)
    (none : Attribution.ownerAtArrival (attribution, inferred) event = none) :
    (stampOf (Attribution.attributed attribution.owners update)).toList = arrivedAs (attribution, inferred) event := by
  unfold stampOf
  rw [rawRepresentation_attributed, raw, others, arrivedAs, none]
  rfl

/-- An update about a message, an activity or a stream of reasoning. -/
theorem stamp_message (bucket : Bucket) (id : String) (known : Checked (attribution, inferred) event)
    (entity : attribution.entityOf event = some (bucket, id)) (notCall : bucket ≠ .toolCall)
    (looked : attribution.sharedOwner event id = (attribution.owners.get? (.message id)).join)
    (fresh : update.ownerResolved = false) (bare : update.subagentRunId = none) (stands : standsForEntity event = true)
    (keys : Attribution.attributedEntityKeys event = [.message id])
    (again : update.messageId = none ∨ update.messageId = some id)
    (silent : update.contents.flatMap Attribution.callIdOf = []) :
    (stampOf (Attribution.attributed attribution.owners update)).toList = arrivedAs (attribution, inferred) event := by
  rw [← raw] at keys
  refine stamp_arrived raw _ fresh stands ?_ (settledOwner_message keys again silent bare)
  rcases known.shared bucket id entity with ⟨call, -⟩ | shared
  · exact absurd call notCall
  · unfold Attribution.ownerAtArrival
    rw [entity, ← looked, shared]
    rfl

end Arrivals

section Switch

variable {deserialize : String -> Except Thrown (Option Arguments)} {state : ConverterState} {inferred : Option String}

theorem encryptedValueBucket_ne {attribution : Attribution} {event : ReasoningEncryptedValueEvent}
    (subtype : event.subtype = .message) : attribution.encryptedValueBucket event ≠ .toolCall := by
  unfold Attribution.encryptedValueBucket
  rw [subtype]
  dsimp only
  split <;> exact fun impossible => Bucket.noConfusion impossible

theorem attributedEntityKeys_encryptedValue (event : ReasoningEncryptedValueEvent) :
    Attribution.attributedEntityKeys (.reasoningEncryptedValue event) =
      match event.subtype with
      | .toolCall => [.call event.entityId]
      | .message => [.message event.entityId] := rfl

/-- An update with an encrypted value, about a message or about a call. -/
theorem stamp_encryptedValue {event : ReasoningEncryptedValueEvent} {update : ChatResponseUpdate}
    (known : Checked (state.attribution, inferred) (.reasoningEncryptedValue event))
    (named : Named state.attribution state.toolCallBuilder)
    (raw : update.rawRepresentation = .reasoningEncryptedValue event)
    (fresh : update.ownerResolved = false) (bare : update.subagentRunId = none)
    (joins : update.messageId = some (match event.subtype with
      | .toolCall => (state.toolCallBuilder.mintedMessageIdFor event.entityId).getD event.entityId
      | .message => event.entityId))
    (silent : update.contents.flatMap Attribution.callIdOf = []) :
    (stampOf (Attribution.attributed state.attribution.owners update)).toList =
      arrivedAs (state.attribution, inferred) (.reasoningEncryptedValue event) := by
  cases subtype : event.subtype with
  | message =>
    rw [subtype] at joins
    refine stamp_message raw _ event.entityId known rfl (encryptedValueBucket_ne subtype) rfl fresh bare rfl ?_
      (Or.inr joins) silent
    rw [attributedEntityKeys_encryptedValue, subtype]
  | toolCall =>
    rw [subtype] at joins
    have keys : Attribution.attributedEntityKeys update.rawRepresentation = [.call event.entityId] := by
      rw [raw, attributedEntityKeys_encryptedValue, subtype]
    have bucket : state.attribution.encryptedValueBucket event = .toolCall := by
      unfold Attribution.encryptedValueBucket
      rw [subtype]
    refine stamp_arrived raw _ fresh rfl rfl ?_
    rw [settledOwner_call keys joins silent bare, known.agree event.entityId]
    change _ =
      ((state.attribution.recorded.bucket (state.attribution.encryptedValueBucket event)).get? event.entityId).join
    rw [bucket]
    change _ = (state.attribution.recorded.toolCall.get? event.entityId).join
    cases found : state.attribution.recorded.toolCall.get? event.entityId with
    | some owner => rfl
    | none =>
      have absent : ¬ state.attribution.recorded.toolCall.has event.entityId = true := by
        rw [Bool.not_eq_true]
        exact (OrderedMap.has_eq_false_iff _ _).mpr found
      have unminted : state.toolCallBuilder.mintedMessageIdFor event.entityId = none := by
        cases minted : state.toolCallBuilder.mintedMessageIds.get? event.entityId with
        | none => exact minted
        | some message =>
          exact absurd (named event.entityId (Or.inr ((OrderedMap.has_eq_true_iff _ _).mpr ⟨message, minted⟩))) absent
      rcases known.shared _ event.entityId rfl with ⟨-, present⟩ | shared
      · exact absurd present absent
      · unfold Attribution.ownerOf at shared
        rw [bucket] at shared
        dsimp only [Owners.bucket] at shared
        rw [found] at shared
        rw [unminted]
        exact shared

/-- A result is looked up by the message it mints. -/
theorem stamp_result {event : ToolCallResultEvent} {update : ChatResponseUpdate}
    (known : Checked (state.attribution, inferred) (.toolCallResult event))
    (raw : update.rawRepresentation = .toolCallResult event) (fresh : update.ownerResolved = false)
    (bare : update.subagentRunId = none) :
    Held state.attribution.owners update ∧
      (stampOf (Attribution.attributed state.attribution.owners update)).toList =
        arrivedAs (state.attribution, inferred) (.toolCallResult event) := by
  have minted := known.result event rfl
  have present : state.attribution.owners.has (.message event.messageId) = true :=
    (OrderedMap.has_eq_true_iff _ _).mpr ⟨_, minted⟩
  have first : (Attribution.attributedEntityKeys update.rawRepresentation).head? = some (.message event.messageId) := by
    rw [raw]
    rfl
  refine ⟨.waiting fresh bare _ first present, ?_⟩
  refine stamp_arrived raw _ fresh rfl rfl ?_
  rw [settledOwner_waiting bare first present, minted]
  rfl

/-- A chunk that names its message is looked up, another continues its lane. -/
theorem stamp_reasoningChunk {event : ReasoningMessageChunkEvent} {update : ChatResponseUpdate}
    (known : Checked (state.attribution, inferred) (.reasoningMessageChunk event))
    (raw : update.rawRepresentation = .reasoningMessageChunk event) (fresh : update.ownerResolved = false)
    (lane : update.subagentRunId = inferred) (nameless : update.messageId = none) (empty : update.contents = []) :
    (stampOf (Attribution.attributed state.attribution.owners update)).toList =
      arrivedAs (state.attribution, inferred) (.reasoningMessageChunk event) := by
  have keys : Attribution.attributedEntityKeys (.reasoningMessageChunk event) =
      Attribution.messageEntity event.messageId := rfl
  have entity : state.attribution.entityOf (.reasoningMessageChunk event) =
      event.messageId.map fun id => (Bucket.reasoning, id) := rfl
  cases id : event.messageId with
  | some id' =>
    rw [id] at keys entity
    have bare := lane.trans (known.lane event id' rfl id)
    refine stamp_message raw .reasoning id' known entity (by decide) rfl fresh bare
      rfl keys (Or.inl nameless) ?_
    rw [empty]
    rfl
  | none =>
    rw [id] at keys entity
    refine stamp_arrived raw inferred fresh rfl ?_ ?_
    · unfold Attribution.ownerAtArrival
      rw [entity]
      rfl
    · unfold settledOwner Attribution.resolveOwner
      rw [raw, keys, nameless, empty, lane]
      rfl

/-- A text chunk is not looked up. -/
theorem stamp_textChunk {event : TextMessageChunkEvent} {update : ChatResponseUpdate}
    (known : Checked (state.attribution, inferred) (.textMessageChunk event))
    (raw : update.rawRepresentation = .textMessageChunk event) (fresh : update.ownerResolved = false)
    (bare : update.subagentRunId = none) (nameless : update.messageId = none) (empty : update.contents = []) :
    (stampOf (Attribution.attributed state.attribution.owners update)).toList =
      arrivedAs (state.attribution, inferred) (.textMessageChunk event) := by
  have entity : state.attribution.entityOf (.textMessageChunk event) =
      event.messageId.map fun id => (Bucket.message, id) := rfl
  have stands : standsForEntity (.textMessageChunk event) = event.messageId.isSome := rfl
  cases id : event.messageId with
  | some id' =>
    rw [id] at entity stands
    refine stamp_arrived raw none fresh stands ?_ ?_
    · rcases known.shared .message id' entity with ⟨impossible, -⟩ | shared
      · cases impossible
      · unfold Attribution.ownerAtArrival
        rw [entity]
        exact congrArg some shared.symm
    · unfold settledOwner Attribution.resolveOwner
      rw [raw, nameless, empty, bare]
      rfl
  | none =>
    rw [id] at entity stands
    refine stamp_others raw stands ?_
    unfold Attribution.ownerAtArrival
    rw [entity]
    rfl

theorem advances_processEvent {event : Event} {result : ConverterState × List ChatResponseUpdate}
    (sound : state.toolCallBuilder.Sound)
    (held : ∀ update ∈ state.toolCallBuilder.buffer, Held state.attribution.owners update)
    (named : Named state.attribution state.toolCallBuilder) (known : Checked (state.attribution, inferred) event)
    (done : state.processEvent deserialize inferred event = .ok result) :
    Advances state.attribution.owners (arrivedAs (state.attribution, inferred) event) state.toolCallBuilder
      result.1.toolCallBuilder result.2 := by
  cases event with
  | runStarted event =>
    rw [← Except.ok.inj done]
    refine Advances.others held rfl ?_
    intro update member
    rw [List.mem_singleton.mp member]
    rfl
  | runFinished event => exact Advances.runFinished held done
  | runError event =>
    rw [← Except.ok.inj done]
    refine Advances.others held rfl ?_
    intro update member
    rcases List.mem_cons.mp member with terminal | usage
    · rw [terminal]
      rfl
    · rw [(mem_usageUpdates usage).1]
      rfl
  | textMessageStart event | textMessageEnd event | toolCallStart event | toolCallArgs event =>
    cases processes_processEvent done with
    | builds inside texts buffer pending none stays knows => exact Advances.silent held buffer
    | emits inside steps raw own stays => cases own
  | textMessageContent event =>
    rcases outcome_bind_ok_iff.mp done with ⟨update, emitted, last⟩
    rw [← Except.ok.inj last]
    unfold TextMessageBuilder.emitTextUpdate at emitted
    split at emitted
    · cases emitted
    · cases emitted
      refine Advances.emit sound held rfl rfl ?_
      exact stamp_message rfl .message event.messageId known rfl (by decide) rfl rfl
        rfl rfl rfl (Or.inr rfl) rfl
  | toolCallEnd event =>
    rcases outcome_bind_ok_iff.mp done with ⟨builder, ended, last⟩
    rw [← Except.ok.inj last]
    unfold ToolCallBuilder.endToolCall at ended
    split at ended
    · cases ended
    next call found =>
      split at ended
      · cases ended
      · cases ended
        have recorded := named event.toolCallId (Or.inl ((OrderedMap.has_eq_true_iff _ _).mpr ⟨call, found⟩))
        have present : state.attribution.owners.has (.call event.toolCallId) = true := by
          rw [OrderedMap.has, known.agree event.toolCallId]
          exact recorded
        refine Advances.joins held rfl (.waiting rfl rfl (.call event.toolCallId) rfl present) ?_
        rw [stampOf_waiting rfl rfl rfl present, known.agree event.toolCallId]
        rfl
  | toolCallResult event =>
    rw [← Except.ok.inj done]
    unfold ConverterState.toolCallResultCase
    by_cases buffering : state.toolCallBuilder.isBuffering = true
    · simp only [if_pos buffering]
      exact Advances.addResult held (stamp_result known rfl rfl rfl).1 (stamp_result known rfl rfl rfl).2
    · have none := (ToolCallBuilder.isBuffering_eq_false_iff _).mp (Bool.eq_false_iff.mpr buffering)
      simp only [if_neg buffering]
      constructor
      · rw [sound.idle.mpr none, settledStamps_singleton, (stamp_result known rfl rfl rfl).2]
        exact (List.append_nil _).symm
      · exact held
  | stepStarted event =>
    rcases stepStarted_emits done with ⟨steps, rfl⟩
    have steady : ({ state with activeSteps := steps } : ConverterState).toolCallBuilder.Sound := sound
    exact Advances.emit steady held rfl rfl (stamp_others rfl rfl rfl)
  | stepFinished event =>
    rcases stepFinished_emits done with ⟨steps, rfl⟩
    have steady : ({ state with activeSteps := steps } : ConverterState).toolCallBuilder.Sound := sound
    exact Advances.emit steady held rfl rfl (stamp_others rfl rfl rfl)
  | reasoningMessageContent event =>
    rw [← Except.ok.inj done]
    refine Advances.emit sound held rfl rfl ?_
    exact stamp_message rfl .reasoning event.messageId known rfl (by decide) rfl rfl
      rfl rfl rfl (Or.inr rfl) rfl
  | reasoningEncryptedValue event =>
    rw [← Except.ok.inj done]
    refine Advances.emit sound held rfl rfl ?_
    exact stamp_encryptedValue known named rfl rfl rfl rfl rfl
  | reasoningMessageChunk event =>
    rw [← Except.ok.inj done]
    refine Advances.emit sound held rfl rfl ?_
    exact stamp_reasoningChunk known rfl rfl rfl rfl rfl
  | textMessageChunk event =>
    rw [← Except.ok.inj done]
    refine Advances.emit sound held rfl rfl ?_
    exact stamp_textChunk known rfl rfl (known.whole fun _ => Event.noConfusion) rfl rfl
  | activitySnapshot event | activityDelta event =>
    rw [← Except.ok.inj done]
    refine Advances.emit sound held rfl rfl ?_
    exact stamp_message rfl .activity event.messageId known rfl (by decide) rfl rfl
      (known.whole fun _ => Event.noConfusion) rfl rfl (Or.inl rfl) rfl
  | _ =>
    rw [← Except.ok.inj done]
    exact Advances.emit sound held rfl rfl (stamp_others rfl rfl rfl)

end Switch

end DotnetClient
end AgUi
