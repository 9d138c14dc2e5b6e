import AgUi.DotnetClient.Arriving

namespace AgUi
namespace DotnetClient

open Library Protocol Verify Building

/-!
# Frozen attribution over a stream

When an event disputes no entity and re-owns nothing that is held, one step
keeps the law that what is yielded and held is stamped as it arrived; so every
run of such events does.
-/

/-! ## What a check settles -/

namespace Attribution

variable {state after : Attribution} {inferred : Option String} {event : Event}

/-- An event about an entity puts that entity on record or nothing. -/
theorem entries_of_entity {bucket : Bucket} {id : String} (entity : state.entityOf event = some (bucket, id)) :
    state.entries event = [] ∨ bucket ≠ .toolCall ∧ ∃ owner, state.entries event = [.entity bucket id owner] := by
  cases event with
  | activitySnapshot event =>
    cases entity
    rw [entries]
    split
    · exact Or.inr ⟨fun impossible => Bucket.noConfusion impossible, _, rfl⟩
    · exact Or.inl rfl
  | reasoningMessageChunk event =>
    change event.messageId.map _ = _ at entity
    rcases Option.map_eq_some_iff.mp entity with ⟨id', named, same⟩
    cases same
    rw [entries, named, Option.map_some, Option.getD_some, opened]
    split
    · exact Or.inl rfl
    · exact Or.inr ⟨fun impossible => Bucket.noConfusion impossible, _, rfl⟩
  | textMessageContent event | textMessageChunk event | reasoningMessageContent event | toolCallEnd event
  | activityDelta event | reasoningEncryptedValue event => exact Or.inl rfl
  | _ => cases entity

theorem entityOf_of_sameRecord {left right : Attribution} (same : SameRecord left right) (event : Event) :
    left.entityOf event = right.entityOf event := by
  unfold entityOf encryptedValueBucket
  rw [same.recorded]

theorem sharedOwner_eq (state : Attribution) (whole : ∀ chunk, event ≠ .textMessageChunk chunk) (id : String) :
    state.sharedOwner event id = (state.owners.get? (.message id)).join := by
  unfold sharedOwner
  split
  next chunk => exact absurd rfl (whole chunk)
  next => rfl

theorem bucket_set (owners : Owners) (bucket : Bucket) (id : String) (owner : Owner) :
    (owners.set bucket id owner).bucket bucket = (owners.bucket bucket).set id owner := by
  cases bucket <;> rfl

/-- An entity that was undisputed, or that the event put on record, is looked up rightly after the check. -/
theorem shared_check (begun : event.type ≠ .runStarted) (done : check state event = .ok (after, inferred))
    (undisputed : state.Undisputed event) (bucket : Bucket) (id : String)
    (entity : after.entityOf event = some (bucket, id)) :
    (bucket = .toolCall ∧ after.recorded.toolCall.has id = true) ∨
      after.sharedOwner event id = after.ownerOf (bucket, id) := by
  have same := check_entries begun done
  have unchanged : state.entries event = [] -> SameRecord after state := by
    intro none
    rw [none] at same
    exact same
  have before : state.entityOf event = some (bucket, id) := by
    cases event with
    | reasoningEncryptedValue value => rw [← entityOf_of_sameRecord (unchanged rfl)]; exact entity
    | _ => exact entity
  rcases entries_of_entity before with none | ⟨notCall, owner, entered⟩
  · have kept := unchanged none
    have shared : after.sharedOwner event id = state.sharedOwner event id := by
      unfold sharedOwner
      rw [kept.owners]
    unfold ownerOf
    rw [shared, kept.recorded]
    exact undisputed (bucket, id) before none
  · right
    rw [entered] at same
    have whole : ∀ chunk, event ≠ .textMessageChunk chunk := by
      intro chunk text
      rw [text] at entered
      cases entered
    have key : (Entry.entity bucket id owner).key = .message id := by
      cases bucket with
      | toolCall => exact absurd rfl notCall
      | _ => rfl
    unfold ownerOf
    rw [sharedOwner_eq after whole, same.owners, same.recorded]
    change ((OrderedMap.set _ (Entry.entity bucket id owner).key owner).get? _).join =
      (((Owners.set _ bucket id owner).bucket bucket).get? id).join
    rw [key, OrderedMap.get?_set_self, bucket_set, OrderedMap.get?_set_self]

theorem inferred_check (done : check state event = .ok (after, inferred))
    (whole : ∀ chunk, event = .reasoningMessageChunk chunk -> chunk.messageId.isSome = true) : inferred = none := by
  unfold check at done
  dsimp only at done
  split at done
  next chunk =>
    rcases Option.isSome_iff_exists.mp (whole chunk rfl) with ⟨id, named⟩
    unfold reasoningMessageChunk at done
    simp only [named] at done
    split at done
    · cases done
      rfl
    · split at done
      · cases done
      · cases done
        rfl
  next other =>
    cases sent : checkEvent (state.closeLanes event) event with
    | error thrown =>
      rw [sent] at done
      cases done
    | ok checked =>
      rw [sent] at done
      cases done
      rfl

/-- An accepted result has the owner it names on record for the message it mints. -/
theorem result_check {result : ToolCallResultEvent}
    (done : check state (.toolCallResult result) = .ok (after, inferred)) :
    after.owners.get? (.message result.messageId) = some result.subagentRunId.toOption := by
  rw [(check_entries (fun impossible => EventType.noConfusion impossible) done).owners]
  exact OrderedMap.get?_set_self _ _ _

/-- After a check its call is on record. -/
theorem started_check {start : ToolCallStartEvent} (done : check state (.toolCallStart start) = .ok (after, inferred)) :
    after.recorded.toolCall.has start.toolCallId = true := by
  rw [(check_entries (fun impossible => EventType.noConfusion impossible) done).recorded]
  change (state.enterAll (state.opened .toolCall start.toolCallId _)).recorded.toolCall.has start.toolCallId = true
  unfold opened
  split
  next present => exact present
  next =>
    change (OrderedMap.set _ start.toolCallId _).has start.toolCallId = true
    rw [OrderedMap.has_set, decide_eq_true rfl, Bool.true_or]

end Attribution

/-! ## Along a stream -/

section Stream

variable {deserialize : String -> Except Thrown (Option Arguments)}

variable {yielded : List ChatResponseUpdate}

theorem arrivals_snoc {state middle : ConverterState} {past : List Event}
    (runs : Stage.Runs (asChatResponseUpdates deserialize) state past yielded middle) {event : Event}
    {next : ConverterState} {output : List ChatResponseUpdate}
    (step : asChatResponseUpdates deserialize middle event = .ok (next, output)) :
    arrivals deserialize state (past ++ [event]) = arrivals deserialize state past ++ arrival middle event := by
  induction runs with
  | nil state =>
    rw [List.nil_append, arrivals, arrivals, step]
    exact List.append_nil _
  | cons first tail ih =>
    rw [List.cons_append, arrivals, first, arrivals, first]
    dsimp only
    rw [ih step, List.append_assoc]

variable {state : ConverterState}

/-- A converter that has seen no error has read none. -/
theorem no_error_of_fine {past : List Event}
    (runs : Stage.Runs (asChatResponseUpdates deserialize) {} past yielded state) :
    state.runError = false -> ∀ error, Event.runError error ∉ past := by
  refine runs.history (fun past _ state => state.runError = false -> ∀ error, Event.runError error ∉ past) ?_ ?_
  · exact fun _ error member => absurd member List.not_mem_nil
  · intro past emitted before event future after output _ _ before' step fine error member
    rcases outcome_bind_ok_iff.mp step with ⟨gated, gating, rest⟩
    rcases outcome_bind_ok_iff.mp rest with ⟨checked, _, more⟩
    rcases outcome_bind_ok_iff.mp more with ⟨result, processing, last⟩
    cases last
    rcases List.mem_append.mp member with earlier | newest
    · exact before' (gate_ok gating).1 error earlier
    · rw [← List.mem_singleton.mp newest] at processing
      rw [← Except.ok.inj processing] at fine
      cases fine

theorem conserves_of_fine {past : List Event}
    (runs : Stage.Runs (asChatResponseUpdates deserialize) {} past yielded state) (fine : state.runError = false) :
    Conserves deserialize past yielded state := by
  apply conserves_run runs
  intro early error late split
  have member : Event.runError error ∈ past := by
    rw [split]
    exact List.mem_append_right _ List.mem_cons_self
  exact absurd member (no_error_of_fine runs fine error)

/-- What has been yielded, followed by what is held with the stamps it would
get now, is what arrived. -/
structure Attributes (deserialize : String -> Except Thrown (Option Arguments)) (past : List Event)
    (yielded : List ChatResponseUpdate) (state : ConverterState) : Prop where
  order : stamps yielded ++ settledStamps state.attribution.owners state.toolCallBuilder.buffer =
    arrivals deserialize {} past
  held : ∀ update ∈ state.toolCallBuilder.buffer, Held state.attribution.owners update
  agree : state.attribution.CallsAgree
  named : Named state.attribution state.toolCallBuilder

theorem attributes_initial : Attributes deserialize [] [] {} where
  order := rfl
  held := fun _ member => absurd member List.not_mem_nil
  agree := fun _ => rfl
  named := by
    intro id known
    rcases known with impossible | impossible <;> cases impossible

/-- Where a gated converter stands: as before, or with nothing known of a finished run. -/
theorem gate_attribution {state next : ConverterState} {event : Event} (done : state.gate event = .ok next) :
    (next.attribution = state.attribution ∧ next.toolCallBuilder = state.toolCallBuilder) ∨
      (event.type = .runStarted ∧ next.attribution = {} ∧ next.toolCallBuilder = state.toolCallBuilder.reset) := by
  rcases (gate_ok done).2 with ⟨rfl, _⟩ | ⟨rfl, _⟩ | ⟨rfl, _, started, _⟩ | ⟨rfl, _⟩
  · exact Or.inl ⟨rfl, rfl⟩
  · exact Or.inl ⟨rfl, rfl⟩
  · exact Or.inr ⟨started, rfl, rfl⟩
  · exact Or.inl ⟨rfl, rfl⟩

/-- What a gate leaves of the calls on record and of the calls the builder knows. -/
theorem gate_known {state next : ConverterState} {event : Event} (agree : state.attribution.CallsAgree)
    (named : Named state.attribution state.toolCallBuilder) (done : state.gate event = .ok next) :
    next.attribution.CallsAgree ∧ Named next.attribution next.toolCallBuilder := by
  rcases gate_attribution done with ⟨attribution, builder⟩ | ⟨-, attribution, builder⟩
  · rw [attribution, builder]
    exact ⟨agree, named⟩
  · rw [attribution, builder]
    refine ⟨fun _ => rfl, ?_⟩
    intro id known
    rcases known with impossible | impossible <;> cases impossible

variable {inferred : Option String}

theorem callsAgree_check {state after : Attribution} {event : Event}
    (agree : state.CallsAgree) (done : state.check event = .ok (after, inferred)) : after.CallsAgree := by
  refine Attribution.check_keeps Attribution.CallsAgree ?_ ?_ agree done
  · exact fun before entry agree => Attribution.callsAgree_enter agree
  · intro left right same agree id
    rw [same.owners, same.recorded]
    exact agree id

/-- What a check leaves on record, and it leaves all that was. -/
theorem named_check {state after : Attribution} {event : Event} {builder : ToolCallBuilder}
    (agree : state.CallsAgree) (named : Named state builder) (done : state.check event = .ok (after, inferred)) :
    Named after builder := by
  intro id known
  have before : state.owners.has (.call id) = true := by
    rw [OrderedMap.has, agree id]
    exact named id known
  have kept : after.owners.has (.call id) = true := by
    refine Attribution.check_keeps (fun middle => middle.owners.has (.call id) = true) ?_ ?_ before done
    · exact fun middle entry present => Attribution.has_enter present
    · intro left right same present
      rw [same.owners]
      exact present
  rw [OrderedMap.has, callsAgree_check agree done id] at kept
  exact kept

/-- What is held keeps its stamps if the event re-owns none of it. -/
theorem held_check {after : Attribution} {event : Event} (begun : event.type ≠ .runStarted)
    (held : ∀ update ∈ state.toolCallBuilder.buffer, Held state.attribution.owners update)
    (steady : state.Steady event) (done : state.attribution.check event = .ok (after, inferred)) :
    settledStamps after.owners state.toolCallBuilder.buffer =
        settledStamps state.attribution.owners state.toolCallBuilder.buffer ∧
      ∀ update ∈ state.toolCallBuilder.buffer, Held after.owners update := by
  have stays : ∀ update ∈ state.toolCallBuilder.buffer,
      stampOf (Attribution.attributed after.owners update) =
        stampOf (Attribution.attributed state.attribution.owners update) ∧ Held after.owners update := by
    intro update member
    refine (held update member).stays ?_
    intro fresh key first _
    rw [(Attribution.check_entries begun done).owners, Attribution.get?_owners_enterAll]
    cases entered : (Attribution.resolutions (state.attribution.entries event)).get? key with
    | none => rfl
    | some owner => exact (steady update member fresh key first owner entered).symm
  refine ⟨?_, fun update member => (stays update member).2⟩
  unfold settledStamps stamps
  rw [List.filterMap_map, List.filterMap_map]
  apply List.filterMap_congr
  exact fun update member => (stays update member).1

/-- What is known of a checked event. -/
theorem checked_of_check {gated : ConverterState} {after : Attribution}
    {event : Event} (agree : gated.attribution.CallsAgree)
    (same : event.type ≠ .runStarted -> gated.attribution = state.attribution)
    (undisputed : state.attribution.Undisputed event)
    (done : gated.attribution.check event = .ok (after, inferred)) : Checked (after, inferred) event where
  agree := callsAgree_check agree done
  shared := by
    intro bucket id entity
    have begun : event.type ≠ .runStarted := by
      intro started
      cases event with
      | runStarted event => cases entity
      | _ => cases started
    rw [same begun] at done
    exact Attribution.shared_check begun done undisputed bucket id entity
  whole := fun whole => Attribution.inferred_check done fun chunk same => absurd same (whole chunk)
  lane := by
    intro chunk id same named
    apply Attribution.inferred_check done
    intro other equal
    cases equal.symm.trans same
    rw [named]
    rfl
  result := by
    intro result same
    rw [same] at done
    exact Attribution.result_check done

theorem arrival_eq {state gated : ConverterState} {event : Event} {checked : Attribution × Option String}
    (gating : state.gate event = .ok gated) (checking : gated.attribution.check event = .ok checked) :
    arrival state event = arrivedAs checked event := by
  unfold arrival
  rw [gating]
  dsimp only
  rw [checking]
  rfl

theorem attributes_step {past : List Event} {yielded output : List ChatResponseUpdate} {state next : ConverterState}
    {event : Event} (runs : Stage.Runs (asChatResponseUpdates deserialize) {} past yielded state)
    (attributes : Attributes deserialize past yielded state) (settled : state.Settled event)
    (step : asChatResponseUpdates deserialize state event = .ok (next, output)) :
    Attributes deserialize (past ++ [event]) (yielded ++ output) next := by
  have arrived := arrivals_snoc runs step
  rcases outcome_bind_ok_iff.mp step with ⟨gated, gating, rest⟩
  rcases outcome_bind_ok_iff.mp rest with ⟨⟨after, inferred⟩, checking, more⟩
  rcases outcome_bind_ok_iff.mp more with ⟨⟨last, updates⟩, processing, ending⟩
  cases ending
  have conserves := conserves_of_fine runs (gate_ok gating).1
  rcases gate_queue conserves.rested conserves.sound gating with ⟨buffer, pending⟩
  have sound : gated.toolCallBuilder.Sound := by
    constructor
    rw [buffer, pending]
    exact conserves.sound.idle
  rcases gate_known attributes.agree attributes.named gating with ⟨agree, named⟩
  have same : event.type ≠ .runStarted -> gated.attribution = state.attribution := by
    intro begun
    rcases gate_attribution gating with ⟨attribution, -⟩ | ⟨started, -⟩
    · exact attribution
    · exact absurd started begun
  have known := checked_of_check agree same settled.undisputed checking
  have kept : settledStamps after.owners gated.toolCallBuilder.buffer =
        settledStamps state.attribution.owners state.toolCallBuilder.buffer ∧
      ∀ update ∈ gated.toolCallBuilder.buffer, Held after.owners update := by
    rw [buffer]
    by_cases begun : event.type = .runStarted
    · have empty : state.toolCallBuilder.buffer = [] := by
        cases event with
        | runStarted event =>
          apply conserves.sound.idle.mpr
          rw [calm_runStarted conserves.rested gating]
          rfl
        | _ => cases begun
      rw [empty]
      exact ⟨rfl, fun update member => absurd member List.not_mem_nil⟩
    · rw [same begun] at checking
      exact held_check begun attributes.held settled.steady checking
  have ready : Named after gated.toolCallBuilder := named_check agree named checking
  have advances := @advances_processEvent deserialize { gated with attribution := after } inferred event
    _ sound kept.2 ready known processing
  have attribution := attribution_processEvent processing
  dsimp only at attribution
  constructor
  · rw [arrived, arrival_eq gating checking, ← attributes.order, stamps_append, List.append_assoc, List.append_assoc]
    congr 1
    rw [← kept.1, attribution]
    exact advances.order.symm
  · rw [attribution]
    exact advances.held
  · rw [attribution]
    exact known.agree
  · refine named_processEvent ready ?_ processing
    intro start started
    rw [started] at checking
    exact Attribution.started_check checking

/-- In a run whose events re-own nothing that is held and dispute no entity, every update carries the owner its
entity had when its event arrived. -/
theorem attribution_frozen (deserialize : String -> Except Thrown (Option Arguments)) (events : List Event)
    (updates : List ChatResponseUpdate) (final : ConverterState)
    (runs : Stage.Runs (asChatResponseUpdates deserialize) {} events updates final)
    (settled : ∀ past event future yielded state, events = past ++ event :: future ->
      Stage.Runs (asChatResponseUpdates deserialize) {} past yielded state -> state.Settled event) :
    FrozenAtArrival deserialize events updates := by
  have attributes : Attributes deserialize events updates final := by
    refine runs.history (Attributes deserialize) attributes_initial ?_
    intro past emitted before event future after output split reached attributes step
    exact attributes_step reached attributes (settled past event future emitted before split reached) step
  exact ⟨_, attributes.order⟩

/-- Whether a stream settles can be read off the states its parts lead to. -/
theorem settled_of_all {events : List Event} (all : ∀ count, count < events.length ->
      ∀ event ∈ events[count]?, ∀ reached, reached ∈
        ((asChatResponseUpdates deserialize).run {} (events.take count)).2.toOption -> reached.Settled event)
    (past : List Event) (event : Event) (future : List Event) (yielded : List ChatResponseUpdate)
    (state : ConverterState) (split : events = past ++ event :: future)
    (runs : Stage.Runs (asChatResponseUpdates deserialize) {} past yielded state) : state.Settled event := by
  apply all past.length _ event _ state
  · rw [split, List.take_left, (Stage.runs_iff_run _ _ _ _).mp runs]
    rfl
  · rw [split, List.length_append, List.length_cons]
    omega
  · rw [split, List.getElem?_append_right (Nat.le_refl _), Nat.sub_self]
    rfl

end Stream

namespace Sample

def searchCall : ToolCall :=
  { id := "call", function := { name := "search", arguments := "" } }

/-- The whole conversation again, with the call under a subagent. -/
def restate : Event :=
  .messagesSnapshot {
    messages := [
      { id := "spoken", role := .assistant, toolCalls := some [searchCall], subagentRunId := .value "scout" }] }

def owners (stamped : List (Event × Owner)) : List Owner :=
  stamped.map Prod.snd

end Sample

open Sample in
theorem attribution_frozen_sample :
    FrozenAtArrival deserialize (begin ++ [call, result, finish none])
      ((asChatResponseUpdates deserialize).run {} (begin ++ [call, result, finish none])).1 := by
  apply attribution_frozen
  · rw [Stage.runs_iff_run]
    rfl
  · exact settled_of_all (by decide +kernel)

open Sample in
/-- A snapshot gives the held call to a subagent before its result lets it go. -/
theorem attribution_moved :
    (asChatResponseUpdates deserialize).accepts {} (begin ++ [call, restate, result]) = true ∧
    ¬ FrozenAtArrival deserialize (begin ++ [call, restate, result])
      ((asChatResponseUpdates deserialize).run {} (begin ++ [call, restate, result])).1 := by
  refine ⟨by decide +kernel, fun frozen => ?_⟩
  rcases frozen with ⟨rest, same⟩
  have first := congrArg (fun stamped => (owners stamped).head?) same
  have carried : (owners (stamps ((asChatResponseUpdates deserialize).run {}
      (begin ++ [call, restate, result])).1)).head? = some (some "scout") := by decide +kernel
  have arrived : (owners (arrivals deserialize {} (begin ++ [call, restate, result]))).head? = some none := by
    decide +kernel
  rw [arrived, owners, List.map_append, List.head?_append] at first
  change Option.or (owners _).head? _ = _ at first
  rw [carried] at first
  cases first

end DotnetClient
end AgUi
