import Mathlib.Data.List.Induction
import AgUi.Library.Building
import AgUi.DotnetClient.Attribution

namespace AgUi
namespace DotnetClient

open Library Protocol Verify Building

/-!
# What an event puts on record

An event that opens an entity, restates it or mints it puts its owner on
record; every other event leaves the record alone.  The entries of an event
are read off the event and off what is on record when it arrives.
-/

/-- An owner put on record: of an entity of some kind, or of the message a
tool call result mints, which no kind records. -/
inductive Entry where
  | entity (bucket : Bucket) (id : String) (owner : Owner)
  | minted (id : String) (owner : Owner)

namespace Entry

def key : Entry -> EntityKey
  | .entity .toolCall id _ => .call id
  | .entity _ id _ => .message id
  | .minted id _ => .message id

def owner : Entry -> Owner
  | .entity _ _ owner => owner
  | .minted _ owner => owner

end Entry

namespace Attribution

def enter (state : Attribution) : Entry -> Attribution
  | .entity bucket id owner => { state with
      recorded := state.recorded.set bucket id owner
      owners := state.owners.set (Entry.entity bucket id owner).key owner }
  | .minted id owner => { state with owners := state.owners.set (.message id) owner }

/-- The entries from the first to the last. -/
def enterAll (state : Attribution) (entries : List Entry) : Attribution :=
  entries.foldl enter state

/-! ## The entries of an event -/

/-- Only the first opener puts its owner on record. -/
def opened (state : Attribution) (bucket : Bucket) (id : String) (owner : Owner) : List Entry :=
  if (state.recorded.bucket bucket).has id then [] else [.entity bucket id owner]

/-- The owner of the message that carries a call. -/
def carrierOwner (state : Attribution) (event : ToolCallStartEvent) : Owner :=
  (event.parentMessageId.bind state.recorded.message.get?).join

/-- A message of a snapshot, and the calls it carries. -/
def restated (message : Message) : List Entry :=
  .entity (.ofRole message.role) message.id message.subagentRunId.toOption ::
    (seededCalls message).map fun call => .entity .toolCall call.id message.subagentRunId.toOption

/-- The history a run starts with is left out: it is entered before anything
can be held, and only where nothing is on record. -/
def entries (state : Attribution) : Event -> List Entry
  | .messagesSnapshot event => event.messages.flatMap restated
  | .textMessageStart event => state.opened .message event.messageId event.subagentRunId.toOption
  | .reasoningStart event => state.opened .reasoning event.messageId event.subagentRunId.toOption
  | .reasoningMessageStart event => state.opened .reasoning event.messageId event.subagentRunId.toOption
  | .reasoningMessageChunk event =>
    (event.messageId.map fun id => state.opened .reasoning id event.subagentRunId.toOption).getD []
  | .toolCallStart event =>
    state.opened .toolCall event.toolCallId (event.subagentRunId.toOption.or (state.carrierOwner event))
  | .toolCallResult event => [.minted event.messageId event.subagentRunId.toOption]
  | .activitySnapshot event =>
    if state.recorded.activity.has event.messageId = false ∨ event.replace ≠ some false then
      [.entity .activity event.messageId event.subagentRunId.toOption]
    else []
  | _ => []

/-! ## The record after a check -/

/-- Two attributions with the same owners on record, in either place. -/
structure SameRecord (left right : Attribution) : Prop where
  recorded : left.recorded = right.recorded
  owners : left.owners = right.owners

variable {left right : Attribution}

theorem SameRecord.of_eq (same : left = right) : SameRecord left right :=
  ⟨congrArg Attribution.recorded same, congrArg Attribution.owners same⟩

section Check

variable {state after : Attribution} {bucket : Bucket} {entityKind : String} {type : EventType} {tag : Option String}
  {id : String}

theorem continueEntity_ok (done : continueEntity bucket entityKind type state tag id = .ok after) : after = state := by
  unfold continueEntity at done
  split at done
  · cases done
  · exact (Except.ok.inj done).symm

theorem openEntity_ok (message : (Entry.entity bucket id tag).key = .message id)
    (done : openEntity bucket entityKind type state tag id = .ok after) :
    after = state.enterAll (state.opened bucket id tag) := by
  unfold openEntity at done
  unfold opened
  by_cases known : (state.recorded.bucket bucket).has id = true
  · rw [if_pos known] at done ⊢
    exact continueEntity_ok done
  · rw [if_neg known] at done ⊢
    rw [← Except.ok.inj done]
    change _ = { state with
      recorded := state.recorded.set bucket id tag
      owners := state.owners.set (Entry.entity bucket id tag).key tag }
    rw [message]
    rfl

theorem toolCallStart_ok {event : ToolCallStartEvent} (done : toolCallStart state event = .ok after) :
    after = state.enterAll
      (state.opened .toolCall event.toolCallId (event.subagentRunId.toOption.or (state.carrierOwner event))) := by
  have carrier : ((event.parentMessageId.bind fun parent =>
      (state.recorded.message.get? parent).map fun owner => (parent, owner)).bind Prod.snd) =
        state.carrierOwner event := by
    unfold carrierOwner
    cases event.parentMessageId with
    | none => rfl
    | some parent =>
      dsimp only [Option.bind_some]
      cases state.recorded.message.get? parent <;> rfl
  have known : ∀ {tag parentOwner}, toolCallStart.known state event tag parentOwner = .ok after ->
      after = state.enterAll (state.opened .toolCall event.toolCallId (tag.or (parentOwner.bind Prod.snd))) := by
    intro tag parentOwner started
    unfold toolCallStart.known at started
    unfold opened
    cases found : state.recorded.toolCall.get? event.toolCallId with
    | none =>
      rw [found] at started
      have fresh : ¬ (state.recorded.bucket .toolCall).has event.toolCallId = true := by
        rw [Bool.not_eq_true]
        exact (OrderedMap.has_eq_false_iff _ _).mpr found
      rw [if_neg fresh]
      exact (Except.ok.inj started).symm
    | some retainedOwner =>
      rw [found] at started
      have present : (state.recorded.bucket .toolCall).has event.toolCallId = true :=
        (OrderedMap.has_eq_true_iff _ _).mpr ⟨retainedOwner, found⟩
      rw [if_pos present]
      dsimp only at started
      split at started
      · cases started
      next continued same =>
        rw [continueEntity_ok same] at started
        unfold toolCallStart.reopened at started
        split at started
        · split at started
          · exact (Except.ok.inj started).symm
          · cases started
        · exact (Except.ok.inj started).symm
  unfold toolCallStart at done
  dsimp only at done
  rw [← carrier]
  split at done
  · split at done
    · exact known done
    · cases done
  · exact known done

theorem moveLane_same (state : Attribution) (lane : Owner) (chunkId : String) :
    SameRecord (state.moveLane lane chunkId) state := by
  unfold moveLane
  split <;> exact ⟨rfl, rfl⟩

theorem reasoningMessageChunk_ok {event : ReasoningMessageChunkEvent} {inferred : Option String}
    (done : reasoningMessageChunk state event = .ok (after, inferred)) :
    SameRecord after (state.enterAll (state.entries (.reasoningMessageChunk event))) := by
  unfold reasoningMessageChunk at done
  rw [entries]
  cases named : event.messageId with
  | some chunkId =>
    simp only [named, Option.map_some, Option.getD_some] at done ⊢
    unfold opened
    cases found : state.recorded.reasoning.get? chunkId with
    | none =>
      rw [found] at done
      have fresh : ¬ (state.recorded.bucket .reasoning).has chunkId = true := by
        rw [Bool.not_eq_true]
        exact (OrderedMap.has_eq_false_iff _ _).mpr found
      rw [if_neg fresh]
      cases done
      exact moveLane_same _ _ _
    | some laneOwner =>
      rw [found] at done
      have present : (state.recorded.bucket .reasoning).has chunkId = true :=
        (OrderedMap.has_eq_true_iff _ _).mpr ⟨laneOwner, found⟩
      rw [if_pos present]
      dsimp only at done
      split at done
      · cases done
      next continued same =>
        rw [continueEntity_ok same] at done
        cases done
        exact moveLane_same _ _ _
  | none =>
    simp only [named, Option.map_none, Option.getD_none] at done ⊢
    split at done
    · cases done
    · split at done
      · cases done
        exact ⟨rfl, rfl⟩
      · split at done
        · cases done
        next continued same =>
          rw [continueEntity_ok same] at done
          cases done
          exact ⟨rfl, rfl⟩

end Check

theorem entries_of_sameRecord (same : SameRecord left right) (event : Event) :
    left.entries event = right.entries event := by
  unfold entries opened carrierOwner
  rw [same.recorded]

theorem enterAll_of_sameRecord (same : SameRecord left right) (listed : List Entry) :
    SameRecord (left.enterAll listed) (right.enterAll listed) := by
  induction listed generalizing left right with
  | nil => exact same
  | cons entry rest ih =>
    apply ih
    cases entry with
    | entity bucket id owner =>
      unfold enter
      constructor <;> dsimp only
      · rw [same.recorded]
      · rw [same.owners]
    | minted id owner =>
      unfold enter
      constructor <;> dsimp only
      · exact same.recorded
      · rw [same.owners]

variable (state : Attribution)

theorem closeChunkLane_same (lane : Option String) : SameRecord (state.closeChunkLane lane) state := by
  unfold closeChunkLane
  split <;> exact ⟨rfl, rfl⟩

theorem closeLanes_same (event : Event) : SameRecord (state.closeLanes event) state := by
  cases event <;> first
    | exact closeChunkLane_same state _
    | exact ⟨rfl, rfl⟩

/-! ### Messages put on record -/

/-- A seed of authority is an entry. -/
theorem seed_message (role : Role) (id : String) (owner : Owner) :
    seed true (.ofRole role) id owner recordMessageOwner state = state.enter (.entity (.ofRole role) id owner) := by
  cases role <;> rfl

theorem enterAll_append (first second : List Entry) :
    state.enterAll (first ++ second) = (state.enterAll first).enterAll second :=
  List.foldl_append

theorem seedOwnersFromMessages_eq (messages : List Message) (state : Attribution) :
    seedOwnersFromMessages true messages state = state.enterAll (messages.flatMap restated) := by
  induction messages generalizing state with
  | nil => rfl
  | cons message rest ih =>
    rw [List.flatMap_cons, enterAll_append, ← ih]
    unfold seedOwnersFromMessages
    rw [List.foldl_cons]
    dsimp only
    rw [seed_message]
    congr 1
    unfold restated enterAll
    rw [List.foldl_cons, List.foldl_map]
    rfl

/-- What each entry keeps, a seed keeps, whatever its authority. -/
theorem seedOwnersFromMessages_keeps {Holds : Attribution -> Prop}
    (keeps : ∀ state entry, Holds state -> Holds (state.enter entry)) (authoritative : Bool)
    (messages : List Message) {state : Attribution} (holds : Holds state) :
    Holds (seedOwnersFromMessages authoritative messages state) := by
  have message : ∀ state role id owner, Holds state ->
      Holds (seed authoritative (.ofRole role) id owner recordMessageOwner state) := by
    intro state role id owner held
    unfold seed
    split
    · rw [show recordMessageOwner (state.record (.ofRole role) id owner) id owner =
        state.enter (.entity (.ofRole role) id owner) by cases role <;> rfl]
      exact keeps state _ held
    · exact held
  have call : ∀ state id owner, Holds state ->
      Holds (seed authoritative .toolCall id owner recordCallOwner state) := by
    intro state id owner held
    unfold seed
    split
    · exact keeps state (.entity .toolCall id owner) held
    · exact held
  unfold seedOwnersFromMessages
  refine List.foldlRecOn messages _ holds ?_
  intro before held item _
  exact List.foldlRecOn (seededCalls item) _ (message before item.role item.id item.subagentRunId.toOption held)
    fun middle held' next _ => call middle next.id item.subagentRunId.toOption held'

/-! ### The whole check -/

theorem subagentStarted_same {state after : Attribution} {event : SubagentStartedEvent}
    (done : subagentStarted state event = .ok after) : SameRecord after state := by
  unfold subagentStarted at done
  rcases outcome_bind_ok_iff.mp done with ⟨startedId, _, rest⟩
  rcases outcome_bind_ok_iff.mp rest with ⟨_, _, last⟩
  split at last
  · cases last
  · split at last
    · cases last
    · dsimp only at last
      split at last
      · cases last
        exact ⟨rfl, rfl⟩
      · split at last
        · cases last
        · cases last
          exact ⟨rfl, rfl⟩

theorem closeSubagent_same {type : EventType} {state after : Attribution} {id : String}
    (done : closeSubagent type state id = .ok after) : SameRecord after state := by
  unfold closeSubagent at done
  split at done
  · cases done
    exact ⟨rfl, rfl⟩
  · cases done

theorem checkEvent_entries {state after : Attribution} {event : Event} (begun : event.type ≠ .runStarted)
    (whole : event.type ≠ .reasoningMessageChunk) (done : checkEvent state event = .ok after) :
    SameRecord after (state.enterAll (state.entries event)) := by
  cases event with
  | runStarted event => exact absurd rfl begun
  | subagentStarted event => exact subagentStarted_same done
  | subagentFinished event =>
    rcases outcome_bind_ok_iff.mp done with ⟨finishedId, _, last⟩
    exact closeSubagent_same last
  | subagentError event =>
    rcases outcome_bind_ok_iff.mp done with ⟨erroredId, _, rest⟩
    rcases outcome_bind_ok_iff.mp rest with ⟨_, _, last⟩
    exact closeSubagent_same last
  | runFinished event =>
    change (if _ then _ else _) = _ at done
    split at done
    · cases done
    · cases done
      exact ⟨rfl, rfl⟩
  | messagesSnapshot event =>
    rw [← Except.ok.inj done, seedOwnersFromMessages_eq]
    exact ⟨rfl, rfl⟩
  | textMessageStart event | reasoningStart event | reasoningMessageStart event => exact .of_eq (openEntity_ok rfl done)
  | toolCallStart event => exact .of_eq (toolCallStart_ok done)
  | toolCallResult event =>
    rw [← Except.ok.inj done]
    exact ⟨rfl, rfl⟩
  | activitySnapshot event =>
    rw [← Except.ok.inj done]
    unfold activitySnapshot
    rw [entries]
    split <;> exact ⟨rfl, rfl⟩
  | textMessageContent event | textMessageEnd event | reasoningMessageContent event
  | reasoningMessageEnd event | reasoningEnd event | reasoningEncryptedValue event
  | activityDelta event | toolCallArgs event | toolCallEnd event => exact .of_eq (continueEntity_ok done)
  | reasoningMessageChunk event => exact absurd rfl whole
  | _ =>
    rw [← Except.ok.inj done]
    exact ⟨rfl, rfl⟩

/-- A check puts the entries of the event on record, and nothing else. -/
theorem check_entries {state after : Attribution} {inferred : Option String} {event : Event}
    (begun : event.type ≠ .runStarted) (done : check state event = .ok (after, inferred)) :
    SameRecord after (state.enterAll (state.entries event)) := by
  have closed := closeLanes_same state event
  have same : SameRecord ((state.closeLanes event).enterAll ((state.closeLanes event).entries event))
      (state.enterAll (state.entries event)) := by
    rw [entries_of_sameRecord closed]
    exact enterAll_of_sameRecord closed _
  have checked : SameRecord after ((state.closeLanes event).enterAll ((state.closeLanes event).entries event)) := by
    unfold check at done
    dsimp only at done
    split at done
    · exact reasoningMessageChunk_ok done
    next other =>
      cases sent : checkEvent (state.closeLanes event) event with
      | error thrown =>
        rw [sent] at done
        cases done
      | ok checked =>
        rw [sent] at done
        cases done
        apply checkEvent_entries begun _ sent
        intro chunk
        cases event with
        | reasoningMessageChunk event => exact other event rfl
        | _ => cases chunk
  exact ⟨checked.recorded.trans same.recorded, checked.owners.trans same.owners⟩

/-! ## Reading the record -/

/-- The entries of a list as the resolution map would hold them; the last of a key counts. -/
def resolutions (listed : List Entry) : OrderedMap EntityKey Owner :=
  OrderedMap.ofList (listed.map fun entry => (entry.key, entry.owner))

theorem owners_enter (entry : Entry) :
    (state.enter entry).owners = state.owners.set entry.key entry.owner := by
  cases entry <;> rfl

theorem get?_owners_enterAll (listed : List Entry) (key : EntityKey) :
    (state.enterAll listed).owners.get? key = ((resolutions listed).get? key).or (state.owners.get? key) := by
  induction listed using List.reverseRecOn with
  | nil => rfl
  | append_singleton earlier newest ih =>
    rw [enterAll_append]
    change ((state.enterAll earlier).enter newest).owners.get? key = _
    rw [owners_enter, OrderedMap.get?_set, ih]
    unfold resolutions OrderedMap.ofList
    rw [List.map_append, List.foldl_append, List.map_singleton, List.foldl_cons, List.foldl_nil, OrderedMap.get?_set]
    split <;> rfl

/-- A call is on record in both places or in neither. -/
def CallsAgree (state : Attribution) : Prop :=
  ∀ id, state.owners.get? (.call id) = state.recorded.toolCall.get? id

theorem callsAgree_enter {state : Attribution} {entry : Entry} (agree : state.CallsAgree) :
    (state.enter entry).CallsAgree := by
  intro id
  cases entry with
  | minted other owner =>
    unfold enter
    dsimp only
    rw [OrderedMap.get?_set, if_neg (fun same => by cases same)]
    exact agree id
  | entity bucket other owner =>
    unfold enter
    dsimp only
    cases bucket with
    | toolCall =>
      change (OrderedMap.set _ (EntityKey.call other) owner).get? _ = (OrderedMap.set _ other owner).get? id
      rw [OrderedMap.get?_set, OrderedMap.get?_set, agree id]
      by_cases same : id = other
      · rw [if_pos same, if_pos (congrArg EntityKey.call same)]
      · rw [if_neg same, if_neg fun equal => same (EntityKey.call.inj equal)]
    | message | activity | reasoning =>
      change (OrderedMap.set _ (EntityKey.message other) owner).get? _ = _
      rw [OrderedMap.get?_set, if_neg (fun same => by cases same)]
      exact agree id

theorem has_enter {state : Attribution} {entry : Entry} {key : EntityKey} (present : state.owners.has key = true) :
    (state.enter entry).owners.has key = true := by
  rw [owners_enter, OrderedMap.has_set, present, Bool.or_true]

/-- What every entry keeps, every check keeps, the one of a run that starts included. -/
theorem check_keeps (Holds : Attribution -> Prop) (keeps : ∀ state entry, Holds state -> Holds (state.enter entry))
    (reads : ∀ {left right}, SameRecord left right -> Holds right -> Holds left) {state after : Attribution}
    {inferred : Option String} {event : Event} (holds : Holds state)
    (done : check state event = .ok (after, inferred)) : Holds after := by
  have closed := reads (closeLanes_same state event) holds
  by_cases begun : event.type = .runStarted
  · cases event with
    | runStarted event =>
      cases done
      exact seedOwnersFromMessages_keeps keeps false _ closed
    | _ => cases begun
  · exact reads (check_entries begun done)
      (List.foldlRecOn _ _ holds fun before held entry _ => keeps before entry held)

end Attribution

end DotnetClient
end AgUi
