import Mathlib.Logic.Function.Basic
import AgUi.Verify.Verifier

namespace AgUi
namespace Verify

open Library Protocol

/-!
# The verifier's record, key by key

What the verifier knows is a value for each of independently named facts:
where the stream stands, whether an entity is open, who owns it, whether a
step is active, what became of a subagent.  A `Record` is that assignment,
with no order and no storage.  `Allows` says which events a record admits and
`next` how an admitted event changes it.

`record` reads the record off the verifier's state.  The refinement theorem at
the end shows that the verifier accepts exactly the events its record allows,
and that its state then reads as the next record.  Later modules reason about
records only.
-/

/-- Where the stream stands. -/
inductive Phase where
  | idle
  | active
  | finished
  | errored
deriving DecidableEq

inductive SubagentStatus where
  | unknown
  | active
  | closed
deriving DecidableEq

/-- The facts a verifier keeps. -/
inductive Key where
  | phase
  | opened (bracket : Bracket) (id : String)
  | owner (bucket : Bucket) (id : String)
  | step (owner : Owner) (name : String)
  | subagent (id : String)
deriving DecidableEq

abbrev Key.Value : Key -> Type
  | .phase => Phase
  | .opened _ _ => Bool
  | .owner _ _ => Option Owner
  | .step _ _ => Bool
  | .subagent _ => SubagentStatus

/-- The state of the verifier as one function on what it tracks. -/
abbrev Record := (key : Key) -> key.Value

namespace Record

/-- Nothing is open, owned or known. -/
def blank : Record
  | .phase => .idle
  | .opened _ _ => false
  | .owner _ _ => none
  | .step _ _ => false
  | .subagent _ => .unknown

def put (record : Record) (key : Key) (value : key.Value) : Record :=
  Function.update record key value

@[simp] theorem put_self (record : Record) (key : Key) (value : key.Value) :
    record.put key value key = value :=
  Function.update_self key value record

theorem put_of_ne (record : Record) {key other : Key} (value : key.Value) (different : other ≠ key) :
    record.put key value other = record other :=
  Function.update_of_ne different value record

theorem put_put (record : Record) (key : Key) (first second : key.Value) :
    (record.put key first).put key second = record.put key second :=
  Function.update_idem first second record

/-- Record an owner unless the entity already has one. -/
def claim (record : Record) (bucket : Bucket) (id : String) (owner : Owner) : Record :=
  if (record (.owner bucket id)).isSome then record else record.put (.owner bucket id) (some owner)

/-- An authoritative message overrides the owner on record. -/
def seed (authoritative : Bool) (record : Record) (bucket : Bucket) (id : String) (owner : Owner) :
    Record :=
  if authoritative then record.put (.owner bucket id) (some owner) else record.claim bucket id owner

/-- The owners a replayed message puts on record. -/
def seedMessage (authoritative : Bool) (record : Record) (message : Message) : Record :=
  message.calls.foldl
    (fun record call => record.seed authoritative .toolCall call.id message.subagentRunId.toOption)
    (record.seed authoritative (.ofRole message.role) message.id message.subagentRunId.toOption)

def seedMessages (authoritative : Bool) (record : Record) (messages : List Message) : Record :=
  messages.foldl (seedMessage authoritative) record

end Record

/-! ### Reading a written record -/

namespace Record

variable (record : Record)

@[simp] theorem put_opened (bracket other : Bracket) (id name : String) (value : Bool) :
    record.put (.opened bracket id) value (.opened other name) =
      if other = bracket ∧ name = id then value else record (.opened other name) := by
  split
  · rename_i same
    obtain ⟨rfl, rfl⟩ := same
    rw [put_self]
  · rename_i different
    apply put_of_ne
    intro equal
    cases equal
    exact different ⟨rfl, rfl⟩

@[simp] theorem put_owner (bucket other : Bucket) (id name : String)
    (value : Option Owner) :
    record.put (.owner bucket id) value (.owner other name) =
      if other = bucket ∧ name = id then value else record (.owner other name) := by
  split
  · rename_i same
    obtain ⟨rfl, rfl⟩ := same
    rw [put_self]
  · rename_i different
    apply put_of_ne
    intro equal
    cases equal
    exact different ⟨rfl, rfl⟩

@[simp] theorem put_step (owner other : Owner) (name another : String) (value : Bool) :
    record.put (.step owner name) value (.step other another) =
      if other = owner ∧ another = name then value else record (.step other another) := by
  split
  · rename_i same
    obtain ⟨rfl, rfl⟩ := same
    rw [put_self]
  · rename_i different
    apply put_of_ne
    intro equal
    cases equal
    exact different ⟨rfl, rfl⟩

@[simp] theorem put_subagent (id other : String) (value : SubagentStatus) :
    record.put (.subagent id) value (.subagent other) =
      if other = id then value else record (.subagent other) := by
  split
  · rename_i same
    subst same
    rw [put_self]
  · rename_i different
    apply put_of_ne
    intro equal
    cases equal
    exact different rfl

theorem claim_of_ne (bucket : Bucket) (id : String) (owner : Owner) {key : Key}
    (different : key ≠ .owner bucket id) : record.claim bucket id owner key = record key := by
  rw [claim]
  split
  · rfl
  · exact record.put_of_ne _ different

theorem claim_self (bucket : Bucket) (id : String) (owner : Owner) :
    record.claim bucket id owner (.owner bucket id) = some ((record (.owner bucket id)).getD owner) := by
  rw [claim]
  cases known : record (.owner bucket id) with
  | none => exact record.put_self _ _
  | some present => exact known

theorem seed_of_ne (authoritative : Bool) (record : Record) (bucket : Bucket) (id : String)
    (owner : Owner) {key : Key} (different : key ≠ .owner bucket id) :
    record.seed authoritative bucket id owner key = record key := by
  rw [seed]
  split
  · exact record.put_of_ne _ different
  · exact record.claim_of_ne bucket id owner different

/-- What a run of seeds keeps, one seed at a time. -/
theorem seedMessages_induction (Holds : Record -> Prop) (authoritative : Bool) (messages : List Message)
    (keeps : ∀ record bucket id message, message ∈ messages -> Holds record ->
      Holds (record.seed authoritative bucket id message.subagentRunId.toOption))
    {record : Record} (initially : Holds record) : Holds (record.seedMessages authoritative messages) := by
  induction messages generalizing record with
  | nil => exact initially
  | cons message rest ih =>
    refine ih (fun record bucket id other member =>
      keeps record bucket id other (List.mem_cons_of_mem _ member)) ?_
    have call_keeps : ∀ (calls : List ToolCall) (record : Record), Holds record ->
        Holds (calls.foldl (fun record call =>
          record.seed authoritative .toolCall call.id message.subagentRunId.toOption) record) := by
      intro calls
      induction calls with
      | nil => exact fun record holds => holds
      | cons call rest ih =>
        exact fun record holds =>
          ih _ (keeps record .toolCall call.id message List.mem_cons_self holds)
    exact call_keeps message.calls _
      (keeps record (.ofRole message.role) message.id message List.mem_cons_self initially)

/-- Messages put nothing but owners on record. -/
theorem seedMessages_of_not_owner (authoritative : Bool) (record : Record) (messages : List Message)
    {key : Key} (notOwner : ∀ bucket id, key ≠ .owner bucket id) :
    record.seedMessages authoritative messages key = record key :=
  seedMessages_induction (fun seeded => seeded key = record key) authoritative messages
    (fun seeded bucket id _ _ same => (seeded.seed_of_ne _ bucket id _ (notOwner bucket id)).trans same) rfl

end Record

/-! ## Admission -/

/-- A tag agrees with an owner on record, or one of the two is missing. -/
def TagAgrees (owner : Option Owner) (tag : Option String) : Prop :=
  ∀ known, owner = some known -> ∀ name, tag = some name -> known = some name

theorem tagAgrees_none (owner : Option Owner) : TagAgrees owner none := by
  intro known _ name impossible
  cases impossible

theorem none_tagAgrees (tag : Option String) : TagAgrees none tag := by
  intro known impossible
  cases impossible

/-- A run starts where none is active, an error never follows another; anything else stays within a run. -/
def PhaseAllows (phase : Phase) : Event -> Prop
  | .runStarted _ => phase ≠ .active
  | .runError _ => phase ≠ .errored
  | _ => phase = .active

def OpenAllowed (record : Record) (bracket : Bracket) (tag : Option String) (id : String) : Prop :=
  record (.opened bracket id) = false ∧ TagAgrees (record (.owner bracket.bucket id)) tag

def ContinueAllowed (record : Record) (bracket : Bracket) (tag : Option String) (id : String) : Prop :=
  record (.opened bracket id) = true ∧ TagAgrees (record (.owner bracket.bucket id)) tag

/-- The owner of the message a tool call names as its parent, if it is known. -/
def inheritedOwner (record : Record) (parentMessageId : Option String) : Option Owner :=
  parentMessageId.bind fun parent => record (.owner .message parent)

structure CallAllowed (record : Record) (tag : Option String) (toolCallId : String)
    (parentMessageId : Option String) : Prop where
  closed : record (.opened .toolCall toolCallId) = false
  parent : TagAgrees (inheritedOwner record parentMessageId) tag
  reopen : TagAgrees (record (.owner .toolCall toolCallId)) tag
  inherit : tag = none -> ∀ known, record (.owner .toolCall toolCallId) = some known ->
    ∀ inherited, inheritedOwner record parentMessageId = some inherited -> inherited = known

structure SubagentStartAllowed (record : Record) (event : SubagentStartedEvent) : Prop where
  named : event.name.isSome
  identified : ∃ id, event.subagentRunId.toOption = some id ∧
    record (.subagent id) = .unknown
  parent : ∀ id, event.parentSubagentRunId.toOption = some id ->
    record (.subagent id) ≠ .unknown

def SubagentCloseAllowed (record : Record) (tag : Option String) : Prop :=
  ∃ id, tag = some id ∧ record (.subagent id) = .active

/-- Nothing the run opened is still open. -/
structure AllClosed (record : Record) : Prop where
  steps : ∀ owner name, record (.step owner name) = false
  entities : ∀ bracket id, record (.opened bracket id) = false
  subagents : ∀ id, record (.subagent id) ≠ .active

def encryptedOwner (record : Record) (subtype : ReasoningEncryptedValueSubtype) (entityId : String) :
    Option Owner :=
  match subtype with
  | .toolCall => record (.owner .toolCall entityId)
  | .message => (record (.owner .message entityId)).or (record (.owner .reasoning entityId))

/-- The messages a `RUN_STARTED` echoes. -/
def echoed (event : RunStartedEvent) : List Message :=
  (event.input.map RunAgentInput.messages).getD []

/-- No message spells its missing tag as a `null`. -/
def NoNullTags (messages : List Message) : Prop :=
  ∀ message ∈ messages, message.subagentRunId.isNull = false

/-- What the switch asks of the record. -/
def CaseAllows (record : Record) : Event -> Prop
  | .textMessageStart e => OpenAllowed record .textMessage e.subagentRunId.toOption e.messageId
  | .textMessageContent e => ContinueAllowed record .textMessage e.subagentRunId.toOption e.messageId
  | .textMessageEnd e => ContinueAllowed record .textMessage e.subagentRunId.toOption e.messageId
  | .toolCallStart e =>
    CallAllowed record e.subagentRunId.toOption e.toolCallId e.parentMessageId
  | .toolCallArgs e => ContinueAllowed record .toolCall e.subagentRunId.toOption e.toolCallId
  | .toolCallEnd e => ContinueAllowed record .toolCall e.subagentRunId.toOption e.toolCallId
  | .stepStarted e => record (.step e.subagentRunId.toOption e.stepName) = false
  | .stepFinished e => record (.step e.subagentRunId.toOption e.stepName) = true
  | .reasoningStart e => OpenAllowed record .reasoningSpan e.subagentRunId.toOption e.messageId
  | .reasoningMessageStart e =>
    OpenAllowed record .reasoningMessage e.subagentRunId.toOption e.messageId
  | .reasoningMessageContent e =>
    ContinueAllowed record .reasoningMessage e.subagentRunId.toOption e.messageId
  | .reasoningMessageEnd e =>
    ContinueAllowed record .reasoningMessage e.subagentRunId.toOption e.messageId
  | .reasoningEnd e => ContinueAllowed record .reasoningSpan e.subagentRunId.toOption e.messageId
  | .reasoningEncryptedValue e =>
    TagAgrees (encryptedOwner record e.subtype e.entityId) e.subagentRunId.toOption
  | .activityDelta e => TagAgrees (record (.owner .activity e.messageId)) e.subagentRunId.toOption
  | .subagentStarted e => SubagentStartAllowed record e
  | .subagentFinished e => SubagentCloseAllowed record e.subagentRunId.toOption
  | .subagentError e => e.message.isSome ∧ SubagentCloseAllowed record e.subagentRunId.toOption
  | .messagesSnapshot e => NoNullTags e.messages
  | .runStarted e => NoNullTags (echoed e)
  | .runFinished _ => AllClosed record
  | _ => True

/-- The events a record admits. -/
structure Allows (record : Record) (event : Event) : Prop where
  phase : PhaseAllows (record .phase) event
  fields : fieldError event = none
  case : CaseAllows record event

/-! ## Effect -/

def openNext (record : Record) (bracket : Bracket) (tag : Option String) (id : String) : Record :=
  (record.put (.opened bracket id) true).claim bracket.bucket id tag

def closeNext (record : Record) (bracket : Bracket) (id : String) : Record :=
  record.put (.opened bracket id) false

def callNext (record : Record) (tag : Option String) (toolCallId : String)
    (parentMessageId : Option String) : Record :=
  (record.put (.opened .toolCall toolCallId) true).claim .toolCall toolCallId
    (tag.or (inheritedOwner record parentMessageId).join)

def activityNext (record : Record) (tag : Option String) (messageId : String)
    (replace : Option Bool) : Record :=
  if record (.owner .activity messageId) = none ∨ replace ≠ some false then
    record.put (.owner .activity messageId) (some tag)
  else record

def subagentNext (record : Record) (tag : Option String) (status : SubagentStatus) : Record :=
  match tag with
  | some id => record.put (.subagent id) status
  | none => record

theorem activityNext_of_ne (record : Record) (tag : Option String) (messageId : String)
    (replace : Option Bool) {key : Key} (different : key ≠ .owner .activity messageId) :
    activityNext record tag messageId replace key = record key := by
  rw [activityNext]
  split
  · exact record.put_of_ne _ different
  · rfl

theorem subagentNext_of_ne (record : Record) (tag : Option String) (status : SubagentStatus) {key : Key}
    (different : ∀ id, key ≠ .subagent id) : subagentNext record tag status key = record key := by
  cases tag with
  | none => rfl
  | some id => exact record.put_of_ne _ (different id)

/-- The record after an admitted event. -/
def next (record : Record) : Event -> Record
  | .textMessageStart e => openNext record .textMessage e.subagentRunId.toOption e.messageId
  | .textMessageEnd e => closeNext record .textMessage e.messageId
  | .toolCallStart e => callNext record e.subagentRunId.toOption e.toolCallId e.parentMessageId
  | .toolCallEnd e => closeNext record .toolCall e.toolCallId
  | .stepStarted e => record.put (.step e.subagentRunId.toOption e.stepName) true
  | .stepFinished e => record.put (.step e.subagentRunId.toOption e.stepName) false
  | .activitySnapshot e => activityNext record e.subagentRunId.toOption e.messageId e.replace
  | .toolCallResult e => record.put (.owner .message e.messageId) (some e.subagentRunId.toOption)
  | .reasoningStart e => openNext record .reasoningSpan e.subagentRunId.toOption e.messageId
  | .reasoningMessageStart e =>
    openNext record .reasoningMessage e.subagentRunId.toOption e.messageId
  | .reasoningMessageEnd e => closeNext record .reasoningMessage e.messageId
  | .reasoningEnd e => closeNext record .reasoningSpan e.messageId
  | .subagentStarted e => subagentNext record e.subagentRunId.toOption .active
  | .subagentFinished e => subagentNext record e.subagentRunId.toOption .closed
  | .subagentError e => subagentNext record e.subagentRunId.toOption .closed
  | .messagesSnapshot e => record.seedMessages true e.messages
  | .runStarted e => (Record.blank.put .phase .active).seedMessages false (echoed e)
  | .runFinished _ => record.put .phase .finished
  | .runError _ => record.put .phase .errored
  | _ => record

/-! ## Reading the record off the state -/

namespace VerifyState

def phase (state : VerifyState) : Phase :=
  if state.runError then .errored
  else if state.runFinished then .finished
  else if state.firstEventReceived then .active
  else .idle

def subagentStatus (state : VerifyState) (id : String) : SubagentStatus :=
  if state.activeSubagents.has id then .active
  else if state.closedSubagents.has id then .closed
  else .unknown

def record (state : VerifyState) : Record
  | .phase => state.phase
  | .opened bracket id => (state.opened bracket).has id
  | .owner bucket id => (state.owners.bucket bucket).get? id
  | .step owner name => (state.stepsFor owner).has name
  | .subagent id => state.subagentStatus id

/-- The flags that place the stream between runs. -/
def flags (state : VerifyState) : Bool × Bool × Bool × Bool :=
  (state.runError, state.runFinished, state.firstEventReceived, state.runStarted)

/-- What holds of the flags in every reachable state. -/
structure Coherent (state : VerifyState) : Prop where
  fresh : state.firstEventReceived = false -> state = {}
  started : state.firstEventReceived = true -> state.runError = false ->
    state.runFinished = false -> state.runStarted = true

theorem coherent_initial : Coherent {} where
  fresh := fun _ => rfl
  started := nofun

theorem record_initial : record {} = Record.blank := by
  funext key
  cases key with
  | phase | step owner name | subagent id => rfl
  | opened bracket id => cases bracket <;> rfl
  | owner bucket id => cases bucket <;> rfl

@[simp] theorem opened_withOpened (state : VerifyState) (bracket other : Bracket)
    (ids : OrderedSet String) :
    (state.withOpened bracket ids).opened other = if other = bracket then ids else state.opened other := by
  cases bracket <;> cases other <;> rfl

@[simp] theorem owners_withOpened (state : VerifyState) (bracket : Bracket) (ids : OrderedSet String) :
    (state.withOpened bracket ids).owners = state.owners := by
  cases bracket <;> rfl

@[simp] theorem flags_withOpened (state : VerifyState) (bracket : Bracket) (ids : OrderedSet String) :
    (state.withOpened bracket ids).flags = state.flags := by
  cases bracket <;> rfl

end VerifyState

theorem Owners.bucket_set (owners : Owners) (bucket other : Bucket) (id : String) (owner : Owner) :
    (owners.set bucket id owner).bucket other =
      if other = bucket then (owners.bucket bucket).set id owner else owners.bucket other := by
  cases bucket <;> cases other <;> rfl

namespace VerifyState

variable (state : VerifyState)

theorem record_withOpened (bracket : Bracket) (id : String)
    (ids : OrderedSet String) (value : Bool)
    (membership : ∀ other, ids.has other =
      if other = id then value else (state.opened bracket).has other) :
    (state.withOpened bracket ids).record = state.record.put (.opened bracket id) value := by
  funext key
  by_cases same : key = .opened bracket id
  · subst same
    simp [record, membership]
  · rw [Record.put_of_ne _ _ same]
    cases key with
    | phase | step owner name | subagent name => cases bracket <;> rfl
    | opened other name =>
      by_cases found : other = bracket
      · subst found
        have different : name ≠ id := fun equal => same (equal ▸ rfl)
        simp [record, membership, different]
      · simp [record, found]
    | owner bucket name => simp [record]

theorem record_open (bracket : Bracket) (id : String) :
    (state.withOpened bracket ((state.opened bracket).add id)).record =
      state.record.put (.opened bracket id) true :=
  state.record_withOpened bracket id _ true fun other => by
    by_cases same : other = id <;> simp [same]

theorem record_close (bracket : Bracket) (id : String) :
    (state.withOpened bracket ((state.opened bracket).erase id)).record =
      state.record.put (.opened bracket id) false :=
  state.record_withOpened bracket id _ false fun other => by
    by_cases same : other = id <;> simp [same]

theorem record_owners (owners : Owners) (record : Record)
    (buckets : ∀ bucket id, (owners.bucket bucket).get? id = record (.owner bucket id))
    (others : ∀ key, (∀ bucket id, key ≠ .owner bucket id) ->
      record key = state.record key) :
    VerifyState.record { state with owners := owners } = record := by
  funext key
  cases key with
  | owner bucket id => exact buckets bucket id
  | phase => exact (others .phase (by intro bucket id impossible; cases impossible)).symm
  | opened bracket id =>
    have same := others (.opened bracket id) (by intro bucket id impossible; cases impossible)
    rw [same]
    cases bracket <;> rfl
  | step owner name =>
    exact (others (.step owner name) (by intro bucket id impossible; cases impossible)).symm
  | subagent id =>
    exact (others (.subagent id) (by intro bucket id impossible; cases impossible)).symm

theorem record_setOwner (bucket : Bucket) (id : String) (owner : Owner) :
    (state.setOwner bucket id owner).record = state.record.put (.owner bucket id) (some owner) := by
  apply record_owners
  · intro other name
    by_cases same : Key.owner other name = .owner bucket id
    · cases same
      simp [Owners.bucket_set]
    · rw [Record.put_of_ne _ _ same, Owners.bucket_set]
      by_cases found : other = bucket
      · subst found
        have different : name ≠ id := fun equal => same (equal ▸ rfl)
        simp [different, record]
      · simp [found, record]
  · intro key apart
    exact Record.put_of_ne _ _ (apart bucket id)

theorem flags_setOwner (bucket : Bucket) (id : String) (owner : Owner) :
    (state.setOwner bucket id owner).flags = state.flags := rfl

end VerifyState

end Verify
end AgUi
