import AgUi.Library.Building
import AgUi.Verify.Refinement
import AgUi.Kotlin.EventVerifier

namespace AgUi
namespace Kotlin

open Library Protocol Verify Building

/-!
# What the Kotlin verifier accepts

The Kotlin state is read as a record of the TypeScript verifier, but for the
owners: the two put owners on record at different events.  What an opener puts
on record is in both; what comes from elsewhere (a result, replayed messages)
is only in the record.  The events alone say which is which.  Where a tag is
compared with an owner of the second kind it must agree, and a failing subagent
must leave nothing open; then every step the Kotlin verifier takes is one the
record allows.
-/

namespace EventVerifier

def phase (state : EventVerifier) : Phase :=
  if state.runError then .errored
  else if state.runFinished then .finished
  else if state.firstEventReceived then .active
  else .idle

def subagentStatus (state : EventVerifier) (id : String) : SubagentStatus :=
  if state.closedSubagents.has id then .closed
  else if state.subagents.has id then .active
  else .unknown

/-- What holds of every reachable state. -/
structure Coherent (state : EventVerifier) : Prop where
  fresh : state.firstEventReceived = false -> state = {}
  started : state.firstEventReceived = true -> state.runError = false -> state.runFinished = false ->
    state.runStarted = true
  announced : ∀ id, state.closedSubagents.has id = true -> state.subagents.has id = true

/-- The record holds what the state holds, owners apart. -/
structure Reads (state : EventVerifier) (record : Record) : Prop where
  phase : record .phase = state.phase
  opened : ∀ bracket id, record (.opened bracket id) = (state.opened bracket).has id
  steps : ∀ owner name, record (.step owner name) = state.activeSteps.has (owner, name)
  subagents : ∀ id, record (.subagent id) = state.subagentStatus id

/-- A subagent that fails leaves nothing open. -/
structure Quiet (state : EventVerifier) (id : String) : Prop where
  entities : ∀ bracket entity, (state.opened bracket).has entity = true ->
    (state.ownersOf bracket).get? entity ≠ some (some id)
  steps : ∀ name, state.activeSteps.has (some id, name) = false

end EventVerifier

/-! ## Where an owner on record comes from -/

/-- Who put an owner on record. -/
inductive Source where
  /-- The first opener of a bracket under the id. -/
  | opener (bracket : Bracket)
  /-- A result, a replayed message, or what a call inherits from one. -/
  | outside
deriving DecidableEq

abbrev Sources := Bucket -> String -> Option Source

namespace Sources

def put (sources : Sources) (bucket : Bucket) (id : String) (source : Source) : Sources :=
  fun other name => if other = bucket ∧ name = id then some source else sources other name

def claim (sources : Sources) (bucket : Bucket) (id : String) (source : Source) : Sources :=
  if (sources bucket id).isSome then sources else sources.put bucket id source

def seedMessage (sources : Sources) (message : Message) : Sources :=
  message.calls.foldl (fun sources call => sources.put .toolCall call.id .outside)
    (sources.put (.ofRole message.role) message.id .outside)

def seedMessages (sources : Sources) (messages : List Message) : Sources :=
  messages.foldl seedMessage sources

/-- No owner is on record, or the bracket's own opener put it there. -/
def Shared (sources : Sources) (bracket : Bracket) (id : String) : Prop :=
  ∀ source ∈ sources bracket.bucket id, source = .opener bracket

/-- No owner of the parent is on record, or the opener of the parent put it there. -/
def SharedParent (sources : Sources) (parentMessageId : Option String) : Prop :=
  ∀ parent ∈ parentMessageId, sources.Shared .textMessage parent

instance (sources : Sources) (bracket : Bracket) (id : String) : Decidable (sources.Shared bracket id) :=
  inferInstanceAs (Decidable (∀ source ∈ _, _))

instance (sources : Sources) (parentMessageId : Option String) : Decidable (sources.SharedParent parentMessageId) :=
  inferInstanceAs (Decidable (∀ parent ∈ _, _))

/-- Where the owners on record come from after an event.  A call that says
nothing of its owner has it from its parent message. -/
def next (sources : Sources) : Event -> Sources
  | .textMessageStart e => sources.claim .message e.messageId (.opener .textMessage)
  | .reasoningStart e => sources.claim .reasoning e.messageId (.opener .reasoningSpan)
  | .reasoningMessageStart e => sources.claim .reasoning e.messageId (.opener .reasoningMessage)
  | .toolCallStart e =>
    sources.claim .toolCall e.toolCallId
      (if e.subagentRunId.toOption.isSome = true ∨ sources.SharedParent e.parentMessageId then .opener .toolCall
      else .outside)
  | .toolCallResult e => sources.put .message e.messageId .outside
  | .messagesSnapshot e => sources.seedMessages e.messages
  | .runStarted e => seedMessages (fun _ _ => none) (echoed e)
  | _ => sources

end Sources

/-! ## What the theorem asks of the events -/

/-- An owner that came from elsewhere agrees with the tag it is compared with. -/
def Compared (record : Record) (sources : Sources) (bracket : Bracket) (id : String) (tag : Option String) : Prop :=
  sources.Shared bracket id ∨ TagAgrees (record (.owner bracket.bucket id)) tag

/-- The comparisons at the start of a call. -/
structure CallCompared (record : Record) (sources : Sources) (tag : Option String) (toolCallId : String)
    (parentMessageId : Option String) : Prop where
  parent : sources.SharedParent parentMessageId ∨ TagAgrees (inheritedOwner record parentMessageId) tag
  reopen : Compared record sources .toolCall toolCallId tag
  inherit : tag = none -> (sources.SharedParent parentMessageId ∧ sources.Shared .toolCall toolCallId) ∨
    ∀ known, record (.owner .toolCall toolCallId) = some known ->
      ∀ inherited, inheritedOwner record parentMessageId = some inherited -> inherited = known

/-- What an event must meet where the Kotlin verifier makes no comparison, or
makes it with a table that only its openers fill, and where it closes what a
failing subagent has open. -/
def Overseen (state : EventVerifier) (record : Record) (sources : Sources) : Event -> Prop
  | .textMessageStart e => Compared record sources .textMessage e.messageId e.subagentRunId.toOption
  | .textMessageContent e => Compared record sources .textMessage e.messageId e.subagentRunId.toOption
  | .textMessageEnd e => Compared record sources .textMessage e.messageId e.subagentRunId.toOption
  | .toolCallStart e => CallCompared record sources e.subagentRunId.toOption e.toolCallId e.parentMessageId
  | .toolCallArgs e => Compared record sources .toolCall e.toolCallId e.subagentRunId.toOption
  | .toolCallEnd e => Compared record sources .toolCall e.toolCallId e.subagentRunId.toOption
  | .reasoningStart e => Compared record sources .reasoningSpan e.messageId e.subagentRunId.toOption
  | .reasoningEnd e => Compared record sources .reasoningSpan e.messageId e.subagentRunId.toOption
  | .reasoningMessageStart e => Compared record sources .reasoningMessage e.messageId e.subagentRunId.toOption
  | .reasoningMessageContent e => Compared record sources .reasoningMessage e.messageId e.subagentRunId.toOption
  | .reasoningMessageEnd e => Compared record sources .reasoningMessage e.messageId e.subagentRunId.toOption
  | .reasoningEncryptedValue e => TagAgrees (encryptedOwner record e.subtype e.entityId) e.subagentRunId.toOption
  | .activityDelta e => TagAgrees (record (.owner .activity e.messageId)) e.subagentRunId.toOption
  | .subagentError e => ∀ id, e.subagentRunId.toOption = some id -> state.Quiet id
  | _ => True

/-- What the schemas ask of an event beyond the types of its fields: what is
optional is left out, and not `null`. -/
structure SchemaValid (event : Event) : Prop where
  fields : fieldError event = none
  snapshot : ∀ snapshot, event = .messagesSnapshot snapshot -> NoNullTags snapshot.messages
  echo : ∀ started, event = .runStarted started -> NoNullTags (echoed started)

namespace EventVerifier

/-! ## Reading a changed state -/

variable {state : EventVerifier} {record : Record}

@[simp] theorem opened_withOpened (state : EventVerifier) (bracket other : Bracket) (ids : OrderedSet String) :
    (state.withOpened bracket ids).opened other = if other = bracket then ids else state.opened other := by
  cases bracket <;> cases other <;> rfl

/-- Two states that differ in what the record does not hold. -/
structure Same (state other : EventVerifier) : Prop where
  phase : other.phase = state.phase
  opened : ∀ bracket, other.opened bracket = state.opened bracket
  steps : other.activeSteps = state.activeSteps
  subagents : other.subagents = state.subagents
  closed : other.closedSubagents = state.closedSubagents
  begun : other.firstEventReceived = state.firstEventReceived
  runStarted : other.runStarted = state.runStarted
  runError : other.runError = state.runError
  runFinished : other.runFinished = state.runFinished

theorem Same.refl (state : EventVerifier) : Same state state :=
  ⟨rfl, fun _ => rfl, rfl, rfl, rfl, rfl, rfl, rfl, rfl⟩

theorem Same.trans {middle other : EventVerifier} (first : Same state middle) (second : Same middle other) :
    Same state other where
  phase := second.phase.trans first.phase
  opened := fun bracket => (second.opened bracket).trans (first.opened bracket)
  steps := second.steps.trans first.steps
  subagents := second.subagents.trans first.subagents
  closed := second.closed.trans first.closed
  begun := second.begun.trans first.begun
  runStarted := second.runStarted.trans first.runStarted
  runError := second.runError.trans first.runError
  runFinished := second.runFinished.trans first.runFinished

theorem same_withOwners (state : EventVerifier) (bracket : Bracket) (owners : OrderedMap String Owner) :
    Same state (state.withOwners bracket owners) := by
  constructor <;> cases bracket <;> first | rfl | exact fun _ => rfl

theorem same_claim (state : EventVerifier) (bracket : Bracket) (id : String) (owner : Owner) :
    Same state (state.claim bracket id owner) := by
  unfold claim
  split
  · exact .refl state
  · exact same_withOwners state bracket _

theorem same_noteAttribution (state : EventVerifier) (event : Event) : Same state (state.noteAttribution event) := by
  unfold noteAttribution
  split
  · exact .refl state
  · split
    · exact ⟨rfl, fun bracket => by cases bracket <;> rfl, rfl, rfl, rfl, rfl, rfl, rfl, rfl⟩
    · exact .refl state

theorem Same.subagentStatus {other : EventVerifier} (same : Same state other) (id : String) :
    other.subagentStatus id = state.subagentStatus id := by
  unfold EventVerifier.subagentStatus
  rw [same.closed, same.subagents]

theorem Reads.same {other : EventVerifier} (reads : Reads state record) (same : Same state other) :
    Reads other record where
  phase := reads.phase.trans same.phase.symm
  opened := fun bracket id => by rw [same.opened, reads.opened]
  steps := fun owner name => by rw [same.steps, reads.steps]
  subagents := fun id => by rw [same.subagentStatus, reads.subagents]

/-- Owners are not read, so a record may be given others. -/
theorem Reads.congr {other : Record} (reads : Reads state record)
    (same : ∀ key, (∀ bucket id, key ≠ .owner bucket id) -> other key = record key) :
    Reads state other where
  phase := (same .phase fun _ _ => by simp).trans reads.phase
  opened := fun bracket id => (same (.opened bracket id) fun _ _ => by simp).trans (reads.opened bracket id)
  steps := fun owner name => (same (.step owner name) fun _ _ => by simp).trans (reads.steps owner name)
  subagents := fun id => (same (.subagent id) fun _ _ => by simp).trans (reads.subagents id)

theorem Reads.claim (reads : Reads state record) (bucket : Bucket) (id : String) (owner : Owner) :
    Reads state (record.claim bucket id owner) :=
  reads.congr fun _ apart => record.claim_of_ne bucket id owner (apart bucket id)

theorem Reads.putOwner (reads : Reads state record) (bucket : Bucket) (id : String) (owner : Option Owner) :
    Reads state (record.put (.owner bucket id) owner) :=
  reads.congr fun _ apart => record.put_of_ne owner (apart bucket id)

theorem phase_withOpened (state : EventVerifier) (bracket : Bracket) (ids : OrderedSet String) :
    (state.withOpened bracket ids).phase = state.phase := by
  cases bracket <;> rfl

theorem steps_withOpened (state : EventVerifier) (bracket : Bracket) (ids : OrderedSet String) :
    (state.withOpened bracket ids).activeSteps = state.activeSteps := by
  cases bracket <;> rfl

theorem subagentStatus_withOpened (state : EventVerifier) (bracket : Bracket) (ids : OrderedSet String)
    (id : String) : (state.withOpened bracket ids).subagentStatus id = state.subagentStatus id := by
  cases bracket <;> rfl

theorem Reads.withOpened (reads : Reads state record) (bracket : Bracket) (id : String) (value : Bool)
    {ids : OrderedSet String}
    (membership : ∀ other, ids.has other = if other = id then value else (state.opened bracket).has other) :
    Reads (state.withOpened bracket ids) (record.put (.opened bracket id) value) where
  phase := by
    have kept : record.put (.opened bracket id) value .phase = record .phase := record.put_of_ne _ (by simp)
    rw [kept, phase_withOpened, reads.phase]
  opened := by
    intro other name
    rw [Record.put_opened, opened_withOpened]
    by_cases same : other = bracket
    · subst same
      rw [if_pos rfl, membership, reads.opened]
      by_cases named : name = id
      · rw [if_pos ⟨rfl, named⟩, if_pos named]
      · rw [if_neg fun both => named both.2, if_neg named]
    · rw [if_neg fun both => same both.1, if_neg same, reads.opened]
  steps := by
    intro owner name
    have kept : record.put (.opened bracket id) value (.step owner name) = record (.step owner name) :=
      record.put_of_ne _ (by simp)
    rw [kept, steps_withOpened, reads.steps]
  subagents := by
    intro other
    have kept : record.put (.opened bracket id) value (.subagent other) = record (.subagent other) :=
      record.put_of_ne _ (by simp)
    rw [kept, subagentStatus_withOpened, reads.subagents]

theorem Reads.open_ (reads : Reads state record) (bracket : Bracket) (id : String) :
    Reads (state.open_ bracket id) (record.put (.opened bracket id) true) := by
  apply reads.withOpened
  intro other
  rw [OrderedSet.has_add]
  by_cases same : other = id
  · rw [if_pos same, decide_eq_true same, Bool.true_or]
  · rw [if_neg same, decide_eq_false same, Bool.false_or]

theorem Reads.close (reads : Reads state record) (bracket : Bracket) (id : String) :
    Reads (state.close bracket id) (record.put (.opened bracket id) false) := by
  apply reads.withOpened
  intro other
  rw [OrderedMap.has_erase]
  by_cases same : other = id
  · rw [if_pos same, decide_eq_true same, Bool.not_true, Bool.false_and]
  · rw [if_neg same, decide_eq_false same, Bool.not_false, Bool.true_and]

/-! ## Owners that both have -/

/-- The sources say of which ids an owner is on record, and where the openers
put it there the Kotlin verifier has the same one. -/
structure Tracks (state : EventVerifier) (record : Record) (sources : Sources) : Prop where
  recorded : ∀ (bracket : Bracket) id,
    (sources bracket.bucket id).isSome = (record (.owner bracket.bucket id)).isSome
  unknown : ∀ (bracket : Bracket) id, sources bracket.bucket id = none -> (state.ownersOf bracket).get? id = none
  opener : ∀ (bracket : Bracket) id, sources bracket.bucket id = some (.opener bracket) ->
    (state.ownersOf bracket).get? id = record (.owner bracket.bucket id)

end EventVerifier

namespace Sources

theorem put_self (sources : Sources) (bucket : Bucket) (id : String) (source : Source) :
    sources.put bucket id source bucket id = some source :=
  if_pos ⟨rfl, rfl⟩

theorem put_of_ne (sources : Sources) {bucket other : Bucket} {id name : String} (source : Source)
    (different : ¬ (other = bucket ∧ name = id)) : sources.put bucket id source other name = sources other name :=
  if_neg different

theorem claim_self (sources : Sources) (bucket : Bucket) (id : String) (source : Source) :
    sources.claim bucket id source bucket id = some ((sources bucket id).getD source) := by
  unfold claim
  cases known : sources bucket id with
  | none => exact put_self sources bucket id source
  | some present => exact known

theorem claim_of_ne (sources : Sources) {bucket other : Bucket} {id name : String} (source : Source)
    (different : ¬ (other = bucket ∧ name = id)) :
    sources.claim bucket id source other name = sources other name := by
  unfold claim
  split
  · rfl
  · exact put_of_ne sources source different

end Sources

namespace EventVerifier

variable {state next : EventVerifier} {record other : Record} {sources : Sources}

theorem owner_ne {bucket another : Bucket} {id name : String} (different : ¬ (bucket = another ∧ id = name)) :
    Key.owner bucket id ≠ .owner another name := by
  intro same
  cases same
  exact different ⟨rfl, rfl⟩

/-- Where the owner on record is one that both have, they have the same. -/
theorem Tracks.known (tracks : Tracks state record sources) {bracket : Bracket} {id : String}
    (shared : sources.Shared bracket id) :
    (state.ownersOf bracket).get? id = record (.owner bracket.bucket id) := by
  have recorded := tracks.recorded bracket id
  cases source : sources bracket.bucket id with
  | none =>
    rw [source] at recorded
    rw [tracks.unknown bracket id source]
    exact (Option.not_isSome_iff_eq_none.mp (Bool.eq_false_iff.mp recorded.symm)).symm
  | some from_ =>
    rw [shared from_ source] at source
    exact tracks.opener bracket id source

theorem Tracks.agrees (tracks : Tracks state record sources) {bracket : Bracket} {id : String} {tag : Option String}
    (compared : Compared record sources bracket id tag)
    (agrees : TagAgrees ((state.ownersOf bracket).get? id) tag) :
    TagAgrees (record (.owner bracket.bucket id)) tag := by
  rcases compared with shared | agreesThere
  · rw [← tracks.known shared]
    exact agrees
  · exact agreesThere

theorem Tracks.parent (tracks : Tracks state record sources) {parentMessageId : Option String}
    (shared : sources.SharedParent parentMessageId) :
    parentMessageId.bind state.messageOwners.get? = inheritedOwner record parentMessageId := by
  cases parentMessageId with
  | none => rfl
  | some parent =>
    have known : (state.ownersOf .textMessage).get? parent = record (.owner Bracket.textMessage.bucket parent) :=
      tracks.known (shared parent rfl)
    exact known

theorem Tracks.congr (tracks : Tracks state record sources)
    (owners : ∀ bracket, next.ownersOf bracket = state.ownersOf bracket)
    (kept : ∀ (bracket : Bracket) id, other (.owner bracket.bucket id) = record (.owner bracket.bucket id)) :
    Tracks next other sources where
  recorded := fun bracket id => by rw [kept, tracks.recorded]
  unknown := fun bracket id none => by rw [owners, tracks.unknown bracket id none]
  opener := fun bracket id own => by rw [owners, kept, tracks.opener bracket id own]

theorem Tracks.apart (tracks : Tracks state record sources) {key : Key} (value : key.Value)
    (apart : ∀ bucket id, key ≠ .owner bucket id)
    (owners : ∀ bracket, next.ownersOf bracket = state.ownersOf bracket) :
    Tracks next (record.put key value) sources :=
  tracks.congr owners fun _ _ => record.put_of_ne value (apart _ _).symm

/-- What comes from elsewhere only changes the record. -/
theorem Tracks.put (tracks : Tracks state record sources) {bucket : Bucket} {id : String}
    (present : (other (.owner bucket id)).isSome = true)
    (kept : ∀ another name, ¬ (another = bucket ∧ name = id) ->
      other (.owner another name) = record (.owner another name)) :
    Tracks state other (sources.put bucket id .outside) := by
  constructor
  · intro bracket name
    by_cases same : bracket.bucket = bucket ∧ name = id
    · rw [same.1, same.2, Sources.put_self, present]
      rfl
    · rw [Sources.put_of_ne sources _ same, kept _ _ same, tracks.recorded]
  · intro bracket name none
    by_cases same : bracket.bucket = bucket ∧ name = id
    · rw [same.1, same.2, Sources.put_self] at none
      cases none
    · rw [Sources.put_of_ne sources _ same] at none
      exact tracks.unknown bracket name none
  · intro bracket name own
    by_cases same : bracket.bucket = bucket ∧ name = id
    · rw [same.1, same.2, Sources.put_self] at own
      cases own
    · rw [Sources.put_of_ne sources _ same] at own
      rw [kept _ _ same]
      exact tracks.opener bracket name own

theorem Tracks.seed (tracks : Tracks state record sources) (authoritative : Bool) (bucket : Bucket) (id : String)
    (owner : Owner) : Tracks state (record.seed authoritative bucket id owner) (sources.put bucket id .outside) := by
  apply tracks.put
  · cases authoritative with
    | true =>
      have written : record.seed true bucket id owner (.owner bucket id) = some owner := record.put_self _ _
      rw [written]
      rfl
    | false =>
      have claimed := record.claim_self bucket id owner
      exact (congrArg Option.isSome claimed).trans rfl
  · intro another name different
    exact record.seed_of_ne authoritative bucket id owner (owner_ne different)

theorem Tracks.seedMessages (tracks : Tracks state record sources) (authoritative : Bool) (messages : List Message) :
    Tracks state (record.seedMessages authoritative messages) (sources.seedMessages messages) := by
  induction messages generalizing record sources with
  | nil => exact tracks
  | cons message rest ih =>
    have calls : ∀ (calls : List ToolCall) {record : Record} {sources : Sources}, Tracks state record sources ->
        Tracks state
          (calls.foldl (fun record call =>
            record.seed authoritative .toolCall call.id message.subagentRunId.toOption) record)
          (calls.foldl (fun sources call => sources.put .toolCall call.id .outside) sources) := by
      intro calls
      induction calls with
      | nil => exact fun tracks => tracks
      | cons call others ih => exact fun tracks => ih (tracks.seed authoritative .toolCall call.id _)
    exact ih (calls message.calls (tracks.seed authoritative (.ofRole message.role) message.id _))

@[simp] theorem ownersOf_withOwners (state : EventVerifier) (bracket other : Bracket)
    (owners : OrderedMap String Owner) :
    (state.withOwners bracket owners).ownersOf other = if other = bracket then owners else state.ownersOf other := by
  cases bracket <;> cases other <;> rfl

theorem ownersOf_withOpened (state : EventVerifier) (bracket other : Bracket) (ids : OrderedSet String) :
    (state.withOpened bracket ids).ownersOf other = state.ownersOf other := by
  cases bracket <;> cases other <;> rfl

/-- A table after the first opener of an id has been recorded. -/
def Claimed (state next : EventVerifier) (bracket : Bracket) (id : String) (owner : Owner) : Prop :=
  ∀ other name, (next.ownersOf other).get? name =
    if other = bracket ∧ name = id then some (((state.ownersOf bracket).get? id).getD owner)
    else (state.ownersOf other).get? name

theorem claimed_claim (state : EventVerifier) (bracket : Bracket) (id : String) (owner : Owner) :
    Claimed state (state.claim bracket id owner) bracket id owner := by
  intro other name
  unfold claim OrderedMap.has
  cases known : (state.ownersOf bracket).get? id with
  | some present =>
    rw [Option.isSome_some, if_pos rfl]
    split
    · rename_i same
      rw [same.1, same.2]
      exact known
    · rfl
  | none =>
    rw [if_neg (by simp), ownersOf_withOwners]
    by_cases same : other = bracket
    · rw [if_pos same, OrderedMap.get?_set, same]
      by_cases named : name = id
      · rw [if_pos named, if_pos ⟨rfl, named⟩]
        rfl
      · rw [if_neg named, if_neg fun both => named both.2]
    · rw [if_neg same, if_neg fun both => same both.1]

/-- An opener that records one owner in both leaves it known to both. -/
theorem Tracks.claim (tracks : Tracks state record sources) {bracket : Bracket} {id : String} {owner recorded : Owner}
    {source : Source} (own : ∀ another, source = .opener another -> another = bracket ∧ owner = recorded)
    (claimed : Claimed state next bracket id owner) :
    Tracks next (record.claim bracket.bucket id recorded) (sources.claim bracket.bucket id source) := by
  constructor
  · intro another name
    by_cases same : another.bucket = bracket.bucket ∧ name = id
    · rw [same.1, same.2, Sources.claim_self, Record.claim_self]
      rfl
    · rw [Sources.claim_of_ne sources _ same, record.claim_of_ne _ _ _ (owner_ne same), tracks.recorded]
  · intro another name none
    by_cases same : another.bucket = bracket.bucket ∧ name = id
    · rw [same.1, same.2, Sources.claim_self] at none
      cases none
    · rw [Sources.claim_of_ne sources _ same] at none
      rw [claimed, if_neg fun both => same ⟨by rw [both.1], both.2⟩]
      exact tracks.unknown another name none
  · intro another name opened
    by_cases same : another.bucket = bracket.bucket ∧ name = id
    · rcases same with ⟨bucket, rfl⟩
      rw [bucket, Sources.claim_self] at opened
      have present := tracks.recorded bracket name
      rw [bucket, record.claim_self, claimed]
      cases known : sources bracket.bucket name with
      | none =>
        -- the first owner under the id: both record it now
        rw [known] at opened present
        rcases own another (Option.some.inj opened) with ⟨rfl, rfl⟩
        rw [if_pos ⟨rfl, rfl⟩, tracks.unknown another name known,
          Option.not_isSome_iff_eq_none.mp (Bool.eq_false_iff.mp present.symm)]
      | some from_ =>
        -- an owner is there and stays
        rw [known] at opened present
        have earlier := tracks.opener another name (by rw [bucket, known]; exact opened)
        rw [bucket] at earlier
        rcases Option.isSome_iff_exists.mp present.symm with ⟨owned, found⟩
        rw [found] at earlier ⊢
        split
        · rename_i both
          rw [← both.1, earlier]
          rfl
        · exact earlier
    · rw [Sources.claim_of_ne sources _ same] at opened
      rw [record.claim_of_ne _ _ _ (owner_ne same), claimed, if_neg fun both => same ⟨by rw [both.1], both.2⟩]
      exact tracks.opener another name opened

end EventVerifier

end Kotlin
end AgUi
