import AgUi.Verify.Refinement

namespace AgUi
namespace Verify

open Library Protocol

/-!
# What an event touches

An event touches a few keys of the verifier's record and writes fewer.  What it
does not write it leaves as it is, and two records that agree on what it touches
allow it alike and agree on what it writes afterwards.
-/

/-! ## Footprints -/

/-- The keys that opening an entity writes. -/
def OpeningKey (bracket : Bracket) (id : String) (key : Key) : Prop :=
  key = .opened bracket id ∨ key = .owner bracket.bucket id

/-- The keys that continuing an entity reads: its owner only under a tag. -/
def ContinuingKey (bracket : Bracket) (tag : Option String) (id : String) (key : Key) : Prop :=
  key = .opened bracket id ∨ (tag.isSome ∧ key = .owner bracket.bucket id)

def SubagentKey (tag : Option String) (key : Key) : Prop :=
  ∃ id, tag = some id ∧ key = .subagent id

/-- The owners a replayed message puts on record. -/
def SeededKey (messages : List Message) (key : Key) : Prop :=
  ∃ message ∈ messages,
    (key = .owner (.ofRole message.role) message.id ∨
      ∃ call ∈ message.calls, key = .owner .toolCall call.id)

/-- The keys of the record an event may change. -/
def Writes : Event -> Key -> Prop
  | .textMessageStart e, key => OpeningKey .textMessage e.messageId key
  | .textMessageEnd e, key => key = .opened .textMessage e.messageId
  | .toolCallStart e, key => OpeningKey .toolCall e.toolCallId key
  | .toolCallEnd e, key => key = .opened .toolCall e.toolCallId
  | .stepStarted e, key => key = .step e.subagentRunId.toOption e.stepName
  | .stepFinished e, key => key = .step e.subagentRunId.toOption e.stepName
  | .activitySnapshot e, key => key = .owner .activity e.messageId
  | .toolCallResult e, key => key = .owner .message e.messageId
  | .reasoningStart e, key => OpeningKey .reasoningSpan e.messageId key
  | .reasoningMessageStart e, key => OpeningKey .reasoningMessage e.messageId key
  | .reasoningMessageEnd e, key => key = .opened .reasoningMessage e.messageId
  | .reasoningEnd e, key => key = .opened .reasoningSpan e.messageId
  | .subagentStarted e, key => SubagentKey e.subagentRunId.toOption key
  | .subagentFinished e, key => SubagentKey e.subagentRunId.toOption key
  | .subagentError e, key => SubagentKey e.subagentRunId.toOption key
  | .messagesSnapshot e, key => SeededKey e.messages key
  | .runStarted _, _ => True
  | .runFinished _, key => key = .phase
  | .runError _, key => key = .phase
  | _, _ => False

/-- The keys an event looks at besides those it may change and the phase. -/
def Reads : Event -> Key -> Prop
  | .textMessageContent e, key => ContinuingKey .textMessage e.subagentRunId.toOption e.messageId key
  | .textMessageEnd e, key => ContinuingKey .textMessage e.subagentRunId.toOption e.messageId key
  | .toolCallStart e, key =>
    ∃ parent, e.parentMessageId = some parent ∧ key = .owner .message parent
  | .toolCallArgs e, key => ContinuingKey .toolCall e.subagentRunId.toOption e.toolCallId key
  | .toolCallEnd e, key => ContinuingKey .toolCall e.subagentRunId.toOption e.toolCallId key
  | .reasoningMessageContent e, key =>
    ContinuingKey .reasoningMessage e.subagentRunId.toOption e.messageId key
  | .reasoningMessageEnd e, key =>
    ContinuingKey .reasoningMessage e.subagentRunId.toOption e.messageId key
  | .reasoningEnd e, key => ContinuingKey .reasoningSpan e.subagentRunId.toOption e.messageId key
  | .reasoningEncryptedValue e, key =>
    e.subagentRunId.toOption.isSome ∧ ∃ bucket, key = .owner bucket e.entityId
  | .activityDelta e, key => e.subagentRunId.toOption.isSome ∧ key = .owner .activity e.messageId
  | .subagentStarted e, key => SubagentKey e.parentSubagentRunId.toOption key
  | .runFinished _, _ => True
  | _, _ => False

def Touches (event : Event) (key : Key) : Prop :=
  key = .phase ∨ Reads event key ∨ Writes event key

/-- Two records that agree on what an event touches. -/
abbrev AgreeOn (event : Event) (record other : Record) : Prop :=
  ∀ key, Touches event key -> record key = other key

/-! ### What an event changes -/

variable (record : Record)

theorem openNext_of_ne (bracket : Bracket) (tag : Option String) (id : String) {key : Key}
    (apart : ¬ OpeningKey bracket id key) : openNext record bracket tag id key = record key := by
  have parts := not_or.mp apart
  exact (Record.claim_of_ne _ _ _ _ parts.2).trans (record.put_of_ne _ parts.1)

theorem callNext_of_ne (tag : Option String) (toolCallId : String)
    (parentMessageId : Option String) {key : Key} (apart : ¬ OpeningKey .toolCall toolCallId key) :
    callNext record tag toolCallId parentMessageId key = record key := by
  have parts := not_or.mp apart
  exact (Record.claim_of_ne _ _ _ _ parts.2).trans (record.put_of_ne _ parts.1)

theorem subagentNext_of_apart (tag : Option String) (status : SubagentStatus) {key : Key}
    (apart : ¬ SubagentKey tag key) : subagentNext record tag status key = record key := by
  cases tag with
  | none => rfl
  | some id => exact record.put_of_ne _ fun same => apart ⟨id, rfl, same⟩

theorem seedMessages_of_apart (authoritative : Bool) (messages : List Message) {key : Key}
    (apart : ¬ SeededKey messages key) (record : Record) :
    record.seedMessages authoritative messages key = record key := by
  induction messages generalizing record with
  | nil => rfl
  | cons message rest ih =>
    have later : ¬ SeededKey rest key := by
      rintro ⟨other, member, seeded⟩
      exact apart ⟨other, List.mem_cons_of_mem _ member, seeded⟩
    have calls_same : ∀ (calls : List ToolCall) (record : Record),
        (∀ call ∈ calls, key ≠ .owner .toolCall call.id) ->
        calls.foldl (fun record call =>
          record.seed authoritative .toolCall call.id message.subagentRunId.toOption) record key =
            record key := by
      intro calls
      induction calls with
      | nil => exact fun _ _ => rfl
      | cons call others ih =>
        intro record different
        exact (ih _ (List.forall_mem_cons.mp different).2).trans
          (record.seed_of_ne _ _ _ _ (different call List.mem_cons_self))
    have own : record.seedMessage authoritative message key = record key := by
      refine (calls_same message.calls _ ?_).trans (record.seed_of_ne _ _ _ _ ?_)
      · intro call member same
        exact apart ⟨message, List.mem_cons_self, .inr ⟨call, member, same⟩⟩
      · intro same
        exact apart ⟨message, List.mem_cons_self, .inl same⟩
    exact (ih later _).trans own

theorem next_of_not_writes {event : Event} {key : Key} (untouched : ¬ Writes event key) :
    next record event key = record key := by
  cases event with
  | textMessageStart e | reasoningStart e | reasoningMessageStart e =>
    exact openNext_of_ne record _ _ _ untouched
  | toolCallStart e => exact callNext_of_ne record _ _ _ untouched
  | textMessageEnd e | toolCallEnd e | reasoningMessageEnd e | reasoningEnd e | stepStarted e
  | stepFinished e | toolCallResult e | runFinished e | runError e =>
    exact record.put_of_ne _ untouched
  | activitySnapshot e => exact activityNext_of_ne record _ _ _ untouched
  | subagentStarted e | subagentFinished e | subagentError e =>
    exact subagentNext_of_apart record _ _ untouched
  | messagesSnapshot e => exact seedMessages_of_apart _ _ untouched record
  | runStarted e => exact absurd trivial untouched
  | _ => rfl

/-! ### What an event depends on -/

section Local

variable {record other : Record} {key : Key}

theorem claim_congr (bucket : Bucket) (id : String) (owner : Owner) (same : record key = other key) :
    record.claim bucket id owner key = other.claim bucket id owner key := by
  by_cases found : key = .owner bucket id
  · subst found
    simp only [Record.claim, same]
    split
    · exact same
    · rw [Record.put_self, Record.put_self]
  · rw [Record.claim_of_ne _ _ _ _ found, Record.claim_of_ne _ _ _ _ found, same]

theorem put_congr (written : Key) (value : written.Value) (same : record key = other key) :
    record.put written value key = other.put written value key := by
  by_cases found : key = written
  · subst found
    rw [Record.put_self, Record.put_self]
  · rw [Record.put_of_ne _ _ found, Record.put_of_ne _ _ found, same]

theorem seed_congr (authoritative : Bool) (bucket : Bucket) (id : String) (owner : Owner)
    (same : record key = other key) :
    record.seed authoritative bucket id owner key = other.seed authoritative bucket id owner key := by
  cases authoritative with
  | true => exact put_congr _ _ same
  | false => exact claim_congr bucket id owner same

theorem seedMessages_congr (authoritative : Bool) (messages : List Message) (same : record key = other key) :
    record.seedMessages authoritative messages key = other.seedMessages authoritative messages key := by
  induction messages generalizing record other with
  | nil => exact same
  | cons message rest ih =>
    refine ih ?_
    have calls_same : ∀ (calls : List ToolCall) (record other : Record), record key = other key ->
        calls.foldl (fun record call =>
          record.seed authoritative .toolCall call.id message.subagentRunId.toOption) record key =
        calls.foldl (fun record call =>
          record.seed authoritative .toolCall call.id message.subagentRunId.toOption) other key := by
      intro calls
      induction calls with
      | nil => exact fun _ _ same => same
      | cons call others ih =>
        exact fun _ _ same => ih _ _ (seed_congr _ _ _ _ same)
    exact calls_same message.calls _ _ (seed_congr _ _ _ _ same)

theorem activityNext_congr (tag : Option String) (messageId : String) (replace : Option Bool)
    (same : record (.owner .activity messageId) = other (.owner .activity messageId)) :
    activityNext record tag messageId replace (.owner .activity messageId) =
      activityNext other tag messageId replace (.owner .activity messageId) := by
  simp only [activityNext, same]
  split
  · rw [Record.put_self, Record.put_self]
  · exact same

theorem inheritedOwner_congr (parentMessageId : Option String)
    (same : ∀ parent, parentMessageId = some parent ->
      record (.owner .message parent) = other (.owner .message parent)) :
    inheritedOwner record parentMessageId = inheritedOwner other parentMessageId := by
  cases parentMessageId with
  | none => rfl
  | some parent => exact same parent rfl

end Local

theorem next_congr {record other : Record} {event : Event} (agree : AgreeOn event record other) (key : Key)
    (written : Writes event key) : next record event key = next other event key := by
  have same : record key = other key := agree key (.inr (.inr written))
  cases event with
  | textMessageStart e | reasoningStart e | reasoningMessageStart e =>
    exact claim_congr _ _ _ (put_congr _ _ same)
  | toolCallStart e =>
    have inherited : inheritedOwner record e.parentMessageId = inheritedOwner other e.parentMessageId :=
      inheritedOwner_congr _ fun parent named => agree _ (.inr (.inl ⟨parent, named, rfl⟩))
    simp only [next, callNext, inherited]
    exact claim_congr _ _ _ (put_congr _ _ same)
  | textMessageEnd e | toolCallEnd e | reasoningMessageEnd e | reasoningEnd e | stepStarted e
  | stepFinished e | toolCallResult e | runFinished e | runError e =>
    exact put_congr _ _ same
  | activitySnapshot e =>
    cases written
    exact activityNext_congr _ _ _ same
  | subagentStarted e | subagentFinished e | subagentError e =>
    rcases written with ⟨id, named, rfl⟩
    simp only [next, named, subagentNext]
    exact put_congr _ _ same
  | messagesSnapshot e => exact seedMessages_congr _ _ same
  | runStarted e => rfl
  | _ => exact written.elim

variable {tag : Option String}

theorem openAllowed_congr {record other : Record} {bracket : Bracket} {id : String}
    (agree : ∀ key, OpeningKey bracket id key -> record key = other key)
    (allowed : OpenAllowed record bracket tag id) : OpenAllowed other bracket tag id := by
  rw [OpenAllowed, ← agree _ (.inl rfl), ← agree _ (.inr rfl)]
  exact allowed

theorem continueAllowed_congr {record other : Record} {bracket : Bracket} {id : String}
    (agree : ∀ key, ContinuingKey bracket tag id key -> record key = other key)
    (allowed : ContinueAllowed record bracket tag id) : ContinueAllowed other bracket tag id := by
  rw [ContinueAllowed, ← agree _ (.inl rfl)]
  refine ⟨allowed.1, ?_⟩
  cases tag with
  | none => exact tagAgrees_none _
  | some name =>
    rw [← agree _ (.inr ⟨rfl, rfl⟩)]
    exact allowed.2

theorem tagAgrees_congr {owner other : Option Owner}
    (agree : tag.isSome -> owner = other) (agrees : TagAgrees owner tag) : TagAgrees other tag := by
  cases tag with
  | none => exact tagAgrees_none _
  | some name =>
    rw [← agree rfl]
    exact agrees

theorem phaseAllows_congr {record other : Record} {event : Event} (agree : AgreeOn event record other)
    (allowed : PhaseAllows (record .phase) event) : PhaseAllows (other .phase) event := by
  rw [← agree .phase (.inl rfl)]
  exact allowed

/-- Whether an event is allowed is settled by what it touches. -/
theorem caseAllows_congr {record other : Record} {event : Event} (agree : AgreeOn event record other)
    (allowed : CaseAllows record event) : CaseAllows other event := by
  have read : ∀ key, Reads event key -> record key = other key := fun key reads =>
    agree key (.inr (.inl reads))
  have written : ∀ key, Writes event key -> record key = other key := fun key writes =>
    agree key (.inr (.inr writes))
  cases event with
  | textMessageStart e | reasoningStart e | reasoningMessageStart e =>
    exact openAllowed_congr written allowed
  | textMessageContent e | textMessageEnd e | toolCallArgs e | toolCallEnd e | reasoningMessageContent e
  | reasoningMessageEnd e | reasoningEnd e =>
    exact continueAllowed_congr read allowed
  | toolCallStart e =>
    have inherited : inheritedOwner record e.parentMessageId = inheritedOwner other e.parentMessageId :=
      inheritedOwner_congr _ fun parent named => read _ ⟨parent, named, rfl⟩
    have own : record (.owner .toolCall e.toolCallId) = other (.owner .toolCall e.toolCallId) :=
      written _ (.inr rfl)
    constructor
    · rw [← written _ (.inl rfl)]
      exact allowed.closed
    · rw [← inherited]
      exact allowed.parent
    · rw [← own]
      exact allowed.reopen
    · rw [← inherited, ← own]
      exact allowed.inherit
  | stepStarted e | stepFinished e => exact (written _ rfl).symm.trans allowed
  | reasoningEncryptedValue e =>
    refine tagAgrees_congr (fun tagged => ?_) allowed
    have same := fun bucket : Bucket => read (.owner bucket e.entityId) ⟨tagged, bucket, rfl⟩
    unfold encryptedOwner
    rw [same, same, same]
  | activityDelta e => exact tagAgrees_congr (fun tagged => read _ ⟨tagged, rfl⟩) allowed
  | subagentStarted e =>
    refine ⟨allowed.named, ?_, ?_⟩
    · rcases allowed.identified with ⟨id, named, unknown⟩
      exact ⟨id, named, (written _ ⟨id, named, rfl⟩).symm.trans unknown⟩
    · intro id named
      have known := allowed.parent id named
      rwa [read _ ⟨id, named, rfl⟩] at known
  | subagentFinished e =>
    rcases allowed with ⟨id, named, active⟩
    exact ⟨id, named, (written _ ⟨id, named, rfl⟩).symm.trans active⟩
  | subagentError e =>
    rcases allowed with ⟨described, id, named, active⟩
    exact ⟨described, id, named, (written _ ⟨id, named, rfl⟩).symm.trans active⟩
  | messagesSnapshot e => exact allowed
  | runStarted e => exact allowed
  | runFinished e =>
    have same : record = other := funext fun key => read key trivial
    rw [← same]
    exact allowed
  | _ => trivial

theorem allows_congr {record other : Record} {event : Event} (agree : AgreeOn event record other)
    (allowed : Allows record event) : Allows other event where
  phase := phaseAllows_congr agree allowed.phase
  fields := allowed.fields
  case := caseAllows_congr agree allowed.case

end Verify
end AgUi
