import AgUi.Library.Since
import AgUi.Verify.Refinement

namespace AgUi
namespace Verify

open Library Protocol

/-!
# The protocol rules, and that the verifier decides them

The rules are stated about a finite stream by looking back from each of its
positions, with no state at all: an item is open if something opened it and
nothing has closed it since, within the same run.  For streams in which only
the lifecycle events of subagents name a subagent, the verifier accepts
exactly the streams that keep the rules.
-/

/-- What one event opens and another closes, named as the protocol names it. -/
inductive Item where
  | entity (bracket : Bracket) (id : String)
  | step (name : String)
  | subagent (id : String)
deriving DecidableEq

/-- The item a START or STARTED event opens. -/
def opens? : Event -> Option Item
  | .textMessageStart e => some (.entity .textMessage e.messageId)
  | .toolCallStart e => some (.entity .toolCall e.toolCallId)
  | .reasoningStart e => some (.entity .reasoningSpan e.messageId)
  | .reasoningMessageStart e => some (.entity .reasoningMessage e.messageId)
  | .stepStarted e => some (.step e.stepName)
  | .subagentStarted e => e.subagentRunId.toOption.map .subagent
  | _ => none

/-- The item a CONTENT or ARGS event adds to. -/
def continues? : Event -> Option Item
  | .textMessageContent e => some (.entity .textMessage e.messageId)
  | .toolCallArgs e => some (.entity .toolCall e.toolCallId)
  | .reasoningMessageContent e => some (.entity .reasoningMessage e.messageId)
  | _ => none

/-- The item an END, FINISHED or ERROR event closes. -/
def closes? : Event -> Option Item
  | .textMessageEnd e => some (.entity .textMessage e.messageId)
  | .toolCallEnd e => some (.entity .toolCall e.toolCallId)
  | .reasoningEnd e => some (.entity .reasoningSpan e.messageId)
  | .reasoningMessageEnd e => some (.entity .reasoningMessage e.messageId)
  | .stepFinished e => some (.step e.stepName)
  | .subagentFinished e => e.subagentRunId.toOption.map .subagent
  | .subagentError e => e.subagentRunId.toOption.map .subagent
  | _ => none

/-- The subagent a `SUBAGENT_STARTED` names as its parent. -/
def parent? : Event -> Option String
  | .subagentStarted e => e.parentSubagentRunId.toOption
  | _ => none

/-! ## Looking back -/

/-- A run has started and not ended since. -/
def Running (past : List Event) : Prop :=
  Since (fun event => event.type = .runStarted)
    (fun event => event.type = .runFinished ∨ event.type = .runError) past

def Finished (past : List Event) : Prop :=
  Since (fun event => event.type = .runFinished) (fun event => event.type = .runStarted) past

def Errored (past : List Event) : Prop :=
  Since (fun event => event.type = .runError) (fun event => event.type = .runStarted) past

/-- Opened in the current run and not closed in it. -/
def IsOpen (past : List Event) (item : Item) : Prop :=
  Since (fun event => opens? event = some item)
    (fun event => closes? event = some item ∨ event.type = .runStarted) past

/-- Opened in the current run, whatever came of it. -/
def WasOpened (past : List Event) (item : Item) : Prop :=
  Since (fun event => opens? event = some item) (fun event => event.type = .runStarted) past

/-! ## The rules -/

/-- What the protocol asks of the items an event names. -/
structure ItemRules (past : List Event) (event : Event) : Prop where
  opening : ∀ item, opens? event = some item -> ¬ IsOpen past item
  continuing : ∀ item, continues? event = some item -> IsOpen past item
  closing : ∀ item, closes? event = some item -> IsOpen past item
  oneInvocation : ∀ id, opens? event = some (.subagent id) -> ¬ WasOpened past (.subagent id)
  startedParent : ∀ parent, parent? event = some parent -> WasOpened past (.subagent parent)
  finishing : event.type = .runFinished -> ∀ item, ¬ IsOpen past item

/-- What the protocol asks of an event, given the events before it. -/
structure RuleAt (past : List Event) (event : Event) : Prop extends ItemRules past event where
  first : past = [] -> event.type = .runStarted ∨ event.type = .runError
  oneRun : event.type = .runStarted -> ¬ Running past
  afterFinish : Finished past -> event.type = .runStarted ∨ event.type = .runError
  afterError : Errored past -> event.type = .runStarted

/-- Every event meets the rules for what came before it. -/
def ProtocolRules (events : List Event) : Prop :=
  EverywhereOn RuleAt events

/-- A lifecycle outcome the verifier takes: `null`, or an object whose `type`
is one of two and whose `interruptIds`, if it is there, is not `null` and, if
it is an array, holds strings. -/
def WellFormedOutcome (outcome : Json) : Prop :=
  outcome.isNull = true ∨
    ((outcome.member? "type" = some (.string "success") ∨
        outcome.member? "type" = some (.string "suspended")) ∧
      outcome.member? "interruptIds" ≠ some .null ∧
      ∀ items, outcome.member? "interruptIds" = some (.array items) ->
        items.all Json.isString = true)

/-- Whatever lifecycle event carries an `outcome`, described by its schema or
not, carries a well-formed one. -/
def WellFormedOutcomes (events : List Event) : Prop :=
  ∀ event ∈ events, ∀ outcome, lifecycleOutcome event = some outcome ->
    WellFormedOutcome outcome

/-! ## The streams the rules are about -/

/-- The messages an event carries inside it. -/
def carried : Event -> List Message
  | .messagesSnapshot e => e.messages
  | .runStarted e => echoed e
  | _ => []

def interrupts : Event -> List Interrupt
  | .runFinished e =>
    match e.outcome with
    | some (.interrupt interrupts) => interrupts
    | _ => []
  | _ => []

/-- The outcome its schema describes: `success`, or `suspended` with a list
of interrupt ids that may be left out. -/
def DescribedOutcome (outcome : Json) : Prop :=
  outcome.member? "type" = some (.string "success") ∨
    (outcome.member? "type" = some (.string "suspended") ∧
      (outcome.member? "interruptIds" = none ∨
        ∃ items, outcome.member? "interruptIds" = some (.array items) ∧
          items.all Json.isString = true))

/-- What the schemas ask of the fields that the verifier reads.  A property a
schema does not describe is let through by it, whatever its value. -/
structure SchemaValid (event : Event) : Prop where
  required : event.isSubagentLifecycle = true -> event.subagentRunId.toOption.isSome
  name : ∀ e, event = .subagentStarted e -> e.name.isSome
  message : ∀ e, event = .subagentError e -> e.message.isSome
  optional : ∀ field ∈ lifecycleNulls event, field.2 = false
  outcome : ∀ e, event = .subagentFinished e -> ∀ outcome, e.outcome = some outcome ->
    DescribedOutcome outcome
  messages : NoNullTags (carried event)
  interrupts : ∀ interrupt ∈ interrupts event, interrupt.subagentRunId.isNull = false

/-- Only the lifecycle events of subagents name a subagent. -/
structure Unattributed (event : Event) : Prop where
  tag : event.isSubagentLifecycle = false -> event.subagentRunId.toOption = none
  messages : ∀ message ∈ carried event, message.subagentRunId.toOption = none

/-! ## The record of such a stream -/

def Item.IsOpenIn (record : Record) : Item -> Prop
  | .entity bracket id => record (.opened bracket id) = true
  | .step name => record (.step none name) = true
  | .subagent id => record (.subagent id) = .active

/-- Every owner on record is the parent agent. -/
def OwnedByParent (record : Record) : Prop :=
  ∀ bucket id owner, record (.owner bucket id) = some owner -> owner = none

/-- The record says of the run in progress what looking back says. -/
structure Tracks (past : List Event) (record : Record) : Prop where
  running : record .phase = .active ↔ Running past
  settled : record .phase = .active ↔ past ≠ [] ∧ ¬ Finished past ∧ ¬ Errored past
  errored : record .phase = .errored ↔ Errored past
  items : ∀ item, item.IsOpenIn record ↔ IsOpen past item
  known : ∀ id, record (.subagent id) ≠ .unknown ↔ WasOpened past (.subagent id)
  steps : ∀ subagent name, record (.step (some subagent) name) = false
  owners : OwnedByParent record

theorem tracks_blank : Tracks [] Record.blank where
  running := iff_of_false Phase.noConfusion (not_since_nil _ _)
  settled := iff_of_false Phase.noConfusion fun impossible => impossible.1 rfl
  errored := iff_of_false Phase.noConfusion (not_since_nil _ _)
  items := by
    intro item
    apply iff_of_false _ (not_since_nil _ _)
    cases item with
    | entity bracket id | step name => exact Bool.noConfusion
    | subagent id => exact SubagentStatus.noConfusion
  known := fun id => iff_of_false (fun impossible => impossible rfl) (not_since_nil _ _)
  steps := fun subagent name => rfl
  owners := by
    intro bucket id owner impossible
    cases impossible

/-! ## Owners -/

theorem ownedByParent_put {record : Record} (owned : OwnedByParent record) (bucket : Bucket)
    (id : String) : OwnedByParent (record.put (.owner bucket id) (some none)) := by
  intro other name owner found
  rw [Record.put_owner] at found
  split at found
  · exact (Option.some.inj found).symm
  · exact owned other name owner found

theorem ownedByParent_of_same {record other : Record} (owned : OwnedByParent record)
    (same : ∀ bucket id, other (.owner bucket id) = record (.owner bucket id)) :
    OwnedByParent other := by
  intro bucket id owner found
  rw [same] at found
  exact owned bucket id owner found

theorem ownedByParent_claim {record : Record} (owned : OwnedByParent record) (bucket : Bucket)
    (id : String) : OwnedByParent (record.claim bucket id none) := by
  rw [Record.claim]
  split
  · exact owned
  · exact ownedByParent_put owned bucket id

theorem ownedByParent_seedMessages {record : Record} (owned : OwnedByParent record)
    (authoritative : Bool) {messages : List Message}
    (untagged : ∀ message ∈ messages, message.subagentRunId.toOption = none) :
    OwnedByParent (record.seedMessages authoritative messages) := by
  refine Record.seedMessages_induction OwnedByParent authoritative messages ?_ owned
  intro record bucket id message member owned
  rw [untagged message member, Record.seed]
  split
  · exact ownedByParent_put owned bucket id
  · exact ownedByParent_claim owned bucket id

theorem ownedByParent_blank : OwnedByParent Record.blank := by
  intro bucket id owner impossible
  cases impossible

theorem inheritedOwner_of_owned {record : Record} (owned : OwnedByParent record)
    (parentMessageId : Option String) (owner : Owner)
    (inherited : inheritedOwner record parentMessageId = some owner) : owner = none := by
  obtain ⟨parent, _, found⟩ := Option.bind_eq_some_iff.mp inherited
  exact owned .message parent owner found

theorem ownedByParent_next {record : Record} (owned : OwnedByParent record) {event : Event}
    (unattributed : Unattributed event) : OwnedByParent (next record event) := by
  have opened : ∀ bracket id, OwnedByParent (openNext record bracket none id) := by
    intro bracket id
    exact ownedByParent_claim (ownedByParent_of_same owned fun bucket name =>
      record.put_of_ne _ Key.noConfusion) _ _
  have other : ∀ (key : Key) (value : key.Value), (∀ bucket id, Key.owner bucket id ≠ key) ->
      OwnedByParent (record.put key value) := by
    intro key value apart
    exact ownedByParent_of_same owned fun bucket id => record.put_of_ne value (apart bucket id)
  have tag := unattributed.tag
  have messages := unattributed.messages
  cases event with
  | textMessageStart e | reasoningStart e | reasoningMessageStart e =>
    rw [next, show e.subagentRunId.toOption = none from tag rfl]
    exact opened _ _
  | textMessageEnd e | toolCallEnd e | reasoningMessageEnd e | reasoningEnd e | stepStarted e
  | stepFinished e | runFinished e | runError e =>
    exact other _ _ fun bucket id => Key.noConfusion
  | toolCallStart e =>
    rw [next, callNext, show e.subagentRunId.toOption = none from tag rfl]
    have inherited : (inheritedOwner record e.parentMessageId).join = none := by
      cases found : inheritedOwner record e.parentMessageId with
      | none => rfl
      | some owner => exact inheritedOwner_of_owned owned _ _ found
    rw [inherited]
    exact ownedByParent_claim (other _ _ fun bucket id => Key.noConfusion) _ _
  | toolCallResult e =>
    rw [next, show e.subagentRunId.toOption = none from tag rfl]
    exact ownedByParent_put owned _ _
  | activitySnapshot e =>
    rw [next, activityNext, show e.subagentRunId.toOption = none from tag rfl]
    split
    · exact ownedByParent_put owned _ _
    · exact owned
  | subagentStarted e | subagentFinished e | subagentError e =>
    simp only [next, subagentNext]
    split
    · exact other _ _ fun bucket id => Key.noConfusion
    · exact owned
  | messagesSnapshot e => exact ownedByParent_seedMessages owned true messages
  | runStarted e =>
    refine ownedByParent_seedMessages ?_ false messages
    exact ownedByParent_of_same ownedByParent_blank fun bucket id =>
      Record.put_of_ne _ _ Key.noConfusion
  | _ => exact owned

/-! ## Items -/

/-- The one key that says whether an item is open. -/
def Item.key : Item -> Key
  | .entity bracket id => .opened bracket id
  | .step name => .step none name
  | .subagent id => .subagent id

theorem isOpenIn_of_same {record other : Record} {item : Item}
    (same : other item.key = record item.key) : item.IsOpenIn other ↔ item.IsOpenIn record := by
  cases item with
  | entity bracket id | step name => exact iff_of_eq (congrArg (fun value => value = true) same)
  | subagent id => exact iff_of_eq (congrArg (fun value => value = SubagentStatus.active) same)

theorem key_ne_owner (item : Item) (bucket : Bucket) (id : String) : item.key ≠ .owner bucket id := by
  cases item <;> exact Key.noConfusion

theorem key_ne_phase (item : Item) : item.key ≠ .phase := by
  cases item <;> exact Key.noConfusion

theorem key_injective {left right : Item} (same : left.key = right.key) : left = right := by
  cases left <;> cases right <;> cases same <;> rfl

variable (record : Record)

section

variable (item : Item)

include item

@[simp] theorem isOpenIn_put_owner (bucket : Bucket) (id : String)
    (owner : Option Owner) : item.IsOpenIn (record.put (.owner bucket id) owner) ↔ item.IsOpenIn record :=
  isOpenIn_of_same (record.put_of_ne _ (key_ne_owner item bucket id))

@[simp] theorem isOpenIn_put_phase (phase : Phase) :
    item.IsOpenIn (record.put .phase phase) ↔ item.IsOpenIn record :=
  isOpenIn_of_same (record.put_of_ne _ (key_ne_phase item))

@[simp] theorem isOpenIn_claim (bucket : Bucket) (id : String)
    (owner : Owner) : item.IsOpenIn (record.claim bucket id owner) ↔ item.IsOpenIn record :=
  isOpenIn_of_same (record.claim_of_ne bucket id owner (key_ne_owner item bucket id))

@[simp] theorem isOpenIn_seedMessages (authoritative : Bool) (messages : List Message) :
    item.IsOpenIn (record.seedMessages authoritative messages) ↔ item.IsOpenIn record :=
  isOpenIn_of_same (record.seedMessages_of_not_owner authoritative messages (key_ne_owner item))

@[simp] theorem isOpenIn_put_opened (bracket : Bracket) (id : String) (value : Bool) :
    item.IsOpenIn (record.put (.opened bracket id) value) ↔
      if item = .entity bracket id then value = true else item.IsOpenIn record := by
  by_cases same : item = .entity bracket id
  · subst same
    simp [Item.IsOpenIn]
  · rw [if_neg same]
    exact isOpenIn_of_same (record.put_of_ne _ fun equal => same (key_injective equal))

@[simp] theorem isOpenIn_put_step (name : String) (value : Bool) :
    item.IsOpenIn (record.put (.step none name) value) ↔
      if item = .step name then value = true else item.IsOpenIn record := by
  by_cases same : item = .step name
  · subst same
    simp [Item.IsOpenIn]
  · rw [if_neg same]
    exact isOpenIn_of_same (record.put_of_ne _ fun equal => same (key_injective equal))

@[simp] theorem isOpenIn_put_subagent (id : String) (status : SubagentStatus) :
    item.IsOpenIn (record.put (.subagent id) status) ↔
      if item = .subagent id then status = .active else item.IsOpenIn record := by
  by_cases same : item = .subagent id
  · subst same
    simp [Item.IsOpenIn]
  · rw [if_neg same]
    exact isOpenIn_of_same (record.put_of_ne _ fun equal => same (key_injective equal))

theorem not_isOpenIn_blank : ¬ item.IsOpenIn Record.blank := by
  cases item with
  | entity bracket id | step name => exact Bool.noConfusion
  | subagent id => exact SubagentStatus.noConfusion

end

theorem opening_iff (opened item : Item) (held : Prop) :
    (if item = opened then True else held) ↔ some opened = some item ∨ held := by
  by_cases same : item = opened
  · simp [same]
  · simp [same, Ne.symm same]

theorem closing_iff (closed item : Item) (held : Prop) :
    (if item = closed then False else held) ↔ held ∧ ¬ some closed = some item := by
  by_cases same : item = closed
  · simp [same]
  · simp [same, Ne.symm same]

/-- A step of any agent leaves what is no step as it is. -/
theorem isOpenIn_put_anyStep {item : Item} (noStep : ∀ name, item ≠ .step name)
    (owner : Owner) (name : String) (value : Bool) :
    item.IsOpenIn (record.put (.step owner name) value) ↔ item.IsOpenIn record := by
  apply isOpenIn_of_same
  apply record.put_of_ne
  cases item with
  | entity bracket id | subagent id => exact Key.noConfusion
  | step other => exact absurd rfl (noStep other)

/-- What an event opens and closes, read off the record.  Of the steps only the
parent agent's are items. -/
theorem isOpenIn_next_of {event : Event} (item : Item)
    (untagged : ∀ name, item = .step name -> event.isSubagentLifecycle = false ->
      event.subagentRunId.toOption = none) :
    item.IsOpenIn (next record event) ↔
      opens? event = some item ∨
        (item.IsOpenIn record ∧ ¬ (closes? event = some item ∨ event.type = .runStarted)) := by
  cases event with
  | textMessageStart e | toolCallStart e | reasoningStart e | reasoningMessageStart e =>
    simp only [next, openNext, callNext, isOpenIn_claim, isOpenIn_put_opened, opening_iff]
    simp [opens?, closes?, Event.type]
  | textMessageEnd e | toolCallEnd e | reasoningMessageEnd e | reasoningEnd e =>
    simp only [next, closeNext, isOpenIn_put_opened, Bool.false_eq_true, closing_iff]
    simp [opens?, closes?, Event.type]
  | stepStarted e | stepFinished e =>
    by_cases noStep : ∀ name, item ≠ .step name
    · rw [next, isOpenIn_put_anyStep record noStep]
      simp [opens?, closes?, Event.type, Ne.symm (noStep e.stepName)]
    · rcases not_forall_not.mp noStep with ⟨name, same⟩
      rw [next, show e.subagentRunId.toOption = none from untagged name same rfl, isOpenIn_put_step]
      simp only [Bool.false_eq_true, opening_iff, closing_iff]
      simp [opens?, closes?, Event.type]
  | subagentStarted e =>
    simp only [next, subagentNext, opens?]
    cases e.subagentRunId.toOption with
    | none => simp [closes?, Event.type]
    | some id =>
      simp only [isOpenIn_put_subagent, opening_iff]
      simp [closes?, Event.type]
  | subagentFinished e | subagentError e =>
    simp only [next, subagentNext, closes?]
    cases e.subagentRunId.toOption with
    | none => simp [opens?, Event.type]
    | some id =>
      simp only [isOpenIn_put_subagent, reduceCtorEq, closing_iff]
      simp [opens?, Event.type]
  | runStarted e => simp [next, opens?, closes?, Event.type, not_isOpenIn_blank]
  | activitySnapshot e =>
    rw [next, activityNext]
    split <;> simp [opens?, closes?, Event.type]
  | _ => simp [next, opens?, closes?, Event.type]

theorem isOpenIn_next {event : Event} (unattributed : Unattributed event) (item : Item) :
    item.IsOpenIn (next record event) ↔
      opens? event = some item ∨
        (item.IsOpenIn record ∧ ¬ (closes? event = some item ∨ event.type = .runStarted)) :=
  isOpenIn_next_of record item fun _ _ => unattributed.tag

/-- Which subagents the run has seen, read off the record. -/
theorem known_next {event : Event} (allowed : Allows record event) (id : String) :
    next record event (.subagent id) ≠ .unknown ↔
      opens? event = some (.subagent id) ∨
        (record (.subagent id) ≠ .unknown ∧ ¬ event.type = .runStarted) := by
  cases event with
  | textMessageStart e | toolCallStart e | reasoningStart e | reasoningMessageStart e =>
    simp [next, openNext, callNext, Record.claim_of_ne, Record.put_of_ne, opens?, Event.type]
  | textMessageEnd e | toolCallEnd e | reasoningMessageEnd e | reasoningEnd e | stepStarted e
  | stepFinished e | toolCallResult e | runFinished e | runError e =>
    simp [next, closeNext, Record.put_of_ne, opens?, Event.type]
  | subagentStarted e =>
    simp only [next, subagentNext, opens?]
    cases e.subagentRunId.toOption with
    | none => simp [Event.type]
    | some other =>
      by_cases same : id = other
      · simp [same]
      · simp [same, Ne.symm same, Event.type]
  | subagentFinished e =>
    obtain ⟨other, tag, active⟩ : SubagentCloseAllowed record e.subagentRunId.toOption := allowed.case
    by_cases same : id = other
    · subst same
      simp [next, subagentNext, tag, active, opens?, Event.type]
    · simp [next, subagentNext, tag, same, opens?, Event.type]
  | subagentError e =>
    obtain ⟨_, other, tag, active⟩ : e.message.isSome ∧
      SubagentCloseAllowed record e.subagentRunId.toOption := allowed.case
    by_cases same : id = other
    · subst same
      simp [next, subagentNext, tag, active, opens?, Event.type]
    · simp [next, subagentNext, tag, same, opens?, Event.type]
  | messagesSnapshot e =>
    simp [next, Record.seedMessages_of_not_owner, opens?, Event.type]
  | runStarted e =>
    simp [next, Record.seedMessages_of_not_owner, Record.put_of_ne, Record.blank, opens?, Event.type]
  | activitySnapshot e => simp [next, activityNext_of_ne, opens?, Event.type]
  | _ => simp [next, opens?, Event.type]

theorem phase_next (event : Event) :
    next record event .phase =
      match event with
      | .runStarted _ => .active
      | .runFinished _ => .finished
      | .runError _ => .errored
      | _ => record .phase := by
  cases event with
  | textMessageStart e | toolCallStart e | reasoningStart e | reasoningMessageStart e =>
    simp [next, openNext, callNext, Record.claim_of_ne, Record.put_of_ne]
  | textMessageEnd e | toolCallEnd e | reasoningMessageEnd e | reasoningEnd e | stepStarted e
  | stepFinished e | toolCallResult e | runFinished e | runError e =>
    simp [next, closeNext, Record.put_of_ne]
  | subagentStarted e | subagentFinished e | subagentError e => simp [next, subagentNext_of_ne]
  | messagesSnapshot e | runStarted e => simp [next, Record.seedMessages_of_not_owner]
  | activitySnapshot e => simp [next, activityNext_of_ne]
  | _ => rfl

theorem steps_next {record : Record} (steps : ∀ subagent name, record (.step (some subagent) name) = false)
    {event : Event} (unattributed : Unattributed event) (subagent name : String) :
    next record event (.step (some subagent) name) = false := by
  have tag := unattributed.tag
  cases event with
  | textMessageStart e | toolCallStart e | reasoningStart e | reasoningMessageStart e =>
    simp [next, openNext, callNext, Record.claim_of_ne, Record.put_of_ne, steps]
  | textMessageEnd e | toolCallEnd e | reasoningMessageEnd e | reasoningEnd e | toolCallResult e
  | runFinished e | runError e =>
    simp [next, closeNext, Record.put_of_ne, steps]
  | stepStarted e | stepFinished e =>
    rw [next, show e.subagentRunId.toOption = none from tag rfl]
    simp [steps]
  | subagentStarted e | subagentFinished e | subagentError e => simp [next, subagentNext_of_ne, steps]
  | messagesSnapshot e => simp [next, Record.seedMessages_of_not_owner, steps]
  | runStarted e =>
    simp [next, Record.seedMessages_of_not_owner, Record.put_of_ne, Record.blank]
  | activitySnapshot e => simp [next, activityNext_of_ne, steps]
  | _ => exact steps subagent name

/-! ## One step back -/

variable (past : List Event)

theorem isOpen_snoc (event : Event) (item : Item) :
    IsOpen (past ++ [event]) item ↔
      opens? event = some item ∨
        (IsOpen past item ∧ ¬ (closes? event = some item ∨ event.type = .runStarted)) :=
  since_snoc _ _ past event

theorem wasOpened_snoc (event : Event) (item : Item) :
    WasOpened (past ++ [event]) item ↔
      opens? event = some item ∨ (WasOpened past item ∧ ¬ event.type = .runStarted) :=
  since_snoc _ _ past event

theorem running_snoc (event : Event) :
    Running (past ++ [event]) ↔
      event.type = .runStarted ∨
        (Running past ∧ ¬ (event.type = .runFinished ∨ event.type = .runError)) :=
  since_snoc _ _ past event

theorem finished_snoc (event : Event) :
    Finished (past ++ [event]) ↔
      event.type = .runFinished ∨ (Finished past ∧ ¬ event.type = .runStarted) :=
  since_snoc _ _ past event

theorem errored_snoc (event : Event) :
    Errored (past ++ [event]) ↔
      event.type = .runError ∨ (Errored past ∧ ¬ event.type = .runStarted) :=
  since_snoc _ _ past event

theorem phaseAllows_inside {phase : Phase} {event : Event} (notStart : event.type ≠ .runStarted)
    (notError : event.type ≠ .runError) : PhaseAllows phase event ↔ phase = .active := by
  cases event with
  | runStarted e => exact absurd rfl notStart
  | runError e => exact absurd rfl notError
  | _ => exact Iff.rfl

/-- An admitted event keeps the record in step with the stream. -/
theorem tracks_next {past : List Event} {record : Record} (tracks : Tracks past record) {event : Event}
    (unattributed : Unattributed event) (allowed : Allows record event) :
    Tracks (past ++ [event]) (next record event) where
  running := by
    rw [running_snoc, phase_next]
    have active := allowed.phase
    cases event with
    | runStarted e | runFinished e | runError e => simp [Event.type]
    | _ => simpa [Event.type] using tracks.running
  settled := by
    rw [finished_snoc, errored_snoc, phase_next]
    have active := allowed.phase
    cases event with
    | runStarted e | runFinished e | runError e => simp [Event.type]
    | _ =>
      have settled := tracks.settled.mp active
      simp [Event.type, settled, show record .phase = .active from active]
  errored := by
    rw [errored_snoc, phase_next]
    have active := allowed.phase
    cases event with
    | runStarted e | runError e => simp [Event.type]
    | runFinished e =>
      have settled := tracks.settled.mp active
      simp [Event.type, settled]
    | _ => simpa [Event.type] using tracks.errored
  items := by
    intro item
    rw [isOpenIn_next record unattributed, isOpen_snoc, tracks.items]
  known := by
    intro id
    rw [known_next record allowed, wasOpened_snoc, tracks.known]
  steps := steps_next tracks.steps unattributed
  owners := ownedByParent_next tracks.owners unattributed

/-! ## One step forward -/

theorem openAllowed_iff {record : Record} (bracket : Bracket) (id : String) :
    OpenAllowed record bracket none id ↔ ¬ (Item.entity bracket id).IsOpenIn record := by
  simp [OpenAllowed, tagAgrees_none, Item.IsOpenIn]

theorem continueAllowed_iff {record : Record} (bracket : Bracket) (id : String) :
    ContinueAllowed record bracket none id ↔ (Item.entity bracket id).IsOpenIn record := by
  simp [ContinueAllowed, tagAgrees_none, Item.IsOpenIn]

theorem callAllowed_iff {record : Record} (owned : OwnedByParent record) (toolCallId : String)
    (parentMessageId : Option String) :
    CallAllowed record none toolCallId parentMessageId ↔
      ¬ (Item.entity .toolCall toolCallId).IsOpenIn record := by
  constructor
  · intro allowed opened
    rw [Item.IsOpenIn, allowed.closed] at opened
    cases opened
  · intro closed
    refine ⟨Bool.eq_false_iff.mpr closed, tagAgrees_none _, tagAgrees_none _, ?_⟩
    intro _ known found inherited parent
    rw [owned _ _ _ found, inheritedOwner_of_owned owned _ _ parent]

theorem allClosed_iff {record : Record}
    (steps : ∀ subagent name, record (.step (some subagent) name) = false) :
    AllClosed record ↔ ∀ item : Item, ¬ item.IsOpenIn record := by
  constructor
  · rintro closed (⟨bracket, id⟩ | name | id) opened
    · exact Bool.eq_false_iff.mp (closed.entities bracket id) opened
    · exact Bool.eq_false_iff.mp (closed.steps none name) opened
    · exact closed.subagents id opened
  · intro closed
    refine ⟨?_, fun bracket id => Bool.eq_false_iff.mpr (closed (.entity bracket id)),
      fun id => closed (.subagent id)⟩
    intro owner name
    cases owner with
    | none => exact Bool.eq_false_iff.mpr (closed (.step name))
    | some subagent => exact steps subagent name

theorem isOpenIn_ne_unknown {record : Record} {id : String}
    (active : (Item.subagent id).IsOpenIn record) : record (.subagent id) ≠ .unknown := by
  intro unknown
  rw [Item.IsOpenIn, unknown] at active
  cases active

theorem caseAllows_iff {past : List Event} {record : Record} (tracks : Tracks past record) {event : Event}
    (valid : SchemaValid event) (unattributed : Unattributed event) :
    CaseAllows record event ↔ ItemRules past event := by
  have tag := unattributed.tag
  have ruled : ∀ {event : Event}, ItemRules past event ↔
      (∀ item, opens? event = some item -> ¬ IsOpen past item) ∧
      (∀ item, continues? event = some item -> IsOpen past item) ∧
      (∀ item, closes? event = some item -> IsOpen past item) ∧
      (∀ id, opens? event = some (.subagent id) -> ¬ WasOpened past (.subagent id)) ∧
      (∀ parent, parent? event = some parent -> WasOpened past (.subagent parent)) ∧
      (event.type = .runFinished -> ∀ item, ¬ IsOpen past item) :=
    ⟨fun ⟨a, b, c, d, e, f⟩ => ⟨a, b, c, d, e, f⟩, fun ⟨a, b, c, d, e, f⟩ => ⟨a, b, c, d, e, f⟩⟩
  rw [ruled]
  cases event with
  | textMessageStart e | reasoningStart e | reasoningMessageStart e =>
    rw [CaseAllows, show e.subagentRunId.toOption = none from tag rfl, openAllowed_iff, tracks.items]
    simp [opens?, continues?, closes?, parent?, Event.type]
  | toolCallStart e =>
    rw [CaseAllows, show e.subagentRunId.toOption = none from tag rfl,
      callAllowed_iff tracks.owners, tracks.items]
    simp [opens?, continues?, closes?, parent?, Event.type]
  | textMessageContent e | textMessageEnd e | toolCallArgs e | toolCallEnd e
  | reasoningMessageContent e | reasoningMessageEnd e | reasoningEnd e =>
    rw [CaseAllows, show e.subagentRunId.toOption = none from tag rfl, continueAllowed_iff, tracks.items]
    simp [opens?, continues?, closes?, parent?, Event.type]
  | stepStarted e | stepFinished e =>
    have held := tracks.items (.step e.stepName)
    rw [CaseAllows, show e.subagentRunId.toOption = none from tag rfl]
    simp [opens?, continues?, closes?, parent?, Event.type, ← held, Item.IsOpenIn]
  | reasoningEncryptedValue e | activityDelta e =>
    rw [CaseAllows, show e.subagentRunId.toOption = none from tag rfl]
    simp [opens?, continues?, closes?, parent?, Event.type, tagAgrees_none]
  | subagentStarted e =>
    obtain ⟨id, tagged⟩ := Option.isSome_iff_exists.mp (valid.required rfl)
    have identified : e.subagentRunId.toOption = some id := tagged
    have held := tracks.items (.subagent id)
    have named := valid.name e rfl
    simp only [opens?, continues?, closes?, parent?, Event.type, identified, Option.map_some,
      Option.some.injEq, forall_eq', reduceCtorEq, false_implies, implies_true, true_and, and_true,
      Item.subagent.injEq, ← held, ← tracks.known]
    constructor
    · intro allowed
      obtain ⟨other, same, unknown⟩ := allowed.identified
      cases identified.symm.trans same
      exact ⟨fun active => isOpenIn_ne_unknown active unknown, fun impossible => impossible unknown,
        allowed.parent⟩
    · rintro ⟨_, unknown, parent⟩
      exact ⟨named, ⟨id, identified, not_not.mp unknown⟩, parent⟩
  | subagentFinished e =>
    obtain ⟨id, tagged⟩ := Option.isSome_iff_exists.mp (valid.required rfl)
    have identified : e.subagentRunId.toOption = some id := tagged
    have held := tracks.items (.subagent id)
    rw [CaseAllows, identified]
    simp [opens?, continues?, closes?, parent?, Event.type, identified, ← held,
      SubagentCloseAllowed, Item.IsOpenIn]
  | subagentError e =>
    obtain ⟨id, tagged⟩ := Option.isSome_iff_exists.mp (valid.required rfl)
    have identified : e.subagentRunId.toOption = some id := tagged
    have held := tracks.items (.subagent id)
    have message := valid.message e rfl
    rw [CaseAllows, identified]
    simp [opens?, continues?, closes?, parent?, Event.type, identified, ← held,
      SubagentCloseAllowed, Item.IsOpenIn, message]
  | messagesSnapshot e | runStarted e =>
    exact iff_of_true valid.messages (by simp [opens?, continues?, closes?, parent?, Event.type])
  | runFinished e =>
    rw [CaseAllows, allClosed_iff tracks.steps]
    simp [opens?, continues?, closes?, parent?, Event.type, tracks.items]
  | _ => simp [CaseAllows, opens?, continues?, closes?, parent?, Event.type]

theorem phaseAllows_iff {past : List Event} {record : Record} (tracks : Tracks past record) (event : Event) :
    PhaseAllows (record .phase) event ↔
      (past = [] -> event.type = .runStarted ∨ event.type = .runError) ∧
      (event.type = .runStarted -> ¬ Running past) ∧
      (Finished past -> event.type = .runStarted ∨ event.type = .runError) ∧
      (Errored past -> event.type = .runStarted) := by
  by_cases start : event.type = .runStarted
  · cases event <;> cases start
    simp [PhaseAllows, Event.type, ← tracks.running]
  by_cases error : event.type = .runError
  · cases event <;> cases error
    simp [PhaseAllows, Event.type, ← tracks.errored]
  rw [phaseAllows_inside start error, tracks.settled]
  simp [start, error]

theorem outcomeError_eq_none_iff (type : EventType) (outcome : Json) :
    outcomeError type outcome = none ↔ WellFormedOutcome outcome := by
  have idsIff : outcomeError.interruptIdsError type outcome = none ↔
      outcome.member? "interruptIds" ≠ some .null ∧
        ∀ items, outcome.member? "interruptIds" = some (.array items) ->
          items.all Json.isString = true := by
    rw [outcomeError.interruptIdsError]
    cases ids : outcome.member? "interruptIds" with
    | none => simp
    | some value => cases value <;> simp
  rw [outcomeError, WellFormedOutcome]
  cases null : outcome.isNull with
  | true => simp
  | false =>
    simp only [Bool.false_eq_true, if_false, false_or]
    split
    · rename_i found
      rw [idsIff, found]
      simp
    · rename_i found
      rw [idsIff, found]
      simp
    · rename_i notSuccess notSuspended
      apply iff_of_false (by simp)
      rintro ⟨success | suspended, _⟩
      · exact notSuccess success
      · exact notSuspended suspended

theorem fieldError_eq_none_iff {event : Event} (valid : SchemaValid event) :
    fieldError event = none ↔
      ∀ outcome, lifecycleOutcome event = some outcome -> WellFormedOutcome outcome := by
  by_cases finished : event.type = .runFinished
  · cases event <;> cases finished
    rename_i e
    apply iff_of_true _ (nofun)
    have tagged := valid.interrupts
    rw [interrupts] at tagged
    rw [fieldError]
    split
    · rename_i list found
      rw [found] at tagged
      rw [Option.map_eq_none_iff, List.find?_eq_none]
      exact fun interrupt member => Bool.eq_false_iff.mp (tagged interrupt member)
    · rfl
  · have noNulls : (lifecycleNulls event).find? Prod.snd = none := by
      rw [List.find?_eq_none]
      exact fun field member => Bool.eq_false_iff.mp (valid.optional field member)
    cases found : lifecycleOutcome event with
    | none =>
      have fine : fieldError event = none := by
        cases event with
        | runFinished e => exact absurd rfl finished
        | _ => simp only [fieldError, noNulls, found]
      simp [fine]
    | some outcome =>
      have checked : fieldError event = outcomeError event.type outcome := by
        cases event with
        | runFinished e => exact absurd rfl finished
        | _ => simp only [fieldError, noNulls, found]
      simp [checked, outcomeError_eq_none_iff]

/-- The record of a stream admits the next event exactly when the rules do. -/
theorem allows_iff_ruleAt {past : List Event} {record : Record} (tracks : Tracks past record)
    {event : Event} (valid : SchemaValid event) (unattributed : Unattributed event) :
    Allows record event ↔
      RuleAt past event ∧
        ∀ outcome, lifecycleOutcome event = some outcome -> WellFormedOutcome outcome := by
  have phase := phaseAllows_iff tracks event
  have fields := fieldError_eq_none_iff valid
  have case := caseAllows_iff tracks valid unattributed
  constructor
  · intro allowed
    obtain ⟨first, oneRun, afterFinish, afterError⟩ := phase.mp allowed.phase
    exact ⟨⟨case.mp allowed.case, first, oneRun, afterFinish, afterError⟩, fields.mp allowed.fields⟩
  · rintro ⟨rule, outcomes⟩
    exact ⟨phase.mpr ⟨rule.first, rule.oneRun, rule.afterFinish, rule.afterError⟩,
      fields.mpr outcomes, case.mpr rule.toItemRules⟩

/-! ## Exact acceptance -/

/-- Soundness and completeness of the verifier for the protocol rules. -/
theorem accepted_iff_protocolRules (events : List Event)
    (valid : ∀ event ∈ events, SchemaValid event)
    (unattributed : ∀ event ∈ events, Unattributed event) :
    accepted events = true ↔ ProtocolRules events ∧ WellFormedOutcomes events := by
  rw [accepted_iff_admits, ProtocolRules, WellFormedOutcomes, ← everywhereOn_iff_forall_mem,
    ← everywhereOn_and]
  exact everywhereOn_iff_of_tracks
    (fun past event => RuleAt past event ∧
      ∀ outcome, lifecycleOutcome event = some outcome -> WellFormedOutcome outcome)
    Tracks next
    (fun _ => trivial) (fun _ _ _ => Iff.rfl)
    (fun past record event member tracks =>
      allows_iff_ruleAt tracks (valid event member) (unattributed event member))
    (fun past record event member tracks => tracks_next tracks (unattributed event member))
    tracks_blank

theorem accepted_iff_protocolRules_subagent :
    let stream : List Event :=
      [.runStarted { threadId := "t", runId := "r" },
       .subagentStarted { subagentRunId := .value "s", name := some "worker" },
       .textMessageStart { messageId := "m" },
       .stepStarted { stepName := "plan" },
       .textMessageEnd { messageId := "m" },
       .subagentFinished { subagentRunId := .value "s" },
       .stepFinished { stepName := "plan" },
       .runFinished { threadId := "t", runId := "r" }]
    ProtocolRules stream ∧ WellFormedOutcomes stream := by
  intro stream
  refine (accepted_iff_protocolRules stream ?_ ?_).mp (by decide)
  · intro event member
    simp only [stream, List.mem_cons, List.not_mem_nil, or_false] at member
    rcases member with rfl | rfl | rfl | rfl | rfl | rfl | rfl | rfl <;>
      constructor <;>
      simp [Event.isSubagentLifecycle, Event.subagentRunId, Nullable.toOption, lifecycleNulls,
        Nullable.isNull, NoNullTags, carried, echoed, interrupts]
  · intro event member
    simp only [stream, List.mem_cons, List.not_mem_nil, or_false] at member
    rcases member with rfl | rfl | rfl | rfl | rfl | rfl | rfl | rfl <;>
      constructor <;>
      simp [Event.isSubagentLifecycle, Event.subagentRunId, Nullable.toOption, carried, echoed]

/-! ## What the rules do not see

Two streams keep every rule and are refused.  A `SUBAGENT_STARTED` carries an
`outcome` that its schema does not describe but lets through.  And messages
replayed by `RUN_STARTED` may be owned even if no event is attributed: a tool
call of one of them cannot be reopened inside another. -/

/-- Directly after a `RUN_STARTED` the rules refuse only what needs an item. -/
theorem protocolRules_pair (start : RunStartedEvent) (event : Event)
    (inside : event.type ≠ .runStarted) (continuing : continues? event = none)
    (closing : closes? event = none) (parent : parent? event = none) :
    ProtocolRules [.runStarted start, event] := by
  have notOpen : ∀ past item, past = [] ∨ past = [Event.runStarted start] -> ¬ WasOpened past item := by
    rintro past item (rfl | rfl)
    · exact not_since_nil _ _
    · exact not_since_snoc_of_closes [] (by simp [opens?]) rfl
  have notHeld : ∀ past item, past = [] ∨ past = [Event.runStarted start] -> ¬ IsOpen past item := by
    rintro past item (rfl | rfl)
    · exact not_since_nil _ _
    · exact not_since_snoc_of_closes [] (by simp [opens?]) (Or.inr rfl)
  rw [ProtocolRules, everywhereOn_cons, everywhereOn_cons]
  refine ⟨?_, ?_, everywhereOn_nil _⟩
  · exact {
      opening := fun item _ => notHeld [] item (Or.inl rfl)
      continuing := nofun
      closing := nofun
      oneInvocation := fun id _ => notOpen [] _ (Or.inl rfl)
      startedParent := nofun
      finishing := fun _ item => notHeld [] item (Or.inl rfl)
      first := fun _ => Or.inl rfl
      oneRun := fun _ => not_since_nil _ _
      afterFinish := fun impossible => absurd impossible (not_since_nil _ _)
      afterError := fun impossible => absurd impossible (not_since_nil _ _) }
  · exact {
      opening := fun item _ => notHeld _ item (Or.inr rfl)
      continuing := fun item impossible => by rw [continuing] at impossible; cases impossible
      closing := fun item impossible => by rw [closing] at impossible; cases impossible
      oneInvocation := fun id _ => notOpen _ _ (Or.inr rfl)
      startedParent := fun other impossible => by rw [parent] at impossible; cases impossible
      finishing := fun _ item => notHeld _ item (Or.inr rfl)
      first := nofun
      oneRun := fun impossible => absurd impossible inside
      afterFinish := fun impossible =>
        absurd impossible (not_since_snoc_of_closes [] (by simp [Event.type]) rfl)
      afterError := fun impossible =>
        absurd impossible (not_since_snoc_of_closes [] (by simp [Event.type]) rfl) }

def strayOutcome : List Event :=
  [.runStarted { threadId := "t", runId := "r" },
   .subagentStarted
     { subagentRunId := .value "s", name := some "worker", extra := OrderedMap.ofList [("outcome", .string "done")] }]

def replayedOwners : List Event :=
  [.runStarted
     { threadId := "t", runId := "r"
       input := some {
         messages :=
           [{ id := "m", role := .assistant, subagentRunId := .value "s"
              toolCalls := some [{ id := "c", function := { name := "search", arguments := "" } }] },
            { id := "n", role := .assistant, subagentRunId := .value "u" }] } },
   .toolCallStart { toolCallId := "c", toolCallName := "search", parentMessageId := some "n" }]

/-- The schema has more to say of an outcome, and a call that was replayed has an owner of its own. -/
theorem protocolRules_not_enough :
    ((∀ event ∈ strayOutcome, SchemaValid event ∧ Unattributed event) ∧
      ProtocolRules strayOutcome ∧ accepted strayOutcome = false) ∧
    ((∀ event ∈ replayedOwners, SchemaValid event ∧
        (event.isSubagentLifecycle = false -> event.subagentRunId.toOption = none)) ∧
      ProtocolRules replayedOwners ∧ accepted replayedOwners = false) := by
  refine ⟨⟨?_, protocolRules_pair _ _ (by decide) rfl rfl rfl, by decide⟩,
    ⟨?_, protocolRules_pair _ _ (by decide) rfl rfl rfl, by decide⟩⟩
  · intro event member
    simp only [strayOutcome, List.mem_cons, List.not_mem_nil, or_false] at member
    rcases member with rfl | rfl <;> refine ⟨?_, ?_⟩ <;> constructor <;>
      simp [Event.isSubagentLifecycle, Event.subagentRunId, Nullable.toOption, lifecycleNulls,
        Nullable.isNull, NoNullTags, carried, echoed, interrupts]
  · intro event member
    simp only [replayedOwners, List.mem_cons, List.not_mem_nil, or_false] at member
    rcases member with rfl | rfl <;> refine ⟨?_, ?_⟩ <;> try constructor
    all_goals
      simp [Event.isSubagentLifecycle, Event.subagentRunId, Nullable.toOption, lifecycleNulls,
        Nullable.isNull, NoNullTags, carried, echoed, interrupts]

end Verify
end AgUi
