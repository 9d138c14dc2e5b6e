import AgUi.Verify.Acceptance

namespace AgUi
namespace Verify

open Library Protocol

/-!
# Verifying a stream from which events were taken out

A record that has seen fewer events knows fewer owners and fewer open
entities.  It still allows an event if the entity the event continues is open
in it, and if none of the owners the event is compared with has changed.
-/

/-- An owner is looked at only by an event that carries a tag. -/
def ifTagged (tag : Option String) (owner : Option Owner) : List (Option Owner) :=
  if tag.isSome then [owner] else []

/-- The owners on record that an event is compared with. -/
def comparedOwners (record : Record) : Event -> List (Option Owner)
  | .textMessageStart e => ifTagged e.subagentRunId.toOption (record (.owner .message e.messageId))
  | .textMessageContent e => ifTagged e.subagentRunId.toOption (record (.owner .message e.messageId))
  | .textMessageEnd e => ifTagged e.subagentRunId.toOption (record (.owner .message e.messageId))
  | .toolCallStart e => [record (.owner .toolCall e.toolCallId), inheritedOwner record e.parentMessageId]
  | .toolCallArgs e => ifTagged e.subagentRunId.toOption (record (.owner .toolCall e.toolCallId))
  | .toolCallEnd e => ifTagged e.subagentRunId.toOption (record (.owner .toolCall e.toolCallId))
  | .reasoningStart e => ifTagged e.subagentRunId.toOption (record (.owner .reasoning e.messageId))
  | .reasoningMessageStart e => ifTagged e.subagentRunId.toOption (record (.owner .reasoning e.messageId))
  | .reasoningMessageContent e => ifTagged e.subagentRunId.toOption (record (.owner .reasoning e.messageId))
  | .reasoningMessageEnd e => ifTagged e.subagentRunId.toOption (record (.owner .reasoning e.messageId))
  | .reasoningEnd e => ifTagged e.subagentRunId.toOption (record (.owner .reasoning e.messageId))
  | .reasoningEncryptedValue e => ifTagged e.subagentRunId.toOption (encryptedOwner record e.subtype e.entityId)
  | .activityDelta e => ifTagged e.subagentRunId.toOption (record (.owner .activity e.messageId))
  | _ => []

/-- The lesser record has the owner the whole record has, or none. -/
def Survives (lesser whole : Option Owner) : Prop :=
  lesser = whole ∨ lesser = none

def OwnersSurvive (record lesser : Record) (event : Event) : Prop :=
  List.Forall₂ Survives (comparedOwners lesser event) (comparedOwners record event)

theorem Survives.agrees {lesser whole : Option Owner} {tag : Option String} (survives : Survives lesser whole)
    (agrees : TagAgrees whole tag) : TagAgrees lesser tag := by
  rcases survives with rfl | rfl
  · exact agrees
  · exact none_tagAgrees tag

theorem agrees_of_ifTagged {lesser whole : Option Owner} {tag : Option String}
    (survive : List.Forall₂ Survives (ifTagged tag lesser) (ifTagged tag whole)) (agrees : TagAgrees whole tag) :
    TagAgrees lesser tag := by
  cases tag with
  | none => exact tagAgrees_none lesser
  | some name =>
    cases survive with
    | cons survives _ => exact survives.agrees agrees

/-- What a record that has seen fewer events has in common with the whole one. -/
structure Lesser (record lesser : Record) : Prop where
  phase : lesser .phase = record .phase
  opened : ∀ bracket id, lesser (.opened bracket id) = true -> record (.opened bracket id) = true
  step : ∀ owner name, lesser (.step owner name) = record (.step owner name)
  subagent : ∀ id, lesser (.subagent id) = record (.subagent id)

/-- What the event adds to or closes is open. -/
def StillOpen (lesser : Record) (event : Event) : Prop :=
  ∀ bracket id, continues? event = some (.entity bracket id) ∨ closes? event = some (.entity bracket id) ->
    lesser (.opened bracket id) = true

section Allowed

variable {record lesser : Record} (less : Lesser record lesser)
include less

theorem Lesser.closed {bracket : Bracket} {id : String} (closed : record (.opened bracket id) = false) :
    lesser (.opened bracket id) = false := by
  rw [Bool.eq_false_iff]
  intro opened
  rw [less.opened bracket id opened] at closed
  cases closed

theorem Lesser.allClosed (closed : AllClosed record) : AllClosed lesser where
  steps := fun owner name => (less.step owner name).trans (closed.steps owner name)
  entities := fun bracket id => less.closed (closed.entities bracket id)
  subagents := by
    intro id
    rw [less.subagent]
    exact closed.subagents id

theorem Lesser.openAllowed {bracket : Bracket} {tag : Option String} {id : String}
    (allowed : OpenAllowed record bracket tag id)
    (survive : List.Forall₂ Survives (ifTagged tag (lesser (.owner bracket.bucket id)))
      (ifTagged tag (record (.owner bracket.bucket id)))) : OpenAllowed lesser bracket tag id :=
  ⟨less.closed allowed.1, agrees_of_ifTagged survive allowed.2⟩

theorem Lesser.callAllowed {tag : Option String} {toolCallId : String} {parentMessageId : Option String}
    (allowed : CallAllowed record tag toolCallId parentMessageId)
    (own : Survives (lesser (.owner .toolCall toolCallId)) (record (.owner .toolCall toolCallId)))
    (parent : Survives (inheritedOwner lesser parentMessageId) (inheritedOwner record parentMessageId)) :
    CallAllowed lesser tag toolCallId parentMessageId where
  closed := less.closed allowed.closed
  parent := parent.agrees allowed.parent
  reopen := own.agrees allowed.reopen
  inherit := by
    intro untagged known found inherited above
    rcases own with same | unknown
    · rcases parent with also | unknown
      · exact allowed.inherit untagged known (same ▸ found) inherited (also ▸ above)
      · rw [unknown] at above
        cases above
    · rw [unknown] at found
      cases found

/-- An event stays allowed by a record that has seen fewer events. -/
theorem Lesser.allows {event : Event} (allowed : Allows record event) (open_still : StillOpen lesser event)
    (survive : OwnersSurvive record lesser event) : Allows lesser event := by
  have case := allowed.case
  have goes : ∀ (bracket : Bracket) (tag : Option String) (id : String),
      continues? event = some (.entity bracket id) ∨ closes? event = some (.entity bracket id) ->
      List.Forall₂ Survives (ifTagged tag (lesser (.owner bracket.bucket id)))
        (ifTagged tag (record (.owner bracket.bucket id))) ->
      ContinueAllowed record bracket tag id -> ContinueAllowed lesser bracket tag id :=
    fun bracket tag id names survive allowed => ⟨open_still bracket id names, agrees_of_ifTagged survive allowed.2⟩
  refine ⟨?_, allowed.fields, ?_⟩
  · rw [less.phase]
    exact allowed.phase
  · cases event with
    | textMessageStart e | reasoningStart e | reasoningMessageStart e => exact less.openAllowed case survive
    | textMessageContent e => exact goes .textMessage _ _ (.inl rfl) survive case
    | textMessageEnd e => exact goes .textMessage _ _ (.inr rfl) survive case
    | toolCallStart e =>
      cases survive with
      | cons own rest =>
        cases rest with
        | cons parent _ => exact less.callAllowed case own parent
    | toolCallArgs e => exact goes .toolCall _ _ (.inl rfl) survive case
    | toolCallEnd e => exact goes .toolCall _ _ (.inr rfl) survive case
    | reasoningMessageContent e => exact goes .reasoningMessage _ _ (.inl rfl) survive case
    | reasoningMessageEnd e => exact goes .reasoningMessage _ _ (.inr rfl) survive case
    | reasoningEnd e => exact goes .reasoningSpan _ _ (.inr rfl) survive case
    | stepStarted e | stepFinished e => exact (less.step _ _).trans case
    | reasoningEncryptedValue e | activityDelta e => exact agrees_of_ifTagged survive case
    | subagentStarted e =>
      rcases case with ⟨named, ⟨id, tag, unknown⟩, parent⟩
      exact ⟨named, ⟨id, tag, (less.subagent id).trans unknown⟩, fun above tagged =>
        (less.subagent above).symm ▸ parent above tagged⟩
    | subagentFinished e =>
      rcases case with ⟨id, tag, active⟩
      exact ⟨id, tag, (less.subagent id).trans active⟩
    | subagentError e =>
      rcases case with ⟨said, id, tag, active⟩
      exact ⟨said, id, tag, (less.subagent id).trans active⟩
    | runFinished e => exact less.allClosed case
    | messagesSnapshot e | runStarted e => exact case
    | _ => trivial

end Allowed

/-! ## What an event does apart from owners -/

/-- What an event opens and closes, whoever it is attributed to. -/
theorem opened_after (record : Record) (event : Event) (bracket : Bracket) (id : String) :
    next record event (.opened bracket id) = true ↔
      opens? event = some (.entity bracket id) ∨
        (record (.opened bracket id) = true ∧
          ¬ (closes? event = some (.entity bracket id) ∨ event.type = .runStarted)) :=
  isOpenIn_next_of record (.entity bracket id) fun _ impossible => by cases impossible

/-- What an allowed event adds to or closes is open. -/
theorem opened_of_allows {record : Record} {event : Event} (allowed : Allows record event) {bracket : Bracket}
    {id : String} (names : continues? event = some (.entity bracket id) ∨ closes? event = some (.entity bracket id)) :
    record (.opened bracket id) = true := by
  have case := allowed.case
  cases event with
  | textMessageContent e | toolCallArgs e | reasoningMessageContent e | textMessageEnd e
  | toolCallEnd e | reasoningMessageEnd e | reasoningEnd e =>
    rcases names with names | names <;> cases names
    exact case.1
  | subagentFinished e | subagentError e =>
    rcases names with names | names
    · cases names
    · simp [closes?] at names
  | _ => rcases names with names | names <;> cases names

/-- Apart from owners, an event changes each entry of a record on its own. -/
theorem next_local {record other : Record} {key : Key} (notOwner : ∀ bucket id, key ≠ .owner bucket id)
    (same : record key = other key) (event : Event) : next record event key = next other event key := by
  have put : ∀ (written : Key) (value : written.Value),
      (record.put written value) key = (other.put written value) key := by
    intro written value
    by_cases hit : key = written
    · subst hit
      rw [Record.put_self, Record.put_self]
    · rw [Record.put_of_ne _ _ hit, Record.put_of_ne _ _ hit, same]
  have lifecycle : ∀ (tag : Option String) (status : SubagentStatus),
      subagentNext record tag status key = subagentNext other tag status key := by
    intro tag status
    cases tag with
    | none => exact same
    | some id => exact put _ _
  cases event with
  | textMessageStart e | toolCallStart e | reasoningStart e | reasoningMessageStart e =>
    simp only [next, openNext, callNext]
    rw [Record.claim_of_ne _ _ _ _ (notOwner _ _), Record.claim_of_ne _ _ _ _ (notOwner _ _)]
    exact put _ _
  | textMessageEnd e | toolCallEnd e | reasoningMessageEnd e | reasoningEnd e | toolCallResult e | stepStarted e
  | stepFinished e | runFinished e | runError e => exact put _ _
  | subagentStarted e | subagentFinished e | subagentError e => exact lifecycle _ _
  | messagesSnapshot e =>
    simp only [next, Record.seedMessages_of_not_owner _ _ _ notOwner, same]
  | runStarted e => rfl
  | activitySnapshot e =>
    simp only [next, activityNext_of_ne _ _ _ _ (notOwner _ _), same]
  | _ => exact same

/-! ## Owners known -/

/-- Whoever the lesser record knows an owner of, the whole record does too. -/
def KnowsLess (record lesser : Record) : Prop :=
  ∀ bucket id, lesser (.owner bucket id) ≠ none -> record (.owner bucket id) ≠ none

theorem put_ne_none (record : Record) (bucket other : Bucket) (id name : String) (owner : Owner) :
    record.put (.owner bucket id) (some owner) (.owner other name) ≠ none ↔
      (other = bucket ∧ name = id) ∨ record (.owner other name) ≠ none := by
  rw [Record.put_owner]
  by_cases same : other = bucket ∧ name = id
  · rw [if_pos same]
    exact iff_of_true (Option.some_ne_none _) (.inl same)
  · rw [if_neg same]
    exact (or_iff_right same).symm

theorem claim_ne_none (record : Record) (bucket other : Bucket) (id name : String) (owner : Owner) :
    record.claim bucket id owner (.owner other name) ≠ none ↔
      (other = bucket ∧ name = id) ∨ record (.owner other name) ≠ none := by
  rw [Record.claim]
  split
  · rename_i known
    refine ⟨.inr, fun either => ?_⟩
    rcases either with ⟨rfl, rfl⟩ | held
    · exact Option.isSome_iff_ne_none.mp known
    · exact held
  · exact put_ne_none record bucket other id name owner

theorem KnowsLess.put {record lesser : Record} (less : KnowsLess record lesser) (bucket : Bucket) (id : String)
    (owner another : Owner) :
    KnowsLess (record.put (.owner bucket id) (some owner)) (lesser.put (.owner bucket id) (some another)) := by
  intro other name
  rw [put_ne_none, put_ne_none]
  exact Or.imp_right (less other name)

theorem KnowsLess.claim {record lesser : Record} (less : KnowsLess record lesser) (bucket : Bucket) (id : String)
    (owner another : Owner) : KnowsLess (record.claim bucket id owner) (lesser.claim bucket id another) := by
  intro other name
  rw [claim_ne_none, claim_ne_none]
  exact Or.imp_right (less other name)

/-- Knowing more of the same owners is knowing more. -/
theorem KnowsLess.of_same {record lesser after left : Record} (less : KnowsLess record lesser)
    (kept : ∀ bucket id, after (.owner bucket id) = record (.owner bucket id))
    (also : ∀ bucket id, left (.owner bucket id) = lesser (.owner bucket id)) : KnowsLess after left := by
  intro bucket id
  rw [kept, also]
  exact less bucket id

theorem KnowsLess.seedMessages {record lesser : Record} (less : KnowsLess record lesser) (authoritative : Bool)
    (messages : List Message) :
    KnowsLess (record.seedMessages authoritative messages) (lesser.seedMessages authoritative messages) := by
  have seed : ∀ {record lesser : Record}, KnowsLess record lesser -> ∀ bucket id owner,
      KnowsLess (record.seed authoritative bucket id owner) (lesser.seed authoritative bucket id owner) := by
    intro record lesser less bucket id owner
    cases authoritative with
    | true => exact less.put bucket id owner owner
    | false => exact less.claim bucket id owner owner
  have calls : ∀ (calls : List ToolCall) (owner : Owner) {record lesser : Record}, KnowsLess record lesser ->
      KnowsLess (calls.foldl (fun record call => record.seed authoritative .toolCall call.id owner) record)
        (calls.foldl (fun record call => record.seed authoritative .toolCall call.id owner) lesser) := by
    intro calls owner
    induction calls with
    | nil => exact fun less => less
    | cons call rest ih => exact fun less => ih (seed less _ _ _)
  induction messages generalizing record lesser with
  | nil => exact less
  | cons message rest ih =>
    exact ih (calls message.calls message.subagentRunId.toOption (seed less _ _ _))

theorem KnowsLess.next {record lesser : Record} (less : KnowsLess record lesser) (event : Event) :
    KnowsLess (next record event) (next lesser event) := by
  have opened : ∀ (bracket : Bracket) (id : String) (bucket : Bucket) (owner another : Owner),
      KnowsLess ((record.put (.opened bracket id) true).claim bucket id owner)
        ((lesser.put (.opened bracket id) true).claim bucket id another) := by
    intro bracket id bucket owner another
    exact (less.of_same (fun _ _ => record.put_of_ne _ Key.noConfusion)
      fun _ _ => lesser.put_of_ne _ Key.noConfusion).claim bucket id owner another
  have apart : ∀ (key : Key) (value : key.Value), (∀ bucket id, Key.owner bucket id ≠ key) ->
      KnowsLess (record.put key value) (lesser.put key value) := by
    intro key value notOwner
    exact less.of_same (fun bucket id => record.put_of_ne _ (notOwner bucket id))
      fun bucket id => lesser.put_of_ne _ (notOwner bucket id)
  cases event with
  | textMessageStart e | reasoningStart e | reasoningMessageStart e | toolCallStart e => exact opened _ _ _ _ _
  | textMessageEnd e | toolCallEnd e | reasoningMessageEnd e | reasoningEnd e | stepStarted e | stepFinished e
  | runFinished e | runError e => exact apart _ _ fun _ _ => Key.noConfusion
  | toolCallResult e => exact less.put _ _ _ _
  | subagentStarted e | subagentFinished e | subagentError e =>
    exact less.of_same (fun _ _ => subagentNext_of_ne _ _ _ fun _ => Key.noConfusion)
      fun _ _ => subagentNext_of_ne _ _ _ fun _ => Key.noConfusion
  | messagesSnapshot e => exact less.seedMessages true e.messages
  | runStarted e => exact fun _ _ known => known
  | activitySnapshot e =>
    intro bucket id known
    by_cases same : Key.owner bucket id = .owner .activity e.messageId
    · cases same
      simp only [Verify.next, activityNext]
      split
      · rw [Record.put_self]
        exact Option.some_ne_none _
      · rename_i held
        exact fun unknown => held (.inl unknown)
    · rw [Verify.next, activityNext_of_ne _ _ _ _ same] at known ⊢
      exact less bucket id known
  | _ => exact less

/-- Where nobody but the parent owns anything, nothing is contradicted by
knowing less. -/
theorem ownersSurvive_of_parent {record lesser : Record} (owned : OwnedByParent record)
    (also : OwnedByParent lesser) (less : KnowsLess record lesser) {event : Event}
    (unattributed : Unattributed event) : OwnersSurvive record lesser event := by
  have survives : ∀ bucket id, Survives (lesser (.owner bucket id)) (record (.owner bucket id)) := by
    intro bucket id
    rcases known : lesser (.owner bucket id) with _ | owner
    · exact .inr rfl
    · rcases above : record (.owner bucket id) with _ | other
      · exact absurd above (less bucket id (by rw [known]; exact Option.some_ne_none owner))
      · rw [also bucket id owner known, owned bucket id other above]
        exact .inl rfl
  have tag := unattributed.tag
  unfold OwnersSurvive
  cases event with
  | toolCallStart e =>
    refine .cons (survives _ _) (.cons ?_ .nil)
    unfold inheritedOwner
    cases e.parentMessageId with
    | none => exact .inl rfl
    | some parent => exact survives _ _
  | subagentStarted e | subagentFinished e | subagentError e => exact .nil
  | textMessageStart e | textMessageContent e | textMessageEnd e | toolCallArgs e | toolCallEnd e | reasoningStart e
  | reasoningMessageStart e | reasoningMessageContent e | reasoningMessageEnd e | reasoningEnd e
  | reasoningEncryptedValue e | activityDelta e =>
    have untagged : e.subagentRunId.toOption = none := tag rfl
    simp only [comparedOwners, untagged]
    exact .nil
  | _ => exact .nil

/-- What a record has open was opened in its run and not closed since. -/
theorem isOpen_of_opened (past : List Event) {bracket : Bracket} {id : String}
    (opened : advance Record.blank past (.opened bracket id) = true) : IsOpen past (.entity bracket id) := by
  induction past using List.reverseRecOn with
  | nil => cases opened
  | append_singleton past event ih =>
    rw [advance, List.foldl_append] at opened
    apply (since_snoc _ _ past event).mpr
    rcases (opened_after _ event bracket id).mp opened with opens | ⟨earlier, still⟩
    · exact .inl opens
    · exact .inr ⟨ih earlier, still⟩

/-- In an accepted stream what an event adds to is open. -/
theorem isOpen_of_continues {past future : List Event} {event : Event}
    (admitted : accepted (past ++ event :: future) = true) {bracket : Bracket} {id : String}
    (continues : continues? event = some (.entity bracket id)) : IsOpen past (.entity bracket id) :=
  isOpen_of_opened past (opened_of_allows (allows_of_accepted admitted) (.inl continues))

end Verify
end AgUi
