import AgUi.Verify.Footprints
import AgUi.Verify.Comparison
import AgUi.Verify.RunIsolation

namespace AgUi
namespace Verify

open Library Protocol

/-!
# A run whose boundaries are taken away

A middleware may present several runs as one: it forwards what happens inside
a later run and hides its `RUN_STARTED` and `RUN_FINISHED`.  On a stream of
its own the run starts from a record that is blank but for the messages its
`RUN_STARTED` echoes.  Inside another run it starts from whatever the earlier
ones left on record.

`Joins` relates the two records.  Every event the run's own record allows, the
joined one allows too, provided that the earlier runs know none of the ids the
run names and that it names no id of a tagged message of its hidden echo.
-/

/-! ## The parts of a run -/

/-- How the events of one run may end. -/
inductive Ending : List Event -> Prop
  | finished (event : RunFinishedEvent) : Ending [.runFinished event]
  | failed (event : RunErrorEvent) : Ending [.runError event]
  | finishedThenFailed (event : RunFinishedEvent) (error : RunErrorEvent) :
      Ending [.runFinished event, .runError error]

/-- An event that is neither the start nor the end of a run. -/
def isInside (event : Event) : Bool :=
  !(endsRun event) && event.type != .runStarted

/-- A stream that holds one whole run. -/
structure CompleteRun (events : List Event) : Prop where
  valid : accepted events = true
  started : ∃ start rest,
    events = .runStarted start :: rest ∧ ∀ event ∈ rest, event.type ≠ .runStarted
  ended : ∃ last, events.getLast? = some last ∧ endsRun last = true

theorem isInside_iff (event : Event) :
    isInside event = true ↔ endsRun event = false ∧ event.type ≠ .runStarted := by
  simp [isInside]

/-- Once a run has ended nothing can follow but an error after a success. -/
theorem ending_of_admits {record : Record} {last : Event} {rest : List Event} (ends : endsRun last = true)
    (noStart : ∀ event ∈ rest, event.type ≠ .runStarted)
    (admitted : Admits record (last :: rest)) : Ending (last :: rest) := by
  have stopped : ∀ (errored : Record) (others : List Event), errored .phase = .errored ->
      (∀ event ∈ others, event.type ≠ .runStarted) -> Admits errored others -> others = [] := by
    intro errored others phase noStart admitted
    cases others with
    | nil => rfl
    | cons event others =>
      have allowed := admitted.1.phase
      rw [phase] at allowed
      cases event with
      | runStarted e => exact absurd rfl (noStart _ List.mem_cons_self)
      | runError e => exact absurd rfl allowed
      | _ => cases allowed
  cases last with
  | runError e =>
    rw [stopped _ rest (Record.put_self _ _ _) noStart admitted.2]
    exact .failed e
  | runFinished e =>
    cases rest with
    | nil => exact .finished e
    | cons event others =>
      have phase : next record (.runFinished e) .phase = .finished := Record.put_self _ _ _
      have allowed := admitted.2.1.phase
      rw [phase] at allowed
      cases event with
      | runStarted e => exact absurd rfl (noStart _ List.mem_cons_self)
      | runError error =>
        rw [stopped _ others (Record.put_self _ _ _)
          (List.forall_mem_cons.mp noStart).2 admitted.2.2]
        exact .finishedThenFailed e error
      | _ => cases allowed
  | _ => cases ends

/-- Up to its end, a run is made of events inside it. -/
theorem exists_inside {record : Record} {rest : List Event} {last : Event} (final : rest.getLast? = some last)
    (ends : endsRun last = true) (noStart : ∀ event ∈ rest, event.type ≠ .runStarted)
    (admitted : Admits record rest) :
    ∃ inside ending, rest = inside ++ ending ∧
      (∀ event ∈ inside, isInside event = true) ∧ Ending ending := by
  induction rest generalizing record with
  | nil => cases final
  | cons event others ih =>
    have later : ∀ other ∈ others, other.type ≠ .runStarted :=
      (List.forall_mem_cons.mp noStart).2
    cases ending : endsRun event with
    | true =>
      refine ⟨[], event :: others, rfl, fun _ impossible => absurd impossible List.not_mem_nil, ?_⟩
      exact ending_of_admits ending later admitted
    | false =>
      cases others with
      | nil =>
        have same : event = last := Option.some.inj final
        rw [same, ends] at ending
        cases ending
      | cons second others =>
        rcases ih final later admitted.2 with ⟨inside, tail, same, insides, shape⟩
        refine ⟨event :: inside, tail, congrArg (event :: ·) same, ?_, shape⟩
        intro other member
        rcases List.mem_cons.mp member with rfl | member
        · exact (isInside_iff other).mpr ⟨ending, noStart other List.mem_cons_self⟩
        · exact insides other member

/-- A run is its start, what happens inside it, and its end. -/
theorem CompleteRun.parts {events : List Event} (whole : CompleteRun events) :
    ∃ start inside ending,
      events = .runStarted start :: (inside ++ ending) ∧
      (∀ event ∈ inside, isInside event = true) ∧ Ending ending := by
  rcases whole.started with ⟨start, rest, rfl, noStart⟩
  rcases whole.ended with ⟨last, final, ends⟩
  have admitted := (accepted_iff_admits _).mp whole.valid
  have finalInRest : rest.getLast? = some last := by
    cases rest with
    | nil =>
      cases final
      cases ends
    | cons event others => exact final
  rcases exists_inside finalInRest ends noStart admitted.2 with ⟨inside, ending, rfl, insides, shape⟩
  exact ⟨start, inside, ending, rfl, insides, shape⟩

/-! ## What a run names -/

/-- The ids an event names, each as the key under which its record keeps it. -/
def named : Event -> List Key
  | .textMessageStart e => [.owner .message e.messageId]
  | .textMessageContent e => [.owner .message e.messageId]
  | .textMessageEnd e => [.owner .message e.messageId]
  | .toolCallStart e =>
    .owner .toolCall e.toolCallId :: e.parentMessageId.toList.map (.owner .message)
  | .toolCallArgs e => [.owner .toolCall e.toolCallId]
  | .toolCallEnd e => [.owner .toolCall e.toolCallId]
  | .toolCallResult e => [.owner .message e.messageId]
  | .activitySnapshot e => [.owner .activity e.messageId]
  | .activityDelta e => [.owner .activity e.messageId]
  | .reasoningStart e => [.owner .reasoning e.messageId]
  | .reasoningMessageStart e => [.owner .reasoning e.messageId]
  | .reasoningMessageContent e => [.owner .reasoning e.messageId]
  | .reasoningMessageEnd e => [.owner .reasoning e.messageId]
  | .reasoningEnd e => [.owner .reasoning e.messageId]
  | .reasoningEncryptedValue e =>
    match e.subtype with
    | .toolCall => [.owner .toolCall e.entityId]
    | .message => [.owner .message e.entityId, .owner .reasoning e.entityId]
  | .subagentStarted e =>
    (e.subagentRunId.toOption.toList ++ e.parentSubagentRunId.toOption.toList).map .subagent
  | .subagentFinished e => e.subagentRunId.toOption.toList.map .subagent
  | .subagentError e => e.subagentRunId.toOption.toList.map .subagent
  | _ => []

/-- The ids of a message and of its tool calls. -/
def idsOf (message : Message) : List Key :=
  .owner (.ofRole message.role) message.id :: message.calls.map fun call => .owner .toolCall call.id

/-- The ids an event names or carries in a list of messages. -/
def known (event : Event) : List Key :=
  named event ++ (carried event).flatMap idsOf

/-- The keys under which ids are kept. -/
def Key.isId : Key -> Bool
  | .owner _ _ => true
  | .subagent _ => true
  | _ => false

theorem isId_of_named {event : Event} {key : Key} (member : key ∈ named event) : key.isId = true := by
  have mapped : ∀ (ids : List String) (kind : String -> Key), (∀ id, (kind id).isId = true) ->
      key ∈ ids.map kind -> key.isId = true := by
    intro ids kind isId member
    rcases List.mem_map.mp member with ⟨id, _, rfl⟩
    exact isId id
  cases event with
  | toolCallStart e =>
    rcases List.mem_cons.mp member with rfl | member
    · rfl
    · exact mapped _ _ (fun _ => rfl) member
  | reasoningEncryptedValue e =>
    cases subtype : e.subtype <;> simp only [named, subtype] at member
    · cases List.mem_singleton.mp member
      rfl
    · rcases List.mem_pair.mp member with rfl | rfl <;> rfl
  | subagentStarted e | subagentFinished e | subagentError e => exact mapped _ _ (fun _ => rfl) member
  | textMessageStart e | textMessageContent e | textMessageEnd e | toolCallArgs e | toolCallEnd e | toolCallResult e
  | activitySnapshot e | activityDelta e | reasoningStart e | reasoningMessageStart e | reasoningMessageContent e
  | reasoningMessageEnd e | reasoningEnd e =>
    cases List.mem_singleton.mp member
    rfl
  | _ => cases member

theorem seededKey_iff (messages : List Message) (key : Key) :
    SeededKey messages key ↔ key ∈ messages.flatMap idsOf := by
  simp only [SeededKey, List.mem_flatMap, idsOf, List.mem_cons, List.mem_map, eq_comm (a := key)]

/-- Of the ids, an event changes only what is kept of those it knows. -/
theorem known_of_writes {event : Event} {key : Key} (written : Writes event key) (isId : key.isId = true)
    (notStart : event.type ≠ .runStarted) : key ∈ known event := by
  have opening : ∀ (bracket : Bracket) (id : String), OpeningKey bracket id key ->
      key = .owner bracket.bucket id := by
    rintro bracket id (rfl | same)
    · cases isId
    · exact same
  have lifecycle : ∀ (tag : Option String), SubagentKey tag key -> key ∈ tag.toList.map Key.subagent := by
    rintro tag ⟨id, rfl, rfl⟩
    exact List.mem_singleton.mpr rfl
  cases event with
  | textMessageStart e | reasoningStart e | reasoningMessageStart e =>
    exact List.mem_append_left _ (List.mem_singleton.mpr (opening _ _ written))
  | toolCallStart e =>
    refine List.mem_append_left _ (List.mem_cons.mpr (.inl (opening _ _ written)))
  | toolCallResult e | activitySnapshot e => exact List.mem_append_left _ (List.mem_singleton.mpr written)
  | subagentStarted e =>
    refine List.mem_append_left _ ?_
    rw [named, List.map_append]
    exact List.mem_append_left _ (lifecycle _ written)
  | subagentFinished e | subagentError e => exact List.mem_append_left _ (lifecycle _ written)
  | messagesSnapshot e => exact List.mem_append_right _ ((seededKey_iff _ _).mp written)
  | runStarted e => exact absurd rfl notStart
  | textMessageEnd e | toolCallEnd e | reasoningMessageEnd e | reasoningEnd e | stepStarted e | stepFinished e
  | runFinished e | runError e =>
    cases written
    cases isId
  | _ => exact written.elim

/-- What a record keeps of an id is left alone by events that do not know it. -/
theorem next_of_unknown (record : Record) {event : Event} {key : Key} (isId : key.isId = true)
    (notStart : event.type ≠ .runStarted) (unknown : key ∉ known event) : next record event key = record key :=
  next_of_not_writes record fun written => unknown (known_of_writes written isId notStart)

/-! ## The two records of a joined run -/

/-- The owner the joined run knows is the run's own.  An entity echoed under
no tag may be unknown to the joined run, and of an activity the joined run may
then know anything: an untagged event is not compared. -/
def Eased (bucket : Bucket) (single joined : Option Owner) : Prop :=
  joined = single ∨ (single = some none ∧ (joined = none ∨ bucket = .activity))

/-- What the record of a joined run has in common with the run's own, as far
as the run names ids. -/
structure Joins (own : Key -> Prop) (single joined : Record) : Prop where
  phase : joined .phase = single .phase
  opened : ∀ bracket id, joined (.opened bracket id) = single (.opened bracket id)
  step : ∀ owner name, joined (.step owner name) = single (.step owner name)
  subagent : ∀ id, own (.subagent id) -> joined (.subagent id) = single (.subagent id)
  active : ∀ id, joined (.subagent id) = .active -> single (.subagent id) = .active
  owner : ∀ bucket id, own (.owner bucket id) ->
    Eased bucket (single (.owner bucket id)) (joined (.owner bucket id))

section Eased

variable {bucket : Bucket} {single joined : Option Owner} {tag : Option String}

theorem Eased.of_eq (same : joined = single) : Eased bucket single joined := .inl same

theorem untagged_of_agrees (agrees : TagAgrees (some none) tag) : tag = none := by
  cases tag with
  | none => rfl
  | some name => cases agrees none rfl name rfl

theorem Eased.agrees (eased : Eased bucket single joined) (agrees : TagAgrees single tag) :
    TagAgrees joined tag := by
  rcases eased with rfl | ⟨rfl, _⟩
  · exact agrees
  · rw [untagged_of_agrees agrees]
    exact tagAgrees_none joined

/-- Outside activities, what the joined run knows is right. -/
theorem Eased.of_known (eased : Eased bucket single joined) (entity : bucket ≠ .activity) {owner : Owner}
    (found : joined = some owner) : single = some owner := by
  rcases eased with rfl | ⟨_, unknown | activity⟩
  · exact found
  · rw [unknown] at found
    cases found
  · exact absurd activity entity

end Eased

section Allowed

variable {own : Key -> Prop} {single joined : Record} (joins : Joins own single joined)
include joins

variable {tag : Option String}

theorem Joins.openAllowed {bracket : Bracket} {id : String}
    (names : own (.owner bracket.bucket id)) (allowed : OpenAllowed single bracket tag id) :
    OpenAllowed joined bracket tag id :=
  ⟨(joins.opened bracket id).trans allowed.1, (joins.owner _ _ names).agrees allowed.2⟩

theorem Joins.continueAllowed {bracket : Bracket} {id : String}
    (names : own (.owner bracket.bucket id)) (allowed : ContinueAllowed single bracket tag id) :
    ContinueAllowed joined bracket tag id :=
  ⟨(joins.opened bracket id).trans allowed.1, (joins.owner _ _ names).agrees allowed.2⟩

theorem Joins.inherited {parentMessageId : Option String}
    (names : ∀ parent, parentMessageId = some parent -> own (.owner .message parent)) :
    Eased .message (inheritedOwner single parentMessageId) (inheritedOwner joined parentMessageId) := by
  cases parentMessageId with
  | none => exact .of_eq rfl
  | some parent => exact joins.owner .message parent (names parent rfl)

theorem Joins.callAllowed {toolCallId : String} {parentMessageId : Option String}
    (names : own (.owner .toolCall toolCallId))
    (parents : ∀ parent, parentMessageId = some parent -> own (.owner .message parent))
    (allowed : CallAllowed single tag toolCallId parentMessageId) :
    CallAllowed joined tag toolCallId parentMessageId where
  closed := (joins.opened .toolCall toolCallId).trans allowed.closed
  parent := (joins.inherited parents).agrees allowed.parent
  reopen := (joins.owner _ _ names).agrees allowed.reopen
  inherit := by
    intro untagged known found inherited above
    have own := (joins.owner _ _ names).of_known Bucket.noConfusion found
    have parent := (joins.inherited parents).of_known Bucket.noConfusion above
    exact allowed.inherit untagged known own inherited parent

theorem Joins.allClosed (closed : AllClosed single) : AllClosed joined where
  steps := fun owner name => (joins.step owner name).trans (closed.steps owner name)
  entities := fun bracket id => (joins.opened bracket id).trans (closed.entities bracket id)
  subagents := fun id active => closed.subagents id (joins.active id active)

theorem Joins.encrypted {subtype : ReasoningEncryptedValueSubtype} {entityId : String}
    (names : match subtype with
      | .toolCall => own (.owner .toolCall entityId)
      | .message => own (.owner .message entityId) ∧ own (.owner .reasoning entityId))
    (agrees : TagAgrees (encryptedOwner single subtype entityId) tag) :
    TagAgrees (encryptedOwner joined subtype entityId) tag := by
  cases subtype with
  | toolCall => exact (joins.owner _ _ names).agrees agrees
  | message =>
    have message := joins.owner _ _ names.1
    have reasoning := joins.owner _ _ names.2
    simp only [encryptedOwner] at agrees ⊢
    rcases message with same | ⟨untagged, _⟩
    · rw [same]
      cases known : single (.owner .message entityId) with
      | none =>
        rw [known, Option.none_or] at agrees
        rw [Option.none_or]
        exact reasoning.agrees agrees
      | some owner =>
        rw [known, Option.some_or] at agrees
        rw [Option.some_or]
        exact agrees
    · rw [untagged, Option.some_or] at agrees
      rw [untagged_of_agrees agrees]
      exact tagAgrees_none _

/-- What the run's own record allows, the joined record allows. -/
theorem Joins.allows {event : Event} (notStart : event.type ≠ .runStarted)
    (names : ∀ key ∈ named event, own key) (allowed : Allows single event) : Allows joined event := by
  have case := allowed.case
  have head : ∀ {key : Key}, (named event).head? = some key -> own key := by
    intro key first
    exact names key (List.mem_of_mem_head? first)
  refine ⟨?_, allowed.fields, ?_⟩
  · rw [joins.phase]
    exact allowed.phase
  · cases event with
    | textMessageStart e | reasoningStart e | reasoningMessageStart e => exact joins.openAllowed (head rfl) case
    | textMessageContent e | textMessageEnd e | toolCallArgs e | toolCallEnd e | reasoningMessageContent e
    | reasoningMessageEnd e | reasoningEnd e => exact joins.continueAllowed (head rfl) case
    | toolCallStart e =>
      refine joins.callAllowed (head rfl) (fun parent named => ?_) case
      refine names _ (List.mem_cons_of_mem _ ?_)
      rw [named]
      exact List.mem_singleton.mpr rfl
    | stepStarted e | stepFinished e => exact (joins.step _ _).trans case
    | reasoningEncryptedValue e =>
      refine joins.encrypted ?_ case
      cases subtype : e.subtype <;> simp only [named, subtype] at names
      · exact names _ List.mem_cons_self
      · exact ⟨names _ List.mem_cons_self, names _ (List.mem_cons_of_mem _ List.mem_cons_self)⟩
    | activityDelta e => exact (joins.owner _ _ (head rfl)).agrees case
    | subagentStarted e =>
      have ownId : ∀ id, e.subagentRunId.toOption = some id ∨ e.parentSubagentRunId.toOption = some id ->
          joined (.subagent id) = single (.subagent id) := by
        intro id found
        refine joins.subagent id (names _ (List.mem_map.mpr ⟨id, ?_, rfl⟩))
        simpa [Option.mem_toList] using found
      rcases case with ⟨described, ⟨id, tag, unknown⟩, parent⟩
      exact ⟨described, ⟨id, tag, (ownId id (.inl tag)).trans unknown⟩, fun above tagged =>
        (ownId above (.inr tagged)).symm ▸ parent above tagged⟩
    | subagentFinished e =>
      rcases case with ⟨id, tag, active⟩
      have ownId : own (.subagent id) := head (by rw [named, tag]; rfl)
      exact ⟨id, tag, (joins.subagent id ownId).trans active⟩
    | subagentError e =>
      rcases case with ⟨described, id, tag, active⟩
      have ownId : own (.subagent id) := head (by rw [named, tag]; rfl)
      exact ⟨described, id, tag, (joins.subagent id ownId).trans active⟩
    | runFinished e => exact joins.allClosed case
    | messagesSnapshot e => exact case
    | runStarted e => exact absurd rfl notStart
    | _ => trivial

end Allowed

section Kept

variable {bucket : Bucket} {single joined : Record} {id : String}

/-- The entity whose owner a start claims, under a tag both records agree with. -/
theorem Eased.claim {owner another : Owner}
    (eased : Eased bucket (single (.owner bucket id)) (joined (.owner bucket id)))
    (entity : bucket ≠ .activity)
    (same : single (.owner bucket id) = none -> owner = another)
    (untagged : single (.owner bucket id) = some none -> another = none) :
    joined.claim bucket id another (.owner bucket id) = single.claim bucket id owner (.owner bucket id) := by
  rw [Record.claim_self, Record.claim_self]
  rcases eased with equal | ⟨parent, unknown | activity⟩
  · rw [equal]
    cases known : single (.owner bucket id) with
    | none => exact congrArg some (same known).symm
    | some present => rfl
  · rw [unknown, parent]
    exact congrArg some (untagged parent)
  · exact absurd activity entity

theorem Eased.activityNext {tag : Option String} {replace : Option Bool}
    (eased : Eased .activity (single (.owner .activity id)) (joined (.owner .activity id))) :
    Eased .activity (Verify.activityNext single tag id replace (.owner .activity id))
      (Verify.activityNext joined tag id replace (.owner .activity id)) := by
  rcases eased with equal | ⟨parent, _⟩
  · exact .of_eq (activityNext_congr tag id replace equal)
  · unfold Verify.activityNext
    by_cases replaces : replace ≠ some false
    · rw [if_pos (.inr replaces), if_pos (.inr replaces), Record.put_self, Record.put_self]
      exact .of_eq rfl
    · rw [if_neg (by simp [parent, replaces])]
      exact .inr ⟨parent, .inr rfl⟩

theorem Eased.seed {other : Bucket} {name : String} {owner : Owner}
    (eased : Eased bucket (single (.owner bucket id)) (joined (.owner bucket id))) :
    Eased bucket (single.seed true other name owner (.owner bucket id))
      (joined.seed true other name owner (.owner bucket id)) := by
  simp only [Record.seed, if_true, Record.put_owner]
  split
  · exact .of_eq rfl
  · exact eased

theorem Eased.seedMessages (messages : List Message)
    (eased : Eased bucket (single (.owner bucket id)) (joined (.owner bucket id))) :
    Eased bucket (single.seedMessages true messages (.owner bucket id))
      (joined.seedMessages true messages (.owner bucket id)) := by
  have calls : ∀ (calls : List ToolCall) (owner : Owner) (single joined : Record),
      Eased bucket (single (.owner bucket id)) (joined (.owner bucket id)) ->
      Eased bucket
        (calls.foldl (fun record call => record.seed true .toolCall call.id owner) single (.owner bucket id))
        (calls.foldl (fun record call => record.seed true .toolCall call.id owner) joined (.owner bucket id)) := by
    intro calls owner
    induction calls with
    | nil => exact fun _ _ eased => eased
    | cons call rest ih => exact fun _ _ eased => ih _ _ eased.seed
  induction messages generalizing single joined with
  | nil => exact eased
  | cons message rest ih => exact ih (calls message.calls _ _ _ eased.seed)

end Kept

section Next

variable {own : Key -> Prop} {single joined : Record} (joins : Joins own single joined)
include joins

theorem Joins.opening {bracket : Bracket} {tag : Option String} {name : String} {bucket : Bucket} {id : String}
    (names : own (.owner bucket id)) (allowed : OpenAllowed single bracket tag name) :
    Eased bucket (openNext single bracket tag name (.owner bucket id))
      (openNext joined bracket tag name (.owner bucket id)) := by
  unfold openNext
  have kept : ∀ record : Record,
      record.put (.opened bracket name) true (.owner bucket id) = record (.owner bucket id) :=
    fun record => record.put_of_ne _ Key.noConfusion
  have eased := joins.owner bucket id names
  by_cases claimed : Key.owner bucket id = .owner bracket.bucket name
  · cases claimed
    refine .of_eq (Eased.claim ?_ ?_ (fun _ => rfl) fun parent => ?_)
    · rw [kept, kept]
      exact eased
    · cases bracket <;> exact Bucket.noConfusion
    · rw [kept] at parent
      exact untagged_of_agrees (parent ▸ allowed.2)
  · rw [Record.claim_of_ne _ _ _ _ claimed, Record.claim_of_ne _ _ _ _ claimed, kept, kept]
    exact eased

theorem Joins.calling {tag : Option String} {toolCallId : String} {parentMessageId : Option String}
    {bucket : Bucket} {id : String} (names : own (.owner bucket id))
    (parents : ∀ parent, parentMessageId = some parent -> own (.owner .message parent))
    (allowed : CallAllowed single tag toolCallId parentMessageId) :
    Eased bucket (callNext single tag toolCallId parentMessageId (.owner bucket id))
      (callNext joined tag toolCallId parentMessageId (.owner bucket id)) := by
  unfold callNext
  have kept : ∀ record : Record,
      record.put (.opened .toolCall toolCallId) true (.owner bucket id) = record (.owner bucket id) :=
    fun record => record.put_of_ne _ Key.noConfusion
  have eased := joins.owner bucket id names
  have above := joins.inherited parents
  by_cases claimed : Key.owner bucket id = .owner .toolCall toolCallId
  · cases claimed
    refine .of_eq (Eased.claim ?_ Bucket.noConfusion (fun _ => ?_) fun parent => ?_)
    · rw [kept, kept]
      exact eased
    · rcases above with same | ⟨parent, unknown | activity⟩
      · rw [same]
      · rw [unknown, parent]
        rfl
      · cases activity
    · rw [kept] at parent
      have untagged := untagged_of_agrees (parent ▸ allowed.reopen)
      subst untagged
      rw [Option.none_or]
      cases known : inheritedOwner joined parentMessageId with
      | none => rfl
      | some owner =>
        have inherited := above.of_known Bucket.noConfusion known
        exact allowed.inherit rfl none parent owner inherited
  · rw [Record.claim_of_ne _ _ _ _ claimed, Record.claim_of_ne _ _ _ _ claimed, kept, kept]
    exact eased

/-- The owners a run names stay eased under its own events. -/
theorem Joins.owned {event : Event} (notStart : event.type ≠ .runStarted)
    (names : ∀ key ∈ named event, own key) (allowed : Allows single event) {bucket : Bucket} {id : String}
    (ownId : own (.owner bucket id)) :
    Eased bucket (next single event (.owner bucket id)) (next joined event (.owner bucket id)) := by
  have case := allowed.case
  have eased := joins.owner bucket id ownId
  have apart : ∀ (key : Key) (value : key.Value), Key.owner bucket id ≠ key ->
      Eased bucket (single.put key value (.owner bucket id)) (joined.put key value (.owner bucket id)) := by
    intro key value different
    rw [Record.put_of_ne _ _ different, Record.put_of_ne _ _ different]
    exact eased
  have closed : ∀ (bracket : Bracket) (name : String),
      Eased bucket (closeNext single bracket name (.owner bucket id))
        (closeNext joined bracket name (.owner bucket id)) :=
    fun bracket name => apart (.opened bracket name) false Key.noConfusion
  have lifecycle : ∀ (tag : Option String) (status : SubagentStatus),
      Eased bucket (subagentNext single tag status (.owner bucket id))
        (subagentNext joined tag status (.owner bucket id)) := by
    intro tag status
    rw [subagentNext_of_ne _ _ _ fun _ => Key.noConfusion, subagentNext_of_ne _ _ _ fun _ => Key.noConfusion]
    exact eased
  cases event with
  | textMessageStart e | reasoningStart e | reasoningMessageStart e => exact joins.opening ownId case
  | toolCallStart e =>
    refine joins.calling ownId (fun parent named => names _ (List.mem_cons_of_mem _ ?_)) case
    rw [named]
    exact List.mem_singleton.mpr rfl
  | textMessageEnd e | toolCallEnd e | reasoningMessageEnd e | reasoningEnd e => exact closed _ _
  | stepStarted e | stepFinished e | runFinished e | runError e => exact apart _ _ Key.noConfusion
  | toolCallResult e =>
    by_cases same : Key.owner bucket id = .owner .message e.messageId
    · cases same
      rw [next, next, Record.put_self, Record.put_self]
      exact .of_eq rfl
    · exact apart _ _ same
  | activitySnapshot e =>
    by_cases same : Key.owner bucket id = .owner .activity e.messageId
    · cases same
      exact eased.activityNext
    · rw [next, activityNext_of_ne _ _ _ _ same, next, activityNext_of_ne _ _ _ _ same]
      exact eased
  | subagentStarted e | subagentFinished e | subagentError e => exact lifecycle _ _
  | messagesSnapshot e => exact eased.seedMessages e.messages
  | runStarted e => exact absurd rfl notStart
  | _ => exact eased

/-- One event inside the run takes the two records to related ones. -/
theorem Joins.next {event : Event} (notStart : event.type ≠ .runStarted)
    (names : ∀ key ∈ named event, own key) (allowed : Allows single event) :
    Joins own (next single event) (Verify.next joined event) where
  phase := next_local (fun _ _ => Key.noConfusion) joins.phase event
  opened := fun bracket id => next_local (fun _ _ => Key.noConfusion) (joins.opened bracket id) event
  step := fun owner name => next_local (fun _ _ => Key.noConfusion) (joins.step owner name) event
  subagent := fun id ownId => next_local (fun _ _ => Key.noConfusion) (joins.subagent id ownId) event
  active := by
    intro id
    by_cases ownId : own (.subagent id)
    · rw [next_local (fun _ _ => Key.noConfusion) (joins.subagent id ownId) event]
      exact fun active => active
    · have unknown : Key.subagent id ∉ known event := by
        intro member
        rcases List.mem_append.mp member with member | member
        · exact ownId (names _ member)
        · rcases List.mem_flatMap.mp member with ⟨message, _, member⟩
          simp [idsOf] at member
      rw [next_of_unknown _ rfl notStart unknown, next_of_unknown _ rfl notStart unknown]
      exact joins.active id
  owner := fun bucket id ownId => joins.owned notStart names allowed ownId

end Next

/-- A stretch of a run's own events runs as well on the joined record. -/
theorem Joins.admits {own : Key -> Prop} {single joined : Record} (joins : Joins own single joined)
    {events : List Event}
    (inside : ∀ event ∈ events, event.type ≠ .runStarted ∧ ∀ key ∈ named event, own key)
    (admitted : Admits single events) :
    Admits joined events ∧ Joins own (advance single events) (advance joined events) := by
  induction events generalizing single joined with
  | nil => exact ⟨trivial, joins⟩
  | cons event rest ih =>
    have first := inside event List.mem_cons_self
    have later := ih (joins.next first.1 first.2 admitted.1)
      (List.forall_mem_cons.mp inside).2 admitted.2
    exact ⟨⟨joins.allows first.1 first.2 admitted.1, later.1⟩, later.2⟩

/-! ## From one run to the next -/

/-- A run goes on, and nothing is open in it. -/
structure Quiet (record : Record) : Prop where
  active : record .phase = .active
  closed : AllClosed record

/-- The record keeps of an id what a blank one keeps. -/
def Unseen (record : Record) (key : Key) : Prop :=
  record key = Record.blank key

theorem phase_advance_inside {record : Record} {events : List Event}
    (inside : ∀ event ∈ events, isInside event = true) :
    advance record events .phase = record .phase := by
  induction events generalizing record with
  | nil => rfl
  | cons event rest ih =>
    have later : advance (next record event) rest .phase = next record event .phase :=
      ih (List.forall_mem_cons.mp inside).2
    have first := (isInside_iff event).mp (inside event List.mem_cons_self)
    refine later.trans ?_
    rw [phase_next]
    cases event with
    | runStarted e => exact absurd rfl first.2
    | runFinished e | runError e => cases first.1
    | _ => rfl

theorem unseen_advance {record : Record} {key : Key} (isId : key.isId = true) (unseen : Unseen record key)
    {events : List Event} (unknown : ∀ event ∈ events, event.type ≠ .runStarted ∧ key ∉ known event) :
    Unseen (advance record events) key := by
  induction events generalizing record with
  | nil => exact unseen
  | cons event rest ih =>
    have first := unknown event List.mem_cons_self
    exact ih ((next_of_unknown record isId first.1 first.2).trans unseen)
      (List.forall_mem_cons.mp unknown).2

theorem unseen_runStarted {start : RunStartedEvent} {key : Key} (isId : key.isId = true)
    (unknown : key ∉ known (.runStarted start)) (record : Record) : Unseen (next record (.runStarted start)) key := by
  have apart : ¬ SeededKey (echoed start) key := fun seeded => unknown ((seededKey_iff _ _).mp seeded)
  refine (seedMessages_of_apart false _ apart _).trans (Record.put_of_ne _ _ ?_)
  rintro rfl
  cases isId

/-- An echo under no tag leaves an owner unknown or names the parent. -/
theorem seedMessages_untagged {messages : List Message} {bucket : Bucket} {id : String}
    (untagged : ∀ message ∈ messages, Key.owner bucket id ∈ idsOf message ->
      message.subagentRunId.toOption = none)
    {record : Record} (plain : record (.owner bucket id) = none ∨ record (.owner bucket id) = some none) :
    record.seedMessages false messages (.owner bucket id) = none ∨
      record.seedMessages false messages (.owner bucket id) = some none := by
  have seed : ∀ (other : Bucket) (name : String) (owner : Owner) (record : Record),
      (Key.owner bucket id = .owner other name -> owner = none) ->
      (record (.owner bucket id) = none ∨ record (.owner bucket id) = some none) ->
      record.seed false other name owner (.owner bucket id) = none ∨
        record.seed false other name owner (.owner bucket id) = some none := by
    intro other name owner record parent plain
    change record.claim other name owner (.owner bucket id) = none ∨
      record.claim other name owner (.owner bucket id) = some none
    by_cases same : Key.owner bucket id = .owner other name
    · cases same
      rw [Record.claim_self, parent rfl]
      rcases plain with plain | plain <;> rw [plain] <;> exact .inr rfl
    · rw [Record.claim_of_ne _ _ _ _ same]
      exact plain
  have calls : ∀ (calls : List ToolCall) (owner : Owner) (record : Record),
      (Key.owner bucket id ∈ calls.map (fun call => Key.owner .toolCall call.id) -> owner = none) ->
      (record (.owner bucket id) = none ∨ record (.owner bucket id) = some none) ->
      calls.foldl (fun record call => record.seed false .toolCall call.id owner) record (.owner bucket id) = none ∨
        calls.foldl (fun record call => record.seed false .toolCall call.id owner) record (.owner bucket id) =
          some none := by
    intro calls owner
    induction calls with
    | nil => exact fun _ _ plain => plain
    | cons call rest ih =>
      intro record parent plain
      exact ih _ (fun member => parent (List.mem_cons_of_mem _ member))
        (seed _ _ _ _ (fun same => parent (same ▸ List.mem_cons_self)) plain)
  induction messages generalizing record with
  | nil => exact plain
  | cons message rest ih =>
    have own := untagged message List.mem_cons_self
    refine ih (List.forall_mem_cons.mp untagged).2 ?_
    exact calls _ _ _ (fun member => own (List.mem_cons_of_mem _ member))
      (seed _ _ _ _ (fun same => own (same ▸ List.mem_cons_self)) plain)

/-- A run may go on where another stopped that knows none of its ids. -/
theorem Quiet.joins {joined : Record} (quiet : Quiet joined) (start : RunStartedEvent) {own : Key -> Prop}
    (unseen : ∀ key, own key -> Unseen joined key)
    (untagged : ∀ message ∈ echoed start, message.subagentRunId.toOption ≠ none ->
      ∀ key ∈ idsOf message, ¬ own key) :
    Joins own (next Record.blank (.runStarted start)) joined := by
  have begun : ∀ key, (∀ bucket id, key ≠ .owner bucket id) ->
      next Record.blank (.runStarted start) key = (Record.blank.put .phase .active) key :=
    fun key notOwner => Record.seedMessages_of_not_owner false _ _ notOwner
  refine ⟨?_, ?_, ?_, ?_, ?_, ?_⟩
  · rw [begun _ fun _ _ => Key.noConfusion, Record.put_self]
    exact quiet.active
  · intro bracket id
    rw [begun _ fun _ _ => Key.noConfusion, Record.put_of_ne _ _ Key.noConfusion]
    exact quiet.closed.entities bracket id
  · intro owner name
    rw [begun _ fun _ _ => Key.noConfusion, Record.put_of_ne _ _ Key.noConfusion]
    exact quiet.closed.steps owner name
  · intro id ownId
    rw [begun _ fun _ _ => Key.noConfusion, Record.put_of_ne _ _ Key.noConfusion]
    exact unseen _ ownId
  · intro id active
    exact absurd active (quiet.closed.subagents id)
  · intro bucket id ownId
    have unknown : joined (.owner bucket id) = none := unseen _ ownId
    have echoedBy : ∀ message ∈ echoed start, Key.owner bucket id ∈ idsOf message ->
        message.subagentRunId.toOption = none := by
      intro message member carries
      by_contra tagged
      exact untagged message member tagged _ carries ownId
    have plain : next Record.blank (.runStarted start) (.owner bucket id) = none ∨
        next Record.blank (.runStarted start) (.owner bucket id) = some none :=
      seedMessages_untagged echoedBy (.inl (Record.put_of_ne _ _ Key.noConfusion))
    rcases plain with same | parent
    · exact .of_eq (unknown.trans same.symm)
    · exact .inr ⟨parent, .inl unknown⟩

/-- What happens inside a run may follow another run that knows none of the
ids it names; if the run finishes, nothing is left open. -/
theorem Quiet.continued {joined : Record} (quiet : Quiet joined) {start : RunStartedEvent} {inside ending : List Event}
    (insides : ∀ event ∈ inside, isInside event = true)
    (admitted : Admits Record.blank (.runStarted start :: (inside ++ ending)))
    (unseen : ∀ event ∈ inside, ∀ key ∈ named event, Unseen joined key)
    (untagged : ∀ message ∈ echoed start, message.subagentRunId.toOption ≠ none ->
      ∀ key ∈ idsOf message, ∀ event ∈ inside, key ∉ named event) :
    Admits joined inside ∧ advance joined inside .phase = .active ∧
      ∀ (finish : RunFinishedEvent) (rest : List Event), ending = .runFinished finish :: rest ->
        Quiet (advance joined inside) := by
  have joins : Joins (fun key => ∃ event ∈ inside, key ∈ named event)
      (next Record.blank (.runStarted start)) joined :=
    quiet.joins start (fun key names => names.elim fun event found => unseen event found.1 key found.2)
      (fun message member tagged key carries names =>
        names.elim fun event found => untagged message member tagged key carries event found.1 found.2)
  have parts := (admits_append _ _ _).mp admitted.2
  have along := joins.admits
    (fun event member => ⟨((isInside_iff event).mp (insides event member)).2, fun key names => ⟨event, member, names⟩⟩)
    parts.1
  have phase : advance joined inside .phase = .active := (phase_advance_inside insides).trans quiet.active
  refine ⟨along.1, phase, ?_⟩
  rintro finish rest rfl
  exact ⟨phase, along.2.allClosed parts.2.1.case⟩

/-- A tool result leaves a quiet run quiet. -/
theorem Quiet.toolCallResult {record : Record} (quiet : Quiet record) (event : ToolCallResultEvent) :
    Allows record (.toolCallResult event) ∧ Quiet (next record (.toolCallResult event)) := by
  refine ⟨⟨quiet.active, rfl, trivial⟩, ?_, ?_⟩
  · exact (Record.put_of_ne _ _ Key.noConfusion).trans quiet.active
  · refine ⟨fun owner name => ?_, fun bracket id => ?_, fun id => ?_⟩
    · exact (Record.put_of_ne _ _ Key.noConfusion).trans (quiet.closed.steps owner name)
    · exact (Record.put_of_ne _ _ Key.noConfusion).trans (quiet.closed.entities bracket id)
    · rw [next, Record.put_of_ne _ _ Key.noConfusion]
      exact quiet.closed.subagents id

end Verify
end AgUi
