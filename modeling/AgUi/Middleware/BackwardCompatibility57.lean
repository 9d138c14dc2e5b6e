import AgUi.Middleware.RunNext
import AgUi.Verify.Acceptance
import AgUi.Verify.RunIsolation

namespace AgUi
namespace Middleware

open Library Protocol Chunks Verify

/-!
# Flattening a run for a client that predates subagents

The 0.0.57 shim drops the lifecycle events of subagents and removes every
`subagentRunId`, so that what subagents did appears to be done by the parent
agent.  Ids of messages and calls are kept apart by nobody's tag, so they
survive this.  Steps do not: the verifier keys them by owner and name, and
two owners may have a step of one name active at a time.
-/

/-! ## The middleware -/

/-- `stripSubagentRunId` of a message. -/
def stripMessage (message : Message) : Message :=
  { message with subagentRunId := .absent }

def stripMessages (messages : List Message) : List Message :=
  messages.map stripMessage

def stripInterrupt (interrupt : Interrupt) : Interrupt :=
  { interrupt with subagentRunId := .absent }

/-- Interrupts lose their tags. -/
def stripOutcome : RunFinishedOutcome -> RunFinishedOutcome
  | .interrupt interrupts => .interrupt (interrupts.map stripInterrupt)
  | outcome => outcome

/-- `stripSubagentRunId` of an event whose schema has no such field. -/
def stripUndescribed (event : BaseEvent) : BaseEvent :=
  { event with extra := event.extra.erase "subagentRunId" }

/-- `stripSubagentRunId`, and what else the middleware removes from one event. -/
def downgrade : Event -> Event
  | .textMessageStart e => .textMessageStart { e with subagentRunId := .absent }
  | .textMessageContent e => .textMessageContent { e with subagentRunId := .absent }
  | .textMessageEnd e => .textMessageEnd { e with subagentRunId := .absent }
  | .textMessageChunk e => .textMessageChunk { e with subagentRunId := .absent }
  | .toolCallStart e => .toolCallStart { e with subagentRunId := .absent }
  | .toolCallArgs e => .toolCallArgs { e with subagentRunId := .absent }
  | .toolCallEnd e => .toolCallEnd { e with subagentRunId := .absent }
  | .toolCallChunk e => .toolCallChunk { e with subagentRunId := .absent }
  | .toolCallResult e => .toolCallResult { e with subagentRunId := .absent }
  | .stateSnapshot e => .stateSnapshot { e with subagentRunId := .absent }
  | .stateDelta e => .stateDelta { e with subagentRunId := .absent }
  | .messagesSnapshot e =>
    .messagesSnapshot { toBaseEvent := stripUndescribed e.toBaseEvent, messages := stripMessages e.messages }
  | .activitySnapshot e => .activitySnapshot { e with subagentRunId := .absent }
  | .activityDelta e => .activityDelta { e with subagentRunId := .absent }
  | .raw e => .raw { e with subagentRunId := .absent }
  | .custom e => .custom { e with subagentRunId := .absent }
  | .runStarted e =>
    .runStarted
      { e with
        toBaseEvent := stripUndescribed e.toBaseEvent
        input := e.input.map fun input => { input with messages := stripMessages input.messages } }
  | .runFinished e =>
    .runFinished { e with toBaseEvent := stripUndescribed e.toBaseEvent, outcome := e.outcome.map stripOutcome }
  | .runError e => .runError { e with toBaseEvent := stripUndescribed e.toBaseEvent }
  | .stepStarted e => .stepStarted { e with subagentRunId := .absent }
  | .stepFinished e => .stepFinished { e with subagentRunId := .absent }
  | .reasoningStart e => .reasoningStart { e with subagentRunId := .absent }
  | .reasoningMessageStart e => .reasoningMessageStart { e with subagentRunId := .absent }
  | .reasoningMessageContent e => .reasoningMessageContent { e with subagentRunId := .absent }
  | .reasoningMessageEnd e => .reasoningMessageEnd { e with subagentRunId := .absent }
  | .reasoningMessageChunk e => .reasoningMessageChunk { e with subagentRunId := .absent }
  | .reasoningEnd e => .reasoningEnd { e with subagentRunId := .absent }
  | .reasoningEncryptedValue e => .reasoningEncryptedValue { e with subagentRunId := .absent }
  | .subagentStarted e => .subagentStarted { e with subagentRunId := .absent }
  | .subagentFinished e => .subagentFinished { e with subagentRunId := .absent }
  | .subagentError e => .subagentError { e with subagentRunId := .absent }
  | .other e => .other { e with subagentRunId := .absent }

/-- The stream without subagents: their own events go, and so does every tag. -/
def flatten (events : List Event) : List Event :=
  (events.filter fun event => !event.isSubagentLifecycle).map downgrade

/-- What the middleware hands on of the agent behind it, and how that ends. -/
def backwardCompatibility57 (suppressed : Bool) (events : List Event) :
    List Event × Except ChunkError TransformState :=
  (flatten (runNext suppressed events).1, (runNext suppressed events).2)

/-! ## What it keeps of an event -/

@[simp] theorem type_downgrade (event : Event) : (downgrade event).type = event.type := by
  cases event <;> rfl

theorem noNullTags_stripMessages (messages : List Message) : NoNullTags (stripMessages messages) := by
  intro message member
  rcases List.mem_map.mp member with ⟨original, _, rfl⟩
  rfl

theorem echoed_downgrade (event : RunStartedEvent) :
    echoed
        { event with
          toBaseEvent := stripUndescribed event.toBaseEvent
          input := event.input.map fun input => { input with messages := stripMessages input.messages } } =
      stripMessages (echoed event) := by
  rw [echoed, echoed]
  cases event.input <;> rfl

section Kept

variable {event : Event} (kept : event.isSubagentLifecycle = false)

include kept

theorem opens?_downgrade : opens? (downgrade event) = opens? event := by
  cases event <;> first | rfl | cases kept

theorem closes?_downgrade : closes? (downgrade event) = closes? event := by
  cases event <;> first | rfl | cases kept

theorem unattributed_downgrade : Unattributed (downgrade event) where
  tag := by
    intro _
    cases event <;> rfl
  messages := by
    have untagged : ∀ messages : List Message, ∀ message ∈ stripMessages messages,
        message.subagentRunId.toOption = none := by
      intro messages message member
      rcases List.mem_map.mp member with ⟨original, _, rfl⟩
      rfl
    intro message member
    cases event with
    | messagesSnapshot e => exact untagged _ message member
    | runStarted e =>
      rw [downgrade, carried, echoed_downgrade] at member
      exact untagged _ message member
    | _ => cases member

theorem fieldError_downgrade : fieldError (downgrade event) = none := by
  cases event with
  | runFinished e =>
    rcases outcome : e.outcome with _ | (pending | interrupts | _)
    · simp only [downgrade, fieldError, outcome, Option.map_none]
    · simp only [downgrade, fieldError, outcome, Option.map_some, stripOutcome]
    · have untagged : (interrupts.map stripInterrupt).find? (fun interrupt => interrupt.subagentRunId.isNull) =
          none := by
        rw [List.find?_eq_none]
        intro interrupt member
        rcases List.mem_map.mp member with ⟨original, _, rfl⟩
        exact Bool.false_ne_true
      simp only [downgrade, fieldError, outcome, Option.map_some, stripOutcome, untagged, Option.map_none]
    · simp only [downgrade, fieldError, outcome, Option.map_some, stripOutcome]
  | subagentStarted e | subagentFinished e | subagentError e => cases kept
  | _ => rfl

end Kept

/-! ## Steps -/

/-- The owner and the name of the step an event starts. -/
def StartsStep (owner : Owner) (name : String) (event : Event) : Prop :=
  ∃ e, event = .stepStarted e ∧ e.subagentRunId.toOption = owner ∧ e.stepName = name

def EndsStep (owner : Owner) (name : String) (event : Event) : Prop :=
  (∃ e, event = .stepFinished e ∧ e.subagentRunId.toOption = owner ∧ e.stepName = name) ∨
    event.type = .runStarted

/-- Started by `owner` in the current run and not finished by it. -/
def StepActive (past : List Event) (owner : Owner) (name : String) : Prop :=
  Since (StartsStep owner name) (EndsStep owner name) past

/-- A step starts only when no step of its name is active, whoever owns it. -/
def OneStepOfAName (past : List Event) (event : Event) : Prop :=
  ∀ e, event = .stepStarted e -> ∀ owner, ¬ StepActive past owner e.stepName

theorem step_next (record : Record) (event : Event) (owner : Owner) (name : String) :
    next record event (.step owner name) = true ↔
      StartsStep owner name event ∨ (record (.step owner name) = true ∧ ¬ EndsStep owner name event) := by
  unfold StartsStep EndsStep
  cases event with
  | textMessageStart e | toolCallStart e | reasoningStart e | reasoningMessageStart e =>
    simp [next, openNext, callNext, Record.claim_of_ne, Record.put_of_ne, Event.type]
  | textMessageEnd e | toolCallEnd e | reasoningMessageEnd e | reasoningEnd e | toolCallResult e
  | runFinished e | runError e =>
    simp [next, closeNext, Record.put_of_ne, Event.type]
  | stepStarted e =>
    by_cases same : e.subagentRunId.toOption = owner ∧ e.stepName = name
    · rcases same with ⟨rfl, rfl⟩
      simp [next]
    · have other : ¬ (owner = e.subagentRunId.toOption ∧ name = e.stepName) :=
        fun equal => same ⟨equal.1.symm, equal.2.symm⟩
      simp [next, other, same, Event.type]
  | stepFinished e =>
    by_cases same : e.subagentRunId.toOption = owner ∧ e.stepName = name
    · rcases same with ⟨rfl, rfl⟩
      simp [next]
    · have other : ¬ (owner = e.subagentRunId.toOption ∧ name = e.stepName) :=
        fun equal => same ⟨equal.1.symm, equal.2.symm⟩
      simp [next, other, same, Event.type]
  | subagentStarted e | subagentFinished e | subagentError e => simp [next, subagentNext_of_ne, Event.type]
  | messagesSnapshot e => simp [next, Record.seedMessages_of_not_owner, Event.type]
  | runStarted e =>
    simp [next, Record.seedMessages_of_not_owner, Record.put_of_ne, Record.blank, Event.type]
  | activitySnapshot e => simp [next, activityNext_of_ne, Event.type]
  | _ => simp [next, Event.type]

/-! ## Two verifiers side by side -/

/-- The record of the agent's own stream, and that of the flattened one. -/
structure Flat (record flat : Record) : Prop where
  phase : flat .phase = record .phase
  opened : ∀ bracket id, flat (.opened bracket id) = record (.opened bracket id)
  steps : ∀ name, flat (.step none name) = true ↔ ∃ owner, record (.step owner name) = true
  single : ∀ name owner other, record (.step owner name) = true -> record (.step other name) = true ->
    owner = other
  foreign : ∀ subagent name, flat (.step (some subagent) name) = false
  subagents : ∀ id, flat (.subagent id) = .unknown
  owners : OwnedByParent flat

theorem flat_blank : Flat Record.blank Record.blank where
  phase := rfl
  opened := fun _ _ => rfl
  steps := by
    intro name
    apply iff_of_false Bool.false_ne_true
    rintro ⟨owner, impossible⟩
    cases impossible
  single := by
    intro name owner other impossible
    cases impossible
  foreign := fun _ _ => rfl
  subagents := fun _ => rfl
  owners := ownedByParent_blank

/-- The event starts no step whose name the record has active. -/
def StartsApart (record : Record) (event : Event) : Prop :=
  ∀ e, event = .stepStarted e -> ∀ owner, record (.step owner e.stepName) = false

theorem opened_downgrade (record : Record) (event : Event) (bracket : Bracket) (id : String) :
    next record (downgrade event) (.opened bracket id) = next record event (.opened bracket id) := by
  cases event with
  | textMessageStart e | toolCallStart e | reasoningStart e | reasoningMessageStart e =>
    simp [downgrade, next, openNext, callNext, Record.claim_of_ne]
  | subagentStarted e | subagentFinished e | subagentError e => simp [downgrade, next, subagentNext_of_ne]
  | messagesSnapshot e | runStarted e => simp [downgrade, next, Record.seedMessages_of_not_owner]
  | stepStarted e | stepFinished e | toolCallResult e => simp [downgrade, next, Record.put_of_ne]
  | activitySnapshot e => simp [downgrade, next, activityNext_of_ne]
  | _ => rfl

namespace Flat

variable {record flat : Record} (same : Flat record flat)
include same

theorem isOpenIn_iff (bracket : Bracket) (id : String) :
    (Item.entity bracket id).IsOpenIn flat ↔ record (.opened bracket id) = true := by
  rw [Item.IsOpenIn, same.opened]
theorem phaseAllows_iff (event : Event) :
    PhaseAllows (flat .phase) (downgrade event) ↔ PhaseAllows (record .phase) event := by
  rw [same.phase]
  cases event <;> exact Iff.rfl

variable {tag : Option String}

theorem openAllowed {bracket : Bracket} {id : String}
    (allowed : OpenAllowed record bracket tag id) : OpenAllowed flat bracket none id := by
  rw [openAllowed_iff, same.isOpenIn_iff, allowed.1]
  exact Bool.false_ne_true

theorem continueAllowed {bracket : Bracket} {id : String}
    (allowed : ContinueAllowed record bracket tag id) : ContinueAllowed flat bracket none id := by
  rw [continueAllowed_iff, same.isOpenIn_iff]
  exact allowed.1

theorem callAllowed {toolCallId : String} {parentMessageId : Option String}
    (allowed : CallAllowed record tag toolCallId parentMessageId) :
    CallAllowed flat none toolCallId parentMessageId := by
  rw [callAllowed_iff same.owners, same.isOpenIn_iff, allowed.closed]
  exact Bool.false_ne_true

theorem stepStarts_iff (name : String) :
    flat (.step none name) = false ↔ ∀ owner, record (.step owner name) = false := by
  rw [← Bool.not_eq_true, same.steps, not_exists]
  exact forall_congr' fun owner => by rw [Bool.not_eq_true]

theorem allClosed (closed : AllClosed record) : AllClosed flat where
  steps := by
    intro owner name
    cases owner with
    | none => exact (same.stepStarts_iff name).mpr fun owner => closed.steps owner name
    | some subagent => exact same.foreign subagent name
  entities := fun bracket id => (same.opened bracket id).trans (closed.entities bracket id)
  subagents := by
    intro id active
    rw [same.subagents] at active
    cases active

/-- Of what the agent may send, the flattened verifier refuses only a step
that starts beside another of its name. -/
theorem allows_iff {event : Event} (kept : event.isSubagentLifecycle = false) (allowed : Allows record event) :
    Allows flat (downgrade event) ↔ StartsApart record event := by
  have case := allowed.case
  have holds : CaseAllows flat (downgrade event) ↔ StartsApart record event := by
    have elsewhere : (∀ e, event ≠ .stepStarted e) -> CaseAllows flat (downgrade event) ->
        (CaseAllows flat (downgrade event) ↔ StartsApart record event) :=
      fun other holds => iff_of_true holds fun e starts => absurd starts (other e)
    cases event with
    | stepStarted e =>
      refine (same.stepStarts_iff e.stepName).trans ⟨?_, fun apart => apart e rfl⟩
      rintro apart other ⟨⟩
      exact apart
    | stepFinished e => exact elsewhere (fun _ => Event.noConfusion) ((same.steps e.stepName).mpr ⟨_, case⟩)
    | textMessageStart e | reasoningStart e | reasoningMessageStart e =>
      exact elsewhere (fun _ => Event.noConfusion) (same.openAllowed case)
    | textMessageContent e | textMessageEnd e | toolCallArgs e | toolCallEnd e | reasoningMessageContent e
    | reasoningMessageEnd e | reasoningEnd e =>
      exact elsewhere (fun _ => Event.noConfusion) (same.continueAllowed case)
    | toolCallStart e => exact elsewhere (fun _ => Event.noConfusion) (same.callAllowed case)
    | reasoningEncryptedValue e | activityDelta e =>
      exact elsewhere (fun _ => Event.noConfusion) (tagAgrees_none _)
    | messagesSnapshot e => exact elsewhere (fun _ => Event.noConfusion) (noNullTags_stripMessages _)
    | runStarted e =>
      apply elsewhere (fun _ => Event.noConfusion)
      rw [downgrade, CaseAllows, echoed_downgrade]
      exact noNullTags_stripMessages _
    | runFinished e => exact elsewhere (fun _ => Event.noConfusion) (same.allClosed case)
    | subagentStarted e | subagentFinished e | subagentError e => cases kept
    | _ => exact elsewhere (fun _ => Event.noConfusion) trivial
  rw [← holds]
  exact ⟨Allows.case, fun goal => ⟨(same.phaseAllows_iff event).mpr allowed.phase, fieldError_downgrade kept, goal⟩⟩

/-- A lifecycle event changes nothing that the flattened record has. -/
theorem dropped {event : Event} (lifecycle : event.isSubagentLifecycle = true) : Flat (next record event) flat := by
  have unchanged : ∀ key : Key, (∀ id, key ≠ .subagent id) -> next record event key = record key := by
    intro key apart
    cases event with
    | subagentStarted e | subagentFinished e | subagentError e => exact subagentNext_of_ne _ _ _ apart
    | _ => cases lifecycle
  have steps : ∀ owner name, next record event (.step owner name) = record (.step owner name) :=
    fun owner name => unchanged _ fun id => Key.noConfusion
  refine ⟨?_, ?_, ?_, ?_, same.foreign, same.subagents, same.owners⟩
  · exact same.phase.trans (unchanged .phase fun id => Key.noConfusion).symm
  · exact fun bracket id => (same.opened bracket id).trans (unchanged _ fun _ => Key.noConfusion).symm
  · intro name
    rw [same.steps]
    exact exists_congr fun owner => by rw [steps]
  · intro name owner other
    rw [steps, steps]
    exact same.single name owner other

theorem subagents_next {event : Event} (kept : event.isSubagentLifecycle = false) (id : String) :
    next flat (downgrade event) (.subagent id) = .unknown := by
  have unknown := same.subagents id
  cases event with
  | textMessageStart e | toolCallStart e | reasoningStart e | reasoningMessageStart e =>
    simpa [downgrade, next, openNext, callNext, Record.claim_of_ne, Record.put_of_ne] using unknown
  | textMessageEnd e | toolCallEnd e | reasoningMessageEnd e | reasoningEnd e | toolCallResult e | stepStarted e
  | stepFinished e | runFinished e | runError e =>
    simpa [downgrade, next, closeNext, Record.put_of_ne] using unknown
  | subagentStarted e | subagentFinished e | subagentError e => cases kept
  | messagesSnapshot e => simpa [downgrade, next, Record.seedMessages_of_not_owner] using unknown
  | runStarted e =>
    simp [downgrade, next, Record.seedMessages_of_not_owner, Record.put_of_ne, Record.blank]
  | activitySnapshot e => simpa [downgrade, next, activityNext_of_ne] using unknown
  | _ => exact unknown

theorem opened_next {event : Event} (kept : event.isSubagentLifecycle = false) (bracket : Bracket) (id : String) :
    next flat (downgrade event) (.opened bracket id) = next record event (.opened bracket id) := by
  have unattributed := unattributed_downgrade kept
  have flatly := isOpenIn_next flat unattributed (.entity bracket id)
  have originally := isOpenIn_next record unattributed (.entity bracket id)
  rw [same.isOpenIn_iff, ← Item.IsOpenIn, ← originally, Item.IsOpenIn, Item.IsOpenIn,
    opened_downgrade record] at flatly
  exact Bool.eq_iff_iff.mpr flatly

/-- A step that starts apart from all others leaves one step of each name. -/
theorem single_next {event : Event} (apart : StartsApart record event) (name : String) (owner other : Owner)
    (one : next record event (.step owner name) = true) (two : next record event (.step other name) = true) :
    owner = other := by
  have stale : ∀ owner, StartsStep owner name event -> ∀ other, record (.step other name) = false := by
    rintro owner ⟨e, rfl, _, rfl⟩
    exact apart e rfl
  rw [step_next] at one two
  rcases one with starts | ⟨held, _⟩
  · rcases two with again | ⟨held, _⟩
    · rcases starts with ⟨e, rfl, rfl, _⟩
      rcases again with ⟨e, ⟨⟩, rfl, _⟩
      rfl
    · rw [stale owner starts other] at held
      cases held
  · rcases two with starts | ⟨also, _⟩
    · rw [stale other starts owner] at held
      cases held
    · exact same.single name owner other held also

theorem steps_next {event : Event} (kept : event.isSubagentLifecycle = false) (allowed : Allows record event)
    (name : String) :
    next flat (downgrade event) (.step none name) = true ↔
      ∃ owner, next record event (.step owner name) = true := by
  have flatly := isOpenIn_next flat (unattributed_downgrade kept) (.step name)
  rw [opens?_downgrade kept, closes?_downgrade kept, type_downgrade] at flatly
  refine flatly.trans ?_
  constructor
  · rintro (opens | ⟨held, open_still⟩)
    · cases event with
      | stepStarted e =>
        cases opens
        exact ⟨_, (step_next record _ _ _).mpr (.inl ⟨e, rfl, rfl, rfl⟩)⟩
      | subagentStarted e | subagentFinished e | subagentError e => cases kept
      | _ => cases opens
    · rcases (same.steps name).mp held with ⟨owner, active⟩
      refine ⟨owner, (step_next record _ _ _).mpr (.inr ⟨active, ?_⟩)⟩
      rintro (⟨e, rfl, _, rfl⟩ | restarts)
      · exact open_still (.inl rfl)
      · exact open_still (.inr restarts)
  · rintro ⟨owner, active⟩
    rcases (step_next record event owner name).mp active with ⟨e, rfl, _, rfl⟩ | ⟨held, open_still⟩
    · exact .inl rfl
    · refine .inr ⟨(same.steps name).mpr ⟨owner, held⟩, ?_⟩
      rintro (closes | restarts)
      · cases event with
        | stepFinished e =>
          cases closes
          have finished : record (.step e.subagentRunId.toOption e.stepName) = true := allowed.case
          exact open_still (.inl ⟨e, rfl, same.single _ _ _ finished held, rfl⟩)
        | subagentStarted e | subagentFinished e | subagentError e => cases kept
        | _ => cases closes
      · exact open_still (.inr restarts)

theorem kept {event : Event} (stays : event.isSubagentLifecycle = false) (allowed : Allows record event)
    (apart : StartsApart record event) : Flat (next record event) (next flat (downgrade event)) where
  phase := by
    rw [phase_next, phase_next]
    cases event <;> first | rfl | exact same.phase
  opened := same.opened_next stays
  steps := same.steps_next stays allowed
  single := same.single_next apart
  foreign := Verify.steps_next same.foreign (unattributed_downgrade stays)
  subagents := same.subagents_next stays
  owners := ownedByParent_next same.owners (unattributed_downgrade stays)

end Flat

/-! ## The verdict on the flattened stream -/

structure TracksFlat (past : List Event) (records : Record × Record) : Prop where
  whole : records.1 = advance Record.blank past
  flat : Flat records.1 records.2
  steps : ∀ owner name, records.1 (.step owner name) = true ↔ StepActive past owner name

theorem tracksFlat_blank : TracksFlat [] (Record.blank, Record.blank) where
  whole := rfl
  flat := flat_blank
  steps := fun _ _ => iff_of_false Bool.false_ne_true (not_since_nil _ _)

def flatNext (records : Record × Record) (event : Event) : Record × Record :=
  (next records.1 event,
    if event.isSubagentLifecycle then records.2 else next records.2 (downgrade event))

def FlatAllows (records : Record × Record) (event : Event) : Prop :=
  Allows records.1 event ∧ (event.isSubagentLifecycle = false -> Allows records.2 (downgrade event))

def FlatAdmits (records : Record × Record) (events : List Event) : Prop :=
  Admits records.1 events ∧ Admits records.2 (flatten events)

theorem flatAdmits_cons (records : Record × Record) (event : Event) (rest : List Event) :
    FlatAdmits records (event :: rest) ↔ FlatAllows records event ∧ FlatAdmits (flatNext records event) rest := by
  unfold FlatAdmits FlatAllows flatNext flatten
  cases lifecycle : event.isSubagentLifecycle with
  | true =>
    rw [List.filter_cons_of_neg (by simp [lifecycle])]
    simp [Admits, and_assoc]
  | false =>
    rw [List.filter_cons_of_pos (by simp [lifecycle])]
    simp [Admits, and_assoc, and_left_comm]

variable {records : Record × Record}

theorem startsApart_iff {past : List Event} (tracks : TracksFlat past records)
    (event : Event) : StartsApart records.1 event ↔ OneStepOfAName past event := by
  unfold StartsApart OneStepOfAName
  refine forall_congr' fun e => forall_congr' fun _ => forall_congr' fun owner => ?_
  rw [← tracks.steps, Bool.not_eq_true]

theorem flatAllows_iff {past : List Event} (tracks : TracksFlat past records) (event : Event) :
    FlatAllows records event ↔ Allows (advance Record.blank past) event ∧ OneStepOfAName past event := by
  rw [FlatAllows, ← tracks.whole, ← startsApart_iff tracks]
  apply and_congr_right
  intro allowed
  cases lifecycle : event.isSubagentLifecycle with
  | true =>
    refine iff_of_true (nofun) ?_
    rintro e rfl
    cases lifecycle
  | false => exact ⟨fun holds => (tracks.flat.allows_iff lifecycle allowed).mp (holds rfl),
      fun apart _ => (tracks.flat.allows_iff lifecycle allowed).mpr apart⟩

theorem tracksFlat_next {past : List Event} (tracks : TracksFlat past records)
    {event : Event} (allowed : FlatAllows records event) :
    TracksFlat (past ++ [event]) (flatNext records event) where
  whole := by
    rw [advance_snoc, ← tracks.whole]
    rfl
  flat := by
    unfold flatNext
    have apart := (startsApart_iff tracks event).mpr ((flatAllows_iff tracks event).mp allowed).2
    cases lifecycle : event.isSubagentLifecycle with
    | true => exact tracks.flat.dropped lifecycle
    | false => exact tracks.flat.kept lifecycle allowed.1 apart
  steps := by
    intro owner name
    rw [StepActive, since_snoc, ← StepActive, ← tracks.steps]
    exact step_next records.1 event owner name

theorem accepted_flatten_iff {events : List Event} (valid : accepted events = true) :
    accepted (flatten events) = true ↔ EverywhereOn OneStepOfAName events := by
  have both : FlatAdmits (Record.blank, Record.blank) events ↔ EverywhereOn
      (fun more event => Allows (advance Record.blank ([] ++ more)) event ∧ OneStepOfAName ([] ++ more) event)
      events :=
    everywhereOn_iff_of_tracks
      (fun past event => Allows (advance Record.blank past) event ∧ OneStepOfAName past event)
      TracksFlat flatNext (fun _ => ⟨trivial, trivial⟩) flatAdmits_cons
      (fun past records event _ tracks => flatAllows_iff tracks event)
      (fun past records event _ tracks allowed => tracksFlat_next tracks allowed)
      tracksFlat_blank
  have admitted := (accepted_iff_admits events).mp valid
  have everywhere : EverywhereOn (fun past event => Allows (advance Record.blank past) event) events := by
    rintro past event future rfl
    exact allows_of_accepted valid
  rw [accepted_iff_admits]
  simp only [List.nil_append] at both
  rw [everywhereOn_and] at both
  exact ⟨fun flat => (both.mp ⟨admitted, flat⟩).2, fun apart => (both.mpr ⟨everywhere, apart⟩).2⟩

/-! ## Before the expansion of chunks -/

/-- The events the rule on steps looks at. -/
def concernsSteps : Event -> Bool
  | .stepStarted _ => true
  | .stepFinished _ => true
  | .runStarted _ => true
  | _ => false

theorem everywhereOn_concernsSteps (events : List Event) :
    EverywhereOn OneStepOfAName (events.filter concernsSteps) ↔ EverywhereOn OneStepOfAName events := by
  apply everywhereOn_filter
  · rintro past event unconcerned e rfl
    cases unconcerned
  · intro past event
    refine forall_congr' fun e => forall_congr' fun _ => forall_congr' fun owner => not_congr ?_
    apply since_filter
    intro event unconcerned
    constructor
    · rintro ⟨started, rfl, _⟩
      cases unconcerned
    · rintro (⟨finished, rfl, _⟩ | restarts)
      · cases unconcerned
      · cases event with
        | runStarted e => cases unconcerned
        | _ => cases restarts

theorem everywhereOn_expansion {suppressed : Bool} {events expanded : List Event} {final : TransformState}
    (expansion : Stage.Runs (transformChunks suppressed) {} events expanded final) :
    EverywhereOn OneStepOfAName expanded ↔ EverywhereOn OneStepOfAName events := by
  rw [← everywhereOn_concernsSteps expanded, ← everywhereOn_concernsSteps events, filter_expansion _ _ expansion]
  · intro event chunk
    cases event <;> first | rfl | cases chunk
  · intro event streamed
    cases event <;> first | rfl | cases streamed

/-- Behind the shim a valid run stays valid exactly when no step starts while
another of its name is active, whoever owns the two. -/
theorem backwardCompatibility57_accepted_iff (suppressed : Bool) (events expanded : List Event)
    (final : TransformState) (expansion : Stage.Runs (transformChunks suppressed) {} events expanded final)
    (valid : accepted expanded = true) :
    accepted (backwardCompatibility57 suppressed events).1 = true ↔ EverywhereOn OneStepOfAName events := by
  have handed : (runNext suppressed events).1 = expanded := by
    rw [runNext, (Stage.runs_iff_run _ _ _ _).mp expansion]
  rw [backwardCompatibility57, handed, accepted_flatten_iff valid, everywhereOn_expansion expansion]

/-- Parent and subagent plan one after the other, while both stream. -/
theorem backwardCompatibility57_accepted_iff_turns :
    EverywhereOn OneStepOfAName
      [.runStarted { threadId := "t", runId := "r" },
       .subagentStarted { subagentRunId := .value "s", name := some "worker" },
       .stepStarted { stepName := "plan" },
       .textMessageChunk { messageId := some "m", subagentRunId := .value "s", delta := some "text" },
       .stepFinished { stepName := "plan" },
       .stepStarted { stepName := "plan", subagentRunId := .value "s" },
       .stepFinished { stepName := "plan", subagentRunId := .value "s" },
       .subagentFinished { subagentRunId := .value "s" },
       .runFinished { threadId := "t", runId := "r" }] :=
  (backwardCompatibility57_accepted_iff false _ _ _ ((Stage.runs_iff_run _ _ _ _).mpr rfl) (by decide)).mp
    (by decide)

/-- Parent and subagent each plan: a valid run whose flattened form starts a
step that is already active. -/
def bothPlan : List Event :=
  [.runStarted { threadId := "t", runId := "r" },
   .subagentStarted { subagentRunId := .value "s", name := some "worker" },
   .stepStarted { stepName := "plan" },
   .stepStarted { stepName := "plan", subagentRunId := .value "s" },
   .stepFinished { stepName := "plan", subagentRunId := .value "s" },
   .stepFinished { stepName := "plan" },
   .subagentFinished { subagentRunId := .value "s" },
   .runFinished { threadId := "t", runId := "r" }]

/-- Without their owners the two steps are one. -/
theorem backwardCompatibility57_refused :
    accepted bothPlan = true ∧ accepted (backwardCompatibility57 false bothPlan).1 = false := by
  decide

end Middleware
end AgUi
