import AgUi.Kotlin.Reading

namespace AgUi
namespace Kotlin

open Library Protocol Verify Building

/-!
# The Kotlin verifier admits what the record allows

One lemma for each kind of event: if the Kotlin verifier takes the step, the
record it is read as allows it, and the state it ends in reads as the next
record.  Then the whole stream, by induction.
-/

/-! ## Checks -/

theorem checkOwner_ok_iff {owners : OrderedMap String Owner} {id : String} {tag : Option String} :
    EventVerifier.checkOwner owners id tag = .ok () ↔ TagAgrees (owners.get? id) tag := by
  unfold EventVerifier.checkOwner
  split
  · rename_i name known found
    rw [found]
    split
    · rename_i same
      refine iff_of_true rfl ?_
      intro owner owned other named
      cases owned
      cases named
      exact same
    · rename_i different
      refine iff_of_false (fun impossible => by cases impossible) fun agrees => ?_
      exact different (agrees known rfl name rfl)
  · rename_i missing
    refine iff_of_true rfl ?_
    intro owner owned other named
    exact absurd owned (missing other owner named)

theorem requireOpen_ok_iff {state : EventVerifier} {bracket : Bracket} {id message : String} :
    state.requireOpen bracket id message = .ok () ↔ (state.opened bracket).has id = true := by
  unfold EventVerifier.requireOpen
  split
  · rename_i present
    exact iff_of_true rfl present
  · rename_i absent
    exact iff_of_false (fun impossible => by cases impossible) absent

namespace EventVerifier

variable {state next : EventVerifier} {record : Record} {sources : Sources}

/-! ## The gate -/

theorem phase_eq_active_iff (state : EventVerifier) :
    state.phase = .active ↔
      state.runError = false ∧ state.runFinished = false ∧ state.firstEventReceived = true := by
  rw [phase]
  cases state.runError <;> cases state.runFinished <;> cases state.firstEventReceived <;> simp

theorem phase_eq_errored_iff (state : EventVerifier) : state.phase = .errored ↔ state.runError = true := by
  rw [phase]
  cases state.runError <;> cases state.runFinished <;> cases state.firstEventReceived <;> simp

theorem gate_inside {event : Event} (notStart : event.type ≠ .runStarted) (notError : event.type ≠ .runError)
    (done : state.gate event = .ok next) : next = state ∧ state.phase = .active := by
  rw [phase_eq_active_iff]
  unfold gate at done
  cases errored : state.runError <;> cases finished : state.runFinished <;>
    cases begun : state.firstEventReceived <;> simp_all

/-- The state in which the first event of a run is looked at. -/
structure Entered (state : EventVerifier) : Prop where
  reads : state.Reads (Record.blank.put .phase .active)
  begun : state.firstEventReceived = true
  fine : state.runError = false
  going : state.runFinished = false
  closed : state.closedSubagents = OrderedMap.empty
  owners : ∀ bracket, state.ownersOf bracket = OrderedMap.empty

/-- Of a run that has just begun only the flags and its ids are known. -/
def begunRun (runStarted : Bool) (threadId runId : Option String) : EventVerifier where
  firstEventReceived := true
  runStarted := runStarted
  currentThreadId := threadId
  currentRunId := runId

theorem entered_begunRun (runStarted : Bool) (threadId runId : Option String) :
    (begunRun runStarted threadId runId).Entered := by
  constructor
  · constructor
    · rfl
    · intro bracket id
      cases bracket <;> rfl
    · exact fun _ _ => rfl
    · exact fun _ => rfl
  case owners =>
    intro bracket
    cases bracket <;> rfl
  all_goals rfl

theorem gate_runStarted (coherent : state.Coherent) {event : RunStartedEvent}
    (done : state.gate (.runStarted event) = .ok next) : state.phase ≠ .active ∧ next.Entered := by
  rw [ne_eq, phase_eq_active_iff]
  unfold gate at done
  rw [if_neg fun both => both.2 rfl, if_neg fun both => both.2.2 rfl] at done
  by_cases begun : state.firstEventReceived = false
  · rw [if_pos begun, if_neg fun both => both.1 rfl] at done
    cases done
    refine ⟨fun active => ?_, ?_⟩
    · rw [begun] at active
      cases active.2.2
    · rw [coherent.fresh begun]
      exact entered_begunRun false none none
  · have starts : (Event.runStarted event).type = .runStarted := rfl
    rw [if_neg begun, if_pos starts] at done
    have received := Bool.not_eq_false _ ▸ begun
    split at done
    · cases done
    · rename_i stopped
      cases done
      have idle : ¬ (state.runError = false ∧ state.runFinished = false) := by
        intro running
        exact stopped ⟨coherent.started received running.1 running.2, running.2, running.1⟩
      have ended : state.runFinished = true ∨ state.runError = true := by
        cases errored : state.runError
        · cases finished : state.runFinished
          · exact absurd ⟨errored, finished⟩ idle
          · exact Or.inl rfl
        · exact Or.inr rfl
      refine ⟨fun active => idle ⟨active.1, active.2.1⟩, ?_⟩
      rw [if_pos ended]
      unfold resetRun
      rw [received]
      exact entered_begunRun true state.currentThreadId state.currentRunId

theorem gate_runError {event : RunErrorEvent} (done : state.gate (.runError event) = .ok next) :
    state.phase ≠ .errored ∧ next = { state with firstEventReceived := true } := by
  rw [ne_eq, phase_eq_errored_iff]
  unfold gate at done
  by_cases errored : state.runError = true
  · rw [if_pos ⟨errored, fun impossible => by cases impossible⟩] at done
    cases done
  · refine ⟨errored, ?_⟩
    rw [if_neg fun both => errored both.1, if_neg fun both => both.2.1 rfl] at done
    by_cases begun : state.firstEventReceived = false
    · rw [if_pos begun, if_neg fun both => both.2 rfl] at done
      cases done
      rfl
    · rw [if_neg begun, if_neg fun impossible => by cases impossible] at done
      cases done
      have received := Bool.not_eq_false _ ▸ begun
      cases state
      cases received
      rfl

/-! ## One event inside a run -/

/-- A step inside a run: allowed by the record, and read as its next record. -/
structure Stepped (state next : EventVerifier) (record : Record) (event : Event) : Prop where
  allowed : CaseAllows record event
  reads : next.Reads (Verify.next record event)
  announced : ∀ id, next.closedSubagents.has id = true -> next.subagents.has id = true
  flags : next.runError = state.runError ∧ next.firstEventReceived = state.firstEventReceived ∧
    next.runStarted = state.runStarted

theorem flags_withOpened (state : EventVerifier) (bracket : Bracket) (ids : OrderedSet String) :
    (state.withOpened bracket ids).runError = state.runError ∧
      (state.withOpened bracket ids).firstEventReceived = state.firstEventReceived ∧
      (state.withOpened bracket ids).runStarted = state.runStarted := by
  cases bracket <;> exact ⟨rfl, rfl, rfl⟩

theorem subagents_withOpened (state : EventVerifier) (bracket : Bracket) (ids : OrderedSet String) :
    (state.withOpened bracket ids).subagents = state.subagents ∧
      (state.withOpened bracket ids).closedSubagents = state.closedSubagents := by
  cases bracket <;> exact ⟨rfl, rfl⟩

variable {other : EventVerifier}

theorem Same.announced (same : Same state other) (coherent : state.Coherent) :
    ∀ id, other.closedSubagents.has id = true -> other.subagents.has id = true := by
  rw [same.closed, same.subagents]
  exact coherent.announced

theorem Same.flags (same : Same state other) :
    other.runError = state.runError ∧ other.firstEventReceived = state.firstEventReceived ∧
      other.runStarted = state.runStarted :=
  ⟨same.runError, same.begun, same.runStarted⟩

section

variable (coherent : state.Coherent)

include coherent

section

variable (reads : state.Reads record)

include reads

/-- A step that changes neither the record nor what is read of the state. -/
theorem stepped_same {event : Event} (same : Same state next)
    (allowed : CaseAllows record event) (unchanged : Verify.next record event = record) :
    Stepped state next record event where
  allowed := allowed
  reads := by
    rw [unchanged]
    exact reads.same same
  announced := same.announced coherent
  flags := same.flags

theorem stepped_open {event : Event} {middle : EventVerifier} {bracket : Bracket} {id : String} {owner : Owner}
    (same : Same state middle)
    (allowed : CaseAllows record event)
    (effect : Verify.next record event = (record.put (.opened bracket id) true).claim bracket.bucket id owner) :
    Stepped state (middle.open_ bracket id) record event where
  allowed := allowed
  reads := by
    rw [effect]
    exact ((reads.same same).open_ bracket id).claim _ _ _
  announced := by
    have kept := subagents_withOpened middle bracket ((middle.opened bracket).add id)
    unfold open_
    rw [kept.1, kept.2]
    exact same.announced coherent
  flags := by
    have kept := flags_withOpened middle bracket ((middle.opened bracket).add id)
    exact ⟨kept.1.trans same.runError, kept.2.1.trans same.begun, kept.2.2.trans same.runStarted⟩

theorem stepped_close {event : Event} {bracket : Bracket} {id : String} (allowed : CaseAllows record event)
    (effect : Verify.next record event = closeNext record bracket id) :
    Stepped state (state.close bracket id) record event where
  allowed := allowed
  reads := by
    rw [effect]
    exact reads.close bracket id
  announced := by
    have kept := subagents_withOpened state bracket ((state.opened bracket).erase id)
    unfold close
    rw [kept.1, kept.2]
    exact coherent.announced
  flags := flags_withOpened state bracket _

/-! ## Openers -/

theorem stepped_textMessageStart {event : TextMessageStartEvent} (tracks : Tracks state record sources)
    (overseen : Overseen state record sources (.textMessageStart event))
    (done : state.textMessageStart event = .ok next) : Stepped state next record (.textMessageStart event) := by
  unfold textMessageStart at done
  simp only at done
  split at done
  · cases done
  · rename_i closed
    split at done
    · cases done
    · rcases outcome_bind_ok_iff.mp done with ⟨_, checked, last⟩
      cases last
      have notOpen : record (.opened .textMessage event.messageId) = false :=
        (reads.opened .textMessage event.messageId).trans (Bool.eq_false_iff.mpr closed)
      have same := same_claim state .textMessage event.messageId event.subagentRunId.toOption
      have roles : Same (state.claim .textMessage event.messageId event.subagentRunId.toOption)
          { state.claim .textMessage event.messageId event.subagentRunId.toOption with
            messageRoles := (state.claim .textMessage event.messageId
              event.subagentRunId.toOption).messageRoles.set event.messageId (event.role.getD .assistant) } :=
        ⟨rfl, fun bracket => by cases bracket <;> rfl, rfl, rfl, rfl, rfl, rfl, rfl, rfl⟩
      exact stepped_open coherent reads (same.trans roles)
        ⟨notOpen, tracks.agrees overseen (checkOwner_ok_iff.mp checked)⟩ rfl

theorem stepped_reasoningOpen {event : Event} {bracket : Bracket} {entity id : String} {tag : Option String}
    (tracks : Tracks state record sources) (allowed : OpenAllowed record bracket tag id -> CaseAllows record event)
    (effect : Verify.next record event = openNext record bracket tag id)
    (compared : Compared record sources bracket id tag)
    (done : reasoningOpen bracket entity state tag id = .ok next) : Stepped state next record event := by
  rcases outcome_bind_ok_iff.mp done with ⟨_, checked, rest⟩
  have same := same_claim state bracket id tag
  simp only at rest
  split at rest
  · cases rest
  · rename_i closed
    cases rest
    have notOpen : record (.opened bracket id) = false := by
      rw [reads.opened, ← same.opened]
      exact Bool.eq_false_iff.mpr closed
    exact stepped_open coherent reads same
      (allowed ⟨notOpen, tracks.agrees compared (checkOwner_ok_iff.mp checked)⟩) effect

end

end

/-- What the owner checks of a call's opener come to. -/
theorem callAllowed_of_checks {event : ToolCallStartEvent} (tracks : Tracks state record sources)
    (compared : CallCompared record sources event.subagentRunId.toOption event.toolCallId event.parentMessageId)
    (closed : record (.opened .toolCall event.toolCallId) = false)
    (parentAgrees : ¬ (event.subagentRunId.toOption.isSome && (event.parentMessageId.bind
      state.messageOwners.get?).any (· ≠ event.subagentRunId.toOption)) = true)
    (checked : TagAgrees (state.toolOwners.get? event.toolCallId) event.subagentRunId.toOption)
    (same : ¬ ((state.toolOwners.get? event.toolCallId).any (· ≠ event.subagentRunId.toOption.or
      ((event.parentMessageId.bind state.messageOwners.get?).getD
        (state.toolOwners.get? event.toolCallId).join))) = true) :
    CallAllowed record event.subagentRunId.toOption event.toolCallId event.parentMessageId := by
  constructor
  · exact closed
  · rcases compared.parent with shared | agrees
    · rw [tracks.parent shared] at parentAgrees
      intro owner owned name tagged
      rw [owned, tagged] at parentAgrees
      simpa using parentAgrees
    · exact agrees
  · exact tracks.agrees compared.reopen checked
  · intro untagged known owned inherited inherits
    rcases compared.inherit untagged with ⟨sharedParent, shared⟩ | always
    · have call : state.toolOwners.get? event.toolCallId = record (.owner .toolCall event.toolCallId) :=
        tracks.known shared
      rw [tracks.parent sharedParent, call, untagged, owned, inherits] at same
      exact (Decidable.of_not_not fun different => same (decide_eq_true different)).symm
    · exact always known owned inherited inherits

theorem stepped_toolCallStart {event : ToolCallStartEvent} (coherent : state.Coherent) (reads : state.Reads record)
    (tracks : Tracks state record sources) (overseen : Overseen state record sources (.toolCallStart event))
    (done : state.toolCallStart event = .ok next) : Stepped state next record (.toolCallStart event) := by
  unfold toolCallStart at done
  simp only at done
  split at done
  · cases done
  · rename_i closed
    split at done
    · cases done
    · rename_i parentAgrees
      rcases outcome_bind_ok_iff.mp done with ⟨_, checked, rest⟩
      split at rest
      · cases rest
      · rename_i same
        cases rest
        have notOpen : record (.opened .toolCall event.toolCallId) = false :=
          (reads.opened .toolCall event.toolCallId).trans (Bool.eq_false_iff.mpr closed)
        refine stepped_open coherent reads ?_
          (callAllowed_of_checks tracks overseen notOpen parentAgrees (checkOwner_ok_iff.mp checked) same) rfl
        exact ⟨rfl, fun bracket => by cases bracket <;> rfl, rfl, rfl, rfl, rfl, rfl, rfl, rfl⟩

/-! ## Continuations and closers -/

theorem continueAllowed_of_checks {bracket : Bracket} {id message : String} {tag : Option String}
    (reads : state.Reads record) (tracks : Tracks state record sources)
    (compared : Compared record sources bracket id tag)
    (checked : checkOwner (state.ownersOf bracket) id tag = .ok ())
    (found : state.requireOpen bracket id message = .ok ()) : ContinueAllowed record bracket tag id :=
  ⟨(reads.opened bracket id).trans (requireOpen_ok_iff.mp found), tracks.agrees compared (checkOwner_ok_iff.mp checked)⟩

/-! ## Steps -/

/-- Of the record only the step of the event changes. -/
theorem Reads.step {steps : OrderedSet (Option String × String)} {owner : Option String} {name : String}
    {running : Bool} (reads : state.Reads record)
    (changes : ∀ step, steps.has step = if step = (owner, name) then running else state.activeSteps.has step) :
    { state with activeSteps := steps }.Reads (record.put (.step owner name) running) := by
  constructor
  · exact (record.put_of_ne _ (by simp)).trans reads.phase
  · intro bracket id
    have kept := reads.opened bracket id
    cases bracket <;> exact (record.put_of_ne _ (by simp)).trans kept
  · intro other step
    rw [Record.put_step, changes, reads.steps]
    simp only [Prod.mk.injEq]
  · exact fun id => (record.put_of_ne _ (by simp)).trans (reads.subagents id)

theorem stepped_stepStarted {event : StepStartedEvent} (coherent : state.Coherent) (reads : state.Reads record)
    (inactive : state.activeSteps.has (event.subagentRunId.toOption, event.stepName) = false) :
    Stepped state { state with activeSteps := state.activeSteps.add (event.subagentRunId.toOption, event.stepName) }
      record (.stepStarted event) where
  allowed := (reads.steps _ _).trans inactive
  reads := reads.step fun step => by
    rw [OrderedSet.has_add]
    by_cases same : step = (event.subagentRunId.toOption, event.stepName) <;> simp [same]
  announced := coherent.announced
  flags := ⟨rfl, rfl, rfl⟩

theorem stepped_stepFinished {event : StepFinishedEvent} (coherent : state.Coherent) (reads : state.Reads record)
    (active : state.activeSteps.has (event.subagentRunId.toOption, event.stepName) = true) :
    Stepped state { state with activeSteps := state.activeSteps.erase (event.subagentRunId.toOption, event.stepName) }
      record (.stepFinished event) where
  allowed := (reads.steps _ _).trans active
  reads := reads.step fun step => by
    rw [OrderedMap.has_erase]
    by_cases same : step = (event.subagentRunId.toOption, event.stepName) <;> simp [same]
  announced := coherent.announced
  flags := ⟨rfl, rfl, rfl⟩

/-! ## Subagents -/

theorem has_filterKeys {K V : Type} [DecidableEq K] (map : OrderedMap K V) (keep : K -> Bool) (key : K) :
    (map.filterKeys keep).has key = (keep key && map.has key) := by
  unfold OrderedMap.has
  rw [OrderedMap.get?_filterKeys]
  cases keep key <;> rfl

/-- Dropping what a quiet subagent has open drops nothing. -/
theorem same_dropOpen {id : String} {bracket : Bracket}
    (quiet : ∀ entity, (state.opened bracket).has entity = true ->
      (state.ownersOf bracket).get? entity ≠ some (some id)) (other : Bracket) (entity : String) :
    ((state.dropOpen id bracket).opened other).has entity = (state.opened other).has entity := by
  unfold dropOpen
  rw [opened_withOpened]
  split
  · rename_i same
    subst same
    rw [has_filterKeys]
    cases present : (state.opened other).has entity with
    | false => rw [Bool.and_false]
    | true =>
      have strange := quiet entity present
      rw [Bool.and_true, Bool.not_eq_true', beq_eq_false_iff_ne]
      exact strange
  · rfl

theorem dropOpen_frame (state : EventVerifier) (id : String) (bracket : Bracket) :
    (state.dropOpen id bracket).phase = state.phase ∧
      (state.dropOpen id bracket).activeSteps = state.activeSteps ∧
      (state.dropOpen id bracket).subagents = state.subagents ∧
      (state.dropOpen id bracket).closedSubagents = state.closedSubagents ∧
      (∀ other, (state.dropOpen id bracket).ownersOf other = state.ownersOf other) ∧
      (state.dropOpen id bracket).runError = state.runError ∧
      (state.dropOpen id bracket).firstEventReceived = state.firstEventReceived ∧
      (state.dropOpen id bracket).runStarted = state.runStarted := by
  cases bracket <;> exact ⟨rfl, rfl, rfl, rfl, fun other => by cases other <;> rfl, rfl, rfl, rfl⟩

/-- A state with the same entities open, and otherwise read alike. -/
structure Alike (state other : EventVerifier) : Prop where
  phase : other.phase = state.phase
  opened : ∀ bracket entity, (other.opened bracket).has entity = (state.opened bracket).has entity
  owners : ∀ bracket, other.ownersOf bracket = state.ownersOf bracket
  steps : ∀ step, other.activeSteps.has step = state.activeSteps.has step
  subagents : other.subagents = state.subagents
  closed : other.closedSubagents = state.closedSubagents
  flags : other.runError = state.runError ∧ other.firstEventReceived = state.firstEventReceived ∧
    other.runStarted = state.runStarted

theorem alike_dropOpen {id : String} (quiet : state.Quiet id) (alike : Alike state other)
    (bracket : Bracket) : Alike state (other.dropOpen id bracket) := by
  rcases dropOpen_frame other id bracket with ⟨phase, steps, subagents, closed, owners, error, begun, started⟩
  have quietThere : ∀ entity, (other.opened bracket).has entity = true ->
      (other.ownersOf bracket).get? entity ≠ some (some id) := by
    intro entity present
    rw [alike.owners]
    exact quiet.entities bracket entity ((alike.opened bracket entity).symm.trans present)
  constructor
  · exact phase.trans alike.phase
  · exact fun name entity => (same_dropOpen quietThere name entity).trans (alike.opened name entity)
  · exact fun name => (owners name).trans (alike.owners name)
  · intro step
    rw [steps]
    exact alike.steps step
  · exact subagents.trans alike.subagents
  · exact closed.trans alike.closed
  · exact ⟨error.trans alike.flags.1, begun.trans alike.flags.2.1, started.trans alike.flags.2.2⟩

theorem alike_dropSteps {id : String} (quiet : state.Quiet id) (alike : Alike state other) :
    Alike state (other.dropSteps id) where
  phase := alike.phase
  opened := by
    intro bracket entity
    have kept := alike.opened bracket entity
    cases bracket <;> exact kept
  owners := by
    intro bracket
    have kept := alike.owners bracket
    cases bracket <;> exact kept
  steps := by
    intro step
    unfold dropSteps
    rw [has_filterKeys, alike.steps]
    rcases step with ⟨owner, name⟩
    by_cases own : owner = some id
    · rw [own, quiet.steps name, Bool.and_false]
    · rw [beq_eq_false_iff_ne.mpr own, Bool.not_false, Bool.true_and]
  subagents := alike.subagents
  closed := alike.closed
  flags := alike.flags

theorem Alike.refl (state : EventVerifier) : Alike state state :=
  ⟨rfl, fun _ _ => rfl, fun _ => rfl, fun _ => rfl, rfl, rfl, ⟨rfl, rfl, rfl⟩⟩

/-- A subagent that was announced and not closed is closed. -/
theorem stepped_closed {event : Event} {id : String} (coherent : state.Coherent)
    (reads : state.Reads record) (alike : Alike state other) (announced : state.subagents.has id = true)
    (allowed : CaseAllows record event)
    (effect : Verify.next record event = record.put (.subagent id) .closed) :
    Stepped state { other with closedSubagents := other.closedSubagents.add id } record event where
  allowed := allowed
  reads := by
    rw [effect]
    constructor
    · exact (record.put_of_ne _ (by simp)).trans (reads.phase.trans alike.phase.symm)
    · intro bracket entity
      have kept := (reads.opened bracket entity).trans (alike.opened bracket entity).symm
      cases bracket <;> exact (record.put_of_ne _ (by simp)).trans kept
    · intro owner name
      exact (record.put_of_ne _ (by simp)).trans ((reads.steps owner name).trans (alike.steps _).symm)
    · intro name
      rw [Record.put_subagent]
      unfold subagentStatus
      rw [OrderedSet.has_add, alike.closed, alike.subagents]
      by_cases same : name = id
      · rw [if_pos same, decide_eq_true same, Bool.true_or, if_pos rfl]
      · rw [if_neg same, decide_eq_false same, Bool.false_or, reads.subagents]
        rfl
  announced := by
    intro name closed
    change (other.closedSubagents.add id).has name = true at closed
    change other.subagents.has name = true
    rw [OrderedSet.has_add, alike.closed] at closed
    rw [alike.subagents]
    rcases Bool.or_eq_true_iff.mp closed with same | earlier
    · rw [of_decide_eq_true same]
      exact announced
    · exact coherent.announced name earlier
  flags := alike.flags

theorem active_of_announced {id : String} (reads : state.Reads record) (announced : state.subagents.has id = true)
    (open_ : state.closedSubagents.has id ≠ true) : record (.subagent id) = .active := by
  rw [reads.subagents]
  unfold subagentStatus
  rw [if_neg open_, if_pos announced]

theorem stepped_closeSubagent {event : Event} {id : String} {failed : Bool} (coherent : state.Coherent)
    (reads : state.Reads record) (quiet : failed = true -> state.Quiet id)
    (allowed : record (.subagent id) = .active -> CaseAllows record event)
    (effect : Verify.next record event = record.put (.subagent id) .closed)
    (done : state.closeSubagent id failed = .ok next) : Stepped state next record event := by
  unfold closeSubagent at done
  split at done
  · cases done
  · rename_i active
    have announced : state.subagents.has id = true := Bool.not_eq_false _ ▸ fun absent => active (Or.inl absent)
    have notClosed : state.closedSubagents.has id ≠ true := fun closed => active (Or.inr closed)
    have allows := allowed (active_of_announced reads announced notClosed)
    split at done
    · cases done
    · cases done
      cases failed with
      | false => exact stepped_closed coherent reads (.refl state) announced allows effect
      | true =>
        have still := quiet rfl
        have dropped := alike_dropSteps still (alike_dropOpen still (alike_dropOpen still (alike_dropOpen still
          (alike_dropOpen still (.refl state) .textMessage) .toolCall) .reasoningMessage) .reasoningSpan)
        exact stepped_closed coherent reads dropped announced allows effect

theorem stepped_subagentStarted {event : SubagentStartedEvent} (coherent : state.Coherent) (reads : state.Reads record)
    (done : state.subagentStarted event = .ok next) : Stepped state next record (.subagentStarted event) := by
  unfold subagentStarted at done
  split at done
  · cases done
  · cases done
  · rename_i id name identified named
    simp only at done
    split at done
    · cases done
    split at done
    · cases done
    rename_i fresh
    split at done
    · cases done
    split at done
    · cases done
    rename_i parentOpen
    split at done
    · cases done
    split at done
    · cases done
    cases done
    have unknown : state.subagentStatus id = .unknown := by
      have notClosed : state.closedSubagents.has id ≠ true := fun closed => fresh (coherent.announced id closed)
      unfold subagentStatus
      rw [if_neg notClosed, if_neg fresh]
    have effect : Verify.next record (.subagentStarted event) = record.put (.subagent id) .active := by
      change subagentNext record event.subagentRunId.toOption .active = _
      rw [identified]
      rfl
    constructor
    · refine ⟨by rw [named]; rfl, ⟨id, identified, (reads.subagents id).trans unknown⟩, ?_⟩
      intro parent isParent
      rw [isParent, Option.any_some, Bool.or_eq_true, not_or] at parentOpen
      rw [reads.subagents]
      unfold subagentStatus
      have announced : state.subagents.has parent = true := by simpa using parentOpen.1
      rw [if_neg parentOpen.2, if_pos announced]
      exact fun impossible => by cases impossible
    · rw [effect]
      constructor
      · exact (record.put_of_ne _ (by simp)).trans reads.phase
      · intro bracket entity
        have kept := reads.opened bracket entity
        cases bracket <;> exact (record.put_of_ne _ (by simp)).trans kept
      · exact fun owner step => (record.put_of_ne _ (by simp)).trans (reads.steps owner step)
      · intro other
        rw [Record.put_subagent]
        unfold subagentStatus
        rw [OrderedMap.has_set]
        by_cases same : other = id
        · have notClosed : state.closedSubagents.has id ≠ true := fun closed => fresh (coherent.announced id closed)
          rw [if_pos same, same, if_neg notClosed, decide_eq_true rfl, Bool.true_or, if_pos rfl]
        · rw [if_neg same, decide_eq_false same, Bool.false_or, reads.subagents]
          rfl
    · intro other closed
      change (state.subagents.set id event).has other = true
      rw [OrderedMap.has_set, coherent.announced other closed, Bool.or_true]
    · exact ⟨rfl, rfl, rfl⟩

/-! ## The end of a run -/

theorem of_unless {check : Prop} [Decidable check] {error : AGUIError} {rest : Except AGUIError EventVerifier}
    (done : (if check then .error error else rest) = .ok next) : ¬ check ∧ rest = .ok next := by
  split at done
  · cases done
  · exact ⟨by assumption, done⟩

theorem allClosed_of_runFinished {event : RunFinishedEvent} (reads : state.Reads record)
    (done : state.runFinishedCase event = .ok next) :
    AllClosed record ∧ next = { state with runFinished := true } := by
  rcases of_unless done with ⟨noSubagent, done⟩
  rcases of_unless (of_unless done).2 with ⟨_, done⟩
  rcases of_unless done with ⟨noStep, done⟩
  rcases of_unless done with ⟨noMessage, done⟩
  rcases of_unless done with ⟨noCall, done⟩
  rcases of_unless done with ⟨noReasoning, done⟩
  cases (of_unless done).2
  refine ⟨⟨?_, ?_, ?_⟩, rfl⟩
  · intro owner name
    rw [reads.steps]
    exact (OrderedMap.size_eq_zero_iff _).mp (Decidable.of_not_not noStep) (owner, name)
  · intro bracket id
    rw [reads.opened]
    apply (OrderedMap.size_eq_zero_iff _).mp
    rw [not_or] at noReasoning
    cases bracket with
    | textMessage => exact Decidable.of_not_not noMessage
    | toolCall => exact Decidable.of_not_not noCall
    | reasoningSpan => exact Decidable.of_not_not noReasoning.1
    | reasoningMessage => exact Decidable.of_not_not noReasoning.2
  · intro id
    rw [reads.subagents]
    unfold subagentStatus
    by_cases closed : state.closedSubagents.has id = true
    · rw [if_pos closed]
      exact fun impossible => by cases impossible
    · rw [if_neg closed]
      have notAnnounced : state.subagents.has id ≠ true := by
        intro announced
        apply noSubagent
        apply List.any_eq_true.mpr
        refine ⟨id, (OrderedMap.mem_keys_iff _ _).mpr announced, ?_⟩
        rw [Bool.eq_false_iff.mpr closed, Bool.not_false]
      rw [if_neg notAnnounced]
      exact fun impossible => by cases impossible

theorem stepped_runFinished {event : RunFinishedEvent} (coherent : state.Coherent) (reads : state.Reads record)
    (active : state.phase = .active) (done : state.runFinishedCase event = .ok next) :
    Stepped state next record (.runFinished event) := by
  rcases allClosed_of_runFinished reads done with ⟨closed, rfl⟩
  constructor
  · exact closed
  · constructor
    · change record.put .phase .finished .phase = _
      rw [Record.put_self]
      unfold phase
      rw [((phase_eq_active_iff state).mp active).1]
      rfl
    · intro bracket id
      have kept := reads.opened bracket id
      cases bracket <;> exact (record.put_of_ne _ (by simp)).trans kept
    · exact fun owner name => (record.put_of_ne _ (by simp)).trans (reads.steps owner name)
    · exact fun id => (record.put_of_ne _ (by simp)).trans (reads.subagents id)
  · exact coherent.announced
  · exact ⟨rfl, rfl, rfl⟩

/-! ## The switch -/

theorem stepped_verifyCase {event : Event} (coherent : state.Coherent) (reads : state.Reads record)
    (tracks : Tracks state record sources) (active : state.phase = .active) (valid : SchemaValid event)
    (overseen : Overseen state record sources event)
    (notStart : event.type ≠ .runStarted) (notError : event.type ≠ .runError)
    (checked : state.checkContinuation event = .ok ()) (done : state.verifyCase event = .ok next) :
    Stepped state next record event := by
  cases event with
  | textMessageStart e => exact stepped_textMessageStart coherent reads tracks overseen done
  | textMessageContent e | toolCallArgs e | reasoningMessageContent e =>
    rcases outcome_bind_ok_iff.mp done with ⟨_, found, last⟩
    cases last
    exact stepped_same coherent reads (.refl state) (continueAllowed_of_checks reads tracks overseen checked found) rfl
  | textMessageEnd e | toolCallEnd e | reasoningEnd e | reasoningMessageEnd e =>
    rcases outcome_bind_ok_iff.mp done with ⟨_, found, last⟩
    cases last
    exact stepped_close coherent reads (continueAllowed_of_checks reads tracks overseen checked found) rfl
  | toolCallStart e => exact stepped_toolCallStart coherent reads tracks overseen done
  | toolCallResult e =>
    cases done
    have same : Same state { state with pendingTools := state.pendingTools.erase e.toolCallId } :=
      ⟨rfl, fun bracket => by cases bracket <;> rfl, rfl, rfl, rfl, rfl, rfl, rfl, rfl⟩
    exact ⟨trivial, (reads.same same).putOwner .message e.messageId _, same.announced coherent, same.flags⟩
  | stepStarted e =>
    change (if _ then _ else _) = _ at done
    split at done
    · cases done
    · rename_i inactive
      cases done
      exact stepped_stepStarted coherent reads (Bool.eq_false_iff.mpr inactive)
  | stepFinished e =>
    change (if _ then _ else _) = _ at done
    split at done
    · rename_i running
      cases done
      exact stepped_stepFinished coherent reads running
    · cases done
  | subagentStarted e => exact stepped_subagentStarted coherent reads done
  | subagentFinished e =>
    unfold verifyCase at done
    simp only at done
    split at done
    · cases done
    · rename_i id identified
      have quiet : false = true -> state.Quiet id := fun impossible => by cases impossible
      refine stepped_closeSubagent coherent reads quiet (fun running => ⟨id, identified, running⟩) ?_ done
      change subagentNext record e.subagentRunId.toOption .closed = _
      rw [identified]
      rfl
  | subagentError e =>
    unfold verifyCase at done
    simp only at done
    split at done
    · cases done
    · cases done
    · rename_i id text identified message
      refine stepped_closeSubagent coherent reads (fun _ => overseen id identified)
        (fun running => ⟨by rw [message]; rfl, id, identified, running⟩) ?_ done
      change subagentNext record e.subagentRunId.toOption .closed = _
      rw [identified]
      rfl
  | runFinished e => exact stepped_runFinished coherent reads active done
  | reasoningStart e | reasoningMessageStart e => exact stepped_reasoningOpen coherent reads tracks id rfl overseen done
  | reasoningEncryptedValue e | activityDelta e =>
    cases done
    exact stepped_same coherent reads (.refl state) overseen rfl
  | activitySnapshot e =>
    cases done
    exact ⟨trivial, reads.congr fun _ apart => activityNext_of_ne record _ _ _ (apart _ _), coherent.announced,
      rfl, rfl, rfl⟩
  | messagesSnapshot e =>
    cases done
    exact ⟨valid.snapshot e rfl, reads.congr fun _ apart => record.seedMessages_of_not_owner true e.messages apart,
      coherent.announced, rfl, rfl, rfl⟩
  | runStarted e => exact absurd rfl notStart
  | runError e => exact absurd rfl notError
  | _ =>
    cases done
    exact stepped_same coherent reads (.refl state) trivial rfl

/-! ## Owners after an event -/

/-- Closing a subagent leaves the owners on record. -/
theorem ownersOf_closeSubagent {id : String} {failed : Bool} (done : state.closeSubagent id failed = .ok next)
    (bracket : Bracket) : next.ownersOf bracket = state.ownersOf bracket := by
  have steps : ∀ state : EventVerifier, (state.dropSteps id).ownersOf bracket = state.ownersOf bracket := by
    intro state
    cases bracket <;> rfl
  have dropped : ∀ (state : EventVerifier) (other : Bracket),
      (state.dropOpen id other).ownersOf bracket = state.ownersOf bracket := by
    intro state other
    exact ownersOf_withOpened state other bracket _
  have closed : ∀ state : EventVerifier,
      ({ state with closedSubagents := state.closedSubagents.add id } : EventVerifier).ownersOf bracket =
        state.ownersOf bracket := by
    intro state
    cases bracket <;> rfl
  rcases of_unless done with ⟨_, done⟩
  rcases of_unless done with ⟨_, done⟩
  cases done
  rw [closed]
  cases failed with
  | false => rfl
  | true =>
    change ((((((state.dropOpen id .textMessage).dropOpen id .toolCall).dropOpen id .reasoningMessage).dropOpen id
      .reasoningSpan).dropSteps id).ownersOf bracket) = _
    rw [steps, dropped, dropped, dropped, dropped]

theorem ownersOf_subagentStarted {event : SubagentStartedEvent} (done : state.subagentStarted event = .ok next)
    (bracket : Bracket) : next.ownersOf bracket = state.ownersOf bracket := by
  unfold subagentStarted at done
  split at done
  · cases done
  · cases done
  · rcases of_unless done with ⟨_, done⟩
    rcases of_unless done with ⟨_, done⟩
    rcases of_unless done with ⟨_, done⟩
    rcases of_unless done with ⟨_, done⟩
    rcases of_unless done with ⟨_, done⟩
    cases (of_unless done).2
    cases bracket <;> rfl

/-- The owner a call is given is the one on record if there is one. -/
theorem claimed_toolCallStart {event : ToolCallStartEvent} (done : state.toolCallStart event = .ok next) :
    Claimed state next .toolCall event.toolCallId
      (event.subagentRunId.toOption.or (event.parentMessageId.bind state.messageOwners.get?).join) := by
  rcases of_unless done with ⟨_, done⟩
  rcases of_unless done with ⟨_, done⟩
  rcases outcome_bind_ok_iff.mp done with ⟨_, _, rest⟩
  simp only at rest
  split at rest
  · cases rest
  · rename_i same
    cases rest
    intro other name
    unfold open_
    rw [ownersOf_withOpened]
    by_cases call : other = .toolCall
    · rw [call]
      change ((state.toolOwners.set event.toolCallId _).get? name) = _
      rw [OrderedMap.get?_set]
      by_cases named : name = event.toolCallId
      · rw [if_pos named, if_pos ⟨rfl, named⟩]
        change _ = some ((state.toolOwners.get? event.toolCallId).getD _)
        cases known : state.toolOwners.get? event.toolCallId with
        | none =>
          cases event.parentMessageId.bind state.messageOwners.get? <;> rfl
        | some owner =>
          rw [known, Option.any_some] at same
          exact congrArg some (Decidable.of_not_not fun different => same (decide_eq_true different)).symm
      · rw [if_neg named, if_neg fun both => named both.2]
        rfl
    · rw [if_neg fun both => call both.1]
      cases other <;> first | rfl | exact absurd rfl call

/-- An owner inherited from a message that both know is the one Kotlin gives. -/
theorem Tracks.toolCallStart {event : ToolCallStartEvent} (tracks : Tracks state record sources)
    (done : state.toolCallStart event = .ok next) :
    Tracks next (Verify.next record (.toolCallStart event)) (sources.next (.toolCallStart event)) := by
  have opened : Tracks state (record.put (.opened .toolCall event.toolCallId) true) sources :=
    tracks.apart _ (by simp) fun _ => rfl
  refine opened.claim ?_ (claimed_toolCallStart done)
  intro another source
  split at source
  · rename_i own
    cases source
    refine ⟨rfl, ?_⟩
    rcases own with tagged | shared
    · rcases Option.isSome_iff_exists.mp tagged with ⟨tag, is⟩
      rw [is]
      rfl
    · rw [tracks.parent shared]
  · cases source

/-- One event: the tables follow the record wherever openers put the owner there. -/
theorem Tracks.verifyCase {event : Event} (tracks : Tracks state record sources)
    (notStart : event.type ≠ .runStarted) (notError : event.type ≠ .runError)
    (done : state.verifyCase event = .ok next) :
    Tracks next (Verify.next record event) (sources.next event) := by
  cases event with
  | textMessageStart e =>
    rcases of_unless done with ⟨_, done⟩
    rcases of_unless done with ⟨_, done⟩
    rcases outcome_bind_ok_iff.mp done with ⟨_, _, last⟩
    cases last
    have opened : Tracks state (record.put (.opened .textMessage e.messageId) true) sources :=
      tracks.apart _ (by simp) fun _ => rfl
    have claimed := claimed_claim state .textMessage e.messageId e.subagentRunId.toOption
    refine opened.claim (fun _ own => ⟨(Source.opener.inj own).symm, rfl⟩) ?_
    intro other name
    exact (congrArg (OrderedMap.get? · name) ((ownersOf_withOpened _ _ _ _).trans
      (by cases other <;> rfl))).trans (claimed other name)
  | reasoningStart e | reasoningMessageStart e =>
    rcases outcome_bind_ok_iff.mp done with ⟨_, _, rest⟩
    rcases of_unless rest with ⟨_, last⟩
    cases last
    refine Tracks.claim (tracks.apart _ (by simp) fun _ => rfl)
      (fun _ own => ⟨(Source.opener.inj own).symm, rfl⟩) ?_
    intro other name
    rw [open_, ownersOf_withOpened]
    exact claimed_claim state _ e.messageId e.subagentRunId.toOption other name
  | toolCallStart e => exact tracks.toolCallStart done
  | textMessageContent e | toolCallArgs e | reasoningMessageContent e =>
    rcases outcome_bind_ok_iff.mp done with ⟨_, _, last⟩
    cases last
    exact tracks
  | textMessageEnd e | toolCallEnd e | reasoningEnd e | reasoningMessageEnd e =>
    rcases outcome_bind_ok_iff.mp done with ⟨_, _, last⟩
    cases last
    exact tracks.apart _ (by simp) fun bracket => ownersOf_withOpened state _ bracket _
  | toolCallResult e =>
    cases done
    have owned : Tracks state (record.put (.owner .message e.messageId) (some e.subagentRunId.toOption))
        (sources.put .message e.messageId .outside) := by
      apply tracks.put
      · rw [Record.put_self]
        rfl
      · exact fun another name different => record.put_of_ne _ (owner_ne different)
    exact owned.congr (fun bracket => by cases bracket <;> rfl) fun _ _ => rfl
  | stepStarted e =>
    cases (of_unless done).2
    exact tracks.apart _ (by simp) fun bracket => by cases bracket <;> rfl
  | stepFinished e =>
    unfold EventVerifier.verifyCase at done
    simp only at done
    split at done
    · cases done
      exact tracks.apart _ (by simp) fun bracket => by cases bracket <;> rfl
    · cases done
  | subagentStarted e =>
    refine tracks.congr (ownersOf_subagentStarted done) fun bracket id => ?_
    exact subagentNext_of_ne record _ _ (by simp)
  | subagentFinished e =>
    unfold EventVerifier.verifyCase at done
    simp only at done
    split at done
    · cases done
    · refine tracks.congr (ownersOf_closeSubagent done) fun bracket id => ?_
      exact subagentNext_of_ne record _ _ (by simp)
  | subagentError e =>
    unfold EventVerifier.verifyCase at done
    simp only at done
    split at done
    · cases done
    · cases done
    · refine tracks.congr (ownersOf_closeSubagent done) fun bracket id => ?_
      exact subagentNext_of_ne record _ _ (by simp)
  | runFinished e =>
    rcases of_unless done with ⟨_, done⟩
    rcases of_unless (of_unless done).2 with ⟨_, done⟩
    rcases of_unless done with ⟨_, done⟩
    rcases of_unless done with ⟨_, done⟩
    rcases of_unless done with ⟨_, done⟩
    rcases of_unless done with ⟨_, done⟩
    cases (of_unless done).2
    exact tracks.apart _ (by simp) fun bracket => by cases bracket <;> rfl
  | activitySnapshot e =>
    cases done
    refine tracks.congr (fun _ => rfl) fun bracket id => ?_
    apply activityNext_of_ne
    cases bracket <;> simp [Bracket.bucket]
  | messagesSnapshot e =>
    cases done
    exact tracks.seedMessages true e.messages
  | runStarted e => exact absurd rfl notStart
  | runError e => exact absurd rfl notError
  | _ =>
    cases done
    exact tracks

end EventVerifier

/-! ## One event -/

/-- What an accepted step shows: the record allows it and goes along. -/
structure Follows (next : EventVerifier) (record : Record) (sources : Sources) (event : Event) : Prop where
  allowed : Allows record event
  reads : next.Reads (Verify.next record event)
  tracks : next.Tracks (Verify.next record event) (sources.next event)
  coherent : next.Coherent

theorem Follows.noted {next : EventVerifier} {record : Record} {sources : Sources} {event : Event}
    (follows : Follows next record sources event) (begun : next.firstEventReceived = true) :
    Follows (next.noteAttribution event) record sources event := by
  have same := EventVerifier.same_noteAttribution next event
  have owners : ∀ bracket, (next.noteAttribution event).ownersOf bracket = next.ownersOf bracket := by
    intro bracket
    unfold EventVerifier.noteAttribution
    split
    · rfl
    · split
      · cases bracket <;> rfl
      · rfl
  refine ⟨follows.allowed, follows.reads.same same, follows.tracks.congr owners fun _ _ => rfl, ?_, ?_,
    same.announced follows.coherent⟩
  · rw [same.begun, begun]
    exact fun impossible => by cases impossible
  · rw [same.begun, same.runError, same.runFinished, same.runStarted]
    exact follows.coherent.started

theorem follows_runStarted {state gated : EventVerifier} {record : Record} {sources : Sources} {event : RunStartedEvent}
    (coherent : state.Coherent) (reads : state.Reads record) (valid : SchemaValid (.runStarted event))
    (gating : state.gate (.runStarted event) = .ok gated) :
    Follows { gated with
      runStarted := true
      currentThreadId := some event.threadId
      currentRunId := some event.runId } record sources (.runStarted event) := by
  rcases EventVerifier.gate_runStarted coherent gating with ⟨stopped, entered⟩
  constructor
  · refine ⟨?_, valid.fields, valid.echo event rfl⟩
    change record .phase ≠ .active
    rw [reads.phase]
    exact stopped
  · have seeded : gated.Reads ((Record.blank.put .phase .active).seedMessages false (echoed event)) :=
      entered.reads.congr fun _ apart => Record.seedMessages_of_not_owner false _ (echoed event) apart
    exact ⟨seeded.phase, fun bracket id => (seeded.opened bracket id).trans (by cases bracket <;> rfl), seeded.steps,
      seeded.subagents⟩
  · have empty : gated.Tracks (Record.blank.put .phase .active) fun _ _ => none := by
      refine ⟨fun _ _ => rfl, fun bracket id _ => ?_, fun _ _ impossible => by cases impossible⟩
      rw [entered.owners]
      rfl
    exact (empty.seedMessages false (echoed event)).congr (fun bracket => by cases bracket <;> rfl) fun _ _ => rfl
  · constructor
    · intro fresh
      have begun : gated.firstEventReceived = false := fresh
      rw [entered.begun] at begun
      cases begun
    · exact fun _ _ _ => rfl
    · intro id closed
      change gated.closedSubagents.has id = true at closed
      rw [entered.closed] at closed
      cases closed

theorem follows_runError {state gated : EventVerifier} {record : Record} {sources : Sources} {event : RunErrorEvent}
    (coherent : state.Coherent) (reads : state.Reads record) (tracks : state.Tracks record sources)
    (valid : SchemaValid (.runError event)) (gating : state.gate (.runError event) = .ok gated) :
    Follows { gated with runError := true } record sources (.runError event) := by
  rcases EventVerifier.gate_runError gating with ⟨fine, rfl⟩
  constructor
  · refine ⟨?_, valid.fields, trivial⟩
    change record .phase ≠ .errored
    rw [reads.phase]
    exact fine
  · constructor
    · exact record.put_self _ _
    · intro bracket id
      have kept := reads.opened bracket id
      cases bracket <;> exact (record.put_of_ne _ (by simp)).trans kept
    · exact fun owner name => (record.put_of_ne _ (by simp)).trans (reads.steps owner name)
    · exact fun id => (record.put_of_ne _ (by simp)).trans (reads.subagents id)
  · exact tracks.apart _ (by simp) fun bracket => by cases bracket <;> rfl
  · constructor
    · exact fun impossible => by cases impossible
    · exact fun _ impossible => by cases impossible
    · exact coherent.announced

/-- Every step the Kotlin verifier takes, the record allows. -/
theorem verifyEvents_follows {state next : EventVerifier} {record : Record} {sources : Sources} {event : Event}
    {output : List Event} (coherent : state.Coherent) (reads : state.Reads record)
    (tracks : state.Tracks record sources) (valid : SchemaValid event)
    (overseen : Overseen state record sources event) (step : verifyEvents state event = .ok (next, output)) :
    Follows next record sources event := by
  rcases outcome_bind_ok_iff.mp step with ⟨gated, gating, rest⟩
  rcases outcome_bind_ok_iff.mp rest with ⟨_, checked, more⟩
  rcases outcome_bind_ok_iff.mp more with ⟨after, done, last⟩
  cases last
  by_cases start : event.type = .runStarted
  · cases event <;> cases start
    cases done
    exact (follows_runStarted coherent reads valid gating).noted
      (EventVerifier.gate_runStarted coherent gating).2.begun
  by_cases error : event.type = .runError
  · cases event <;> cases error
    cases done
    refine (follows_runError coherent reads tracks valid gating).noted ?_
    rw [(EventVerifier.gate_runError gating).2]
  rcases EventVerifier.gate_inside start error gating with ⟨rfl, active⟩
  have stepped := EventVerifier.stepped_verifyCase coherent reads tracks active valid overseen start error checked done
  have tracked := tracks.verifyCase start error done
  rcases (EventVerifier.phase_eq_active_iff _).mp active with ⟨fine, going, begun⟩
  have received : after.firstEventReceived = true := stepped.flags.2.1.trans begun
  refine Follows.noted ⟨⟨?_, valid.fields, stepped.allowed⟩, stepped.reads, tracked, ?_, ?_, stepped.announced⟩ received
  · have running : record .phase = .active := reads.phase.trans active
    rw [running]
    cases event with
    | runStarted e => exact absurd rfl start
    | runError e => exact absurd rfl error
    | _ => rfl
  · rw [received]
    exact fun impossible => by cases impossible
  · intro _ _ _
    exact stepped.flags.2.2.trans (coherent.started begun fine going)

/-! ## The whole stream -/

/-- Every event meets `Overseen` where the Kotlin verifier reaches it. -/
def OverseenFrom (state : EventVerifier) (record : Record) (sources : Sources) : List Event -> Prop
  | [] => True
  | event :: rest =>
    Overseen state record sources event ∧
      ∀ next output, verifyEvents state event = .ok (next, output) ->
        OverseenFrom next (Verify.next record event) (sources.next event) rest

/-- A whole run, by induction on the stream. -/
theorem admits_of_accepts {state : EventVerifier} {record : Record} {sources : Sources} {events : List Event}
    (coherent : state.Coherent) (reads : state.Reads record) (tracks : state.Tracks record sources)
    (valid : ∀ event ∈ events, SchemaValid event) (overseen : OverseenFrom state record sources events)
    (accepts : verifyEvents.accepts state events = true) :
    Admits record events := by
  induction events generalizing state record sources with
  | nil => trivial
  | cons event rest ih =>
    rcases (Stage.accepts_cons _ _ _).mp accepts with ⟨next, output, step, tail⟩
    have follows := verifyEvents_follows coherent reads tracks (valid event List.mem_cons_self) overseen.1 step
    exact ⟨follows.allowed, ih follows.coherent follows.reads follows.tracks
      (List.forall_mem_cons.mp valid).2 (overseen.2 next output step) tail⟩

theorem coherent_initial : EventVerifier.Coherent {} :=
  ⟨fun _ => rfl, fun impossible => (by cases impossible), fun _ impossible => (by cases impossible)⟩

theorem reads_initial : EventVerifier.Reads {} Record.blank :=
  ⟨rfl, fun bracket _ => by cases bracket <;> rfl, fun _ _ => rfl, fun _ => rfl⟩

theorem tracks_initial : EventVerifier.Tracks {} Record.blank fun _ _ => none :=
  ⟨fun _ _ => rfl, fun bracket _ _ => (by cases bracket <;> rfl), fun _ _ impossible => (by cases impossible)⟩

theorem accepts_of_accepted {events : List Event} (admitted : accepted events = true) :
    verifyEvents.accepts {} events = true := by
  unfold accepted at admitted
  unfold Stage.accepts
  split at admitted
  · rename_i state ended
    rw [ended]
  · cases admitted

/-- A stream that meets the condition is accepted by the TypeScript verifier
if it is accepted by the Kotlin one. -/
theorem kotlin_verifyEvents_sound (events : List Event) (valid : ∀ event ∈ events, SchemaValid event)
    (overseen : OverseenFrom {} Record.blank (fun _ _ => none) events) (admitted : accepted events = true) :
    Verify.accepted events = true := by
  rw [accepted_iff_admits]
  exact admits_of_accepts coherent_initial reads_initial tracks_initial valid overseen (accepts_of_accepted admitted)

theorem overseenFrom_cons {state next : EventVerifier} {record : Record} {sources : Sources} {event : Event}
    {output rest : List Event} (step : verifyEvents state event = .ok (next, output))
    (overseen : Overseen state record sources event)
    (later : OverseenFrom next (Verify.next record event) (sources.next event) rest) :
    OverseenFrom state record sources (event :: rest) := by
  refine ⟨overseen, fun other emitted same => ?_⟩
  rw [step] at same
  cases same
  exact later

namespace Sample

def begin : Event := .runStarted { threadId := "thread", runId := "run" }

def finish : Event := .runFinished { threadId := "thread", runId := "run" }

def delegate : Event := .subagentStarted { subagentRunId := .value "worker", name := some "worker" }

def failure : Event := .subagentError { subagentRunId := .value "worker", message := some "broken" }

def text : List Event :=
  [.textMessageStart { messageId := "m", subagentRunId := .value "worker" },
    .textMessageContent { messageId := "m", delta := "hello", subagentRunId := .value "worker" },
    .textMessageEnd { messageId := "m" }]

/-- A subagent writes a message and finishes. -/
def delegated : List Event :=
  begin :: delegate :: text ++ [Event.subagentFinished { subagentRunId := .value "worker" }, finish]

end Sample

open Sample in
theorem kotlin_verifyEvents_sound_delegated : Verify.accepted delegated = true := by
  apply kotlin_verifyEvents_sound
  · have bare : ∀ event : Event, event ∈ delegated -> fieldError event = none ∧
        ∀ snapshot, event ≠ .messagesSnapshot snapshot := by
      simp [delegated, text, begin, delegate, finish, fieldError, lifecycleNulls, lifecycleOutcome, Nullable.isNull,
        OrderedMap.get?, OrderedMap.empty]
    have echo : ∀ started, .runStarted started ∈ delegated -> echoed started = [] := by
      simp [delegated, text, begin, delegate, finish, echoed]
    intro event member
    refine ⟨(bare event member).1, fun snapshot same => absurd same ((bare event member).2 snapshot), ?_⟩
    intro started same
    rw [echo started (same ▸ member)]
    exact fun _ impossible => by cases impossible
  · refine overseenFrom_cons rfl trivial ?_
    refine overseenFrom_cons rfl trivial ?_
    refine overseenFrom_cons rfl (Or.inl (by decide)) ?_
    refine overseenFrom_cons rfl (Or.inl (by decide)) ?_
    refine overseenFrom_cons rfl (Or.inl (by decide)) ?_
    refine overseenFrom_cons rfl trivial ?_
    exact overseenFrom_cons rfl trivial trivial
  · decide +kernel

open Sample in
/-- A failing subagent closes what it has open here and not there, and only
there is a result's message owned by whoever sent the result. -/
theorem kotlin_verifyEvents_admits_more :
    (Kotlin.accepted [begin, delegate, .textMessageStart { messageId := "m", subagentRunId := .value "worker" },
      failure, finish] = true ∧
    Verify.accepted [begin, delegate, .textMessageStart { messageId := "m", subagentRunId := .value "worker" },
      failure, finish] = false) ∧
    Kotlin.accepted (begin :: .toolCallResult { messageId := "m", toolCallId := "c", content := .text "found" } ::
      text ++ [finish]) = true ∧
    Verify.accepted (begin :: .toolCallResult { messageId := "m", toolCallId := "c", content := .text "found" } ::
      text ++ [finish]) = false := by
  decide +kernel

end Kotlin
end AgUi
