import AgUi.Verify.RunIsolation

namespace AgUi
namespace Verify

open Library Protocol

/-!
# Emitting a valid run

What a producer has to know in order to go on with a run the verifier accepts:
which entities and which steps it has opened and not closed.  `Opened` says that
the events emitted so far are accepted, that the run has not ended, and that
exactly those are open.  It has a lemma for each thing an untagged event can do,
and one for the end of the run.
-/

/-- Which entities are open. -/
abbrev Marks := Bracket -> String -> Bool

def Marks.none : Marks := fun _ _ => false

/-- The marks with one of them set. -/
def Marks.mark (marks : Marks) (bracket : Bracket) (id : String) (value : Bool) : Marks :=
  fun other name => if other = bracket ∧ name = id then value else marks other name

@[simp] theorem Marks.mark_mark (marks : Marks) (bracket : Bracket) (id : String) (first second : Bool) :
    (marks.mark bracket id first).mark bracket id second = marks.mark bracket id second := by
  funext other name
  unfold mark
  split <;> rfl

theorem Marks.mark_eq_self {marks : Marks} {bracket : Bracket} {id : String} {value : Bool}
    (same : marks bracket id = value) : marks.mark bracket id value = marks := by
  funext other name
  unfold mark
  split
  · rename_i equal
    rw [equal.1, equal.2, same]
  · rfl

/-- An accepted run that has not ended, with these entities and steps open. -/
structure Opened (told : List Event) (marks : Marks) (steps : String -> Bool) : Prop where
  admitted : Admits Record.blank told
  active : advance Record.blank told .phase = .active
  entities : ∀ bracket id, advance Record.blank told (.opened bracket id) = marks bracket id
  steps : ∀ name, advance Record.blank told (.step none name) = steps name
  attributed : ∀ subagent name, advance Record.blank told (.step (some subagent) name) = false
  subagents : ∀ id, advance Record.blank told (.subagent id) ≠ .active
  inside : ∀ event ∈ told, endsRun event = false

namespace Opened

variable {told : List Event} {marks : Marks} {steps : String -> Bool} {event : Event}

theorem admits_snoc (admitted : Admits Record.blank told) (allowed : Allows (advance Record.blank told) event) :
    Admits Record.blank (told ++ [event]) :=
  (admits_append _ _ _).mpr ⟨admitted, allowed, trivial⟩

theorem inside_snoc (opened : Opened told marks steps) (inside : endsRun event = false) :
    ∀ other ∈ told ++ [event], endsRun other = false := by
  intro other member
  rcases List.mem_append.mp member with earlier | last
  · exact opened.inside other earlier
  · cases List.mem_singleton.mp last
    exact inside

theorem start (event : RunStartedEvent) (plain : NoNullTags (echoed event)) :
    Opened [.runStarted event] Marks.none fun _ => false := by
  have seeded : ∀ key, (∀ bucket id, key ≠ .owner bucket id) ->
      advance Record.blank [.runStarted event] key = (Record.blank.put .phase .active) key :=
    fun key notOwner => Record.seedMessages_of_not_owner _ _ _ notOwner
  constructor
  · exact ⟨⟨Phase.noConfusion, rfl, plain⟩, trivial⟩
  · exact seeded .phase fun _ _ => Key.noConfusion
  · intro bracket id
    exact seeded (.opened bracket id) fun _ _ => Key.noConfusion
  · intro name
    exact seeded (.step none name) fun _ _ => Key.noConfusion
  · intro subagent name
    exact seeded (.step (some subagent) name) fun _ _ => Key.noConfusion
  · intro id
    rw [seeded (.subagent id) fun _ _ => Key.noConfusion]
    exact SubagentStatus.noConfusion
  · intro other member
    cases List.mem_singleton.mp member
    rfl

variable (opened : Opened told marks steps)

include opened

/-- An event that opens or closes one entity. -/
theorem marking {bracket : Bracket} {id : String} {value : Bool} (fields : fieldError event = none)
    (phase : ∀ phase, phase = .active -> PhaseAllows phase event) (case : CaseAllows (advance Record.blank told) event)
    (leads : ∀ record key, (∀ bucket name, key ≠ .owner bucket name) ->
      next record event key = record.put (.opened bracket id) value key)
    (inside : endsRun event = false) : Opened (told ++ [event]) (marks.mark bracket id value) steps := by
  have reads : ∀ key, (∀ bucket name, key ≠ .owner bucket name) ->
      advance Record.blank (told ++ [event]) key = (advance Record.blank told).put (.opened bracket id) value key := by
    intro key notOwner
    rw [advance_snoc]
    exact leads _ key notOwner
  constructor
  · exact admits_snoc opened.admitted ⟨phase _ opened.active, fields, case⟩
  · rw [reads _ fun _ _ => Key.noConfusion, Record.put_of_ne _ _ Key.noConfusion, opened.active]
  · intro other name
    rw [reads _ fun _ _ => Key.noConfusion, Record.put_opened, opened.entities]
    rfl
  · intro name
    rw [reads _ fun _ _ => Key.noConfusion, Record.put_of_ne _ _ Key.noConfusion, opened.steps]
  · intro subagent name
    rw [reads _ fun _ _ => Key.noConfusion, Record.put_of_ne _ _ Key.noConfusion, opened.attributed]
  · intro name
    rw [reads _ fun _ _ => Key.noConfusion, Record.put_of_ne _ _ Key.noConfusion]
    exact opened.subagents name
  · exact opened.inside_snoc inside

/-- An event that opens one entity, which was not open. -/
theorem opening {bracket : Bracket} {id : String}
    (closed : marks bracket id = false) (fields : fieldError event = none)
    (phase : ∀ phase, phase = .active -> PhaseAllows phase event)
    (case : ∀ record, OpenAllowed record bracket none id -> CaseAllows record event)
    (leads : ∀ record, next record event = openNext record bracket none id) (inside : endsRun event = false) :
    Opened (told ++ [event]) (marks.mark bracket id true) steps := by
  refine opened.marking fields phase (case _ ⟨(opened.entities bracket id).trans closed, tagAgrees_none _⟩) ?_ inside
  intro record key notOwner
  rw [leads, openNext, Record.claim_of_ne _ _ _ _ (notOwner _ _)]

/-- An event that closes one entity, which was open. -/
theorem closing {bracket : Bracket} {id : String}
    (isOpen : marks bracket id = true) (fields : fieldError event = none)
    (phase : ∀ phase, phase = .active -> PhaseAllows phase event)
    (case : ∀ record, ContinueAllowed record bracket none id -> CaseAllows record event)
    (leads : ∀ record, next record event = closeNext record bracket id) (inside : endsRun event = false) :
    Opened (told ++ [event]) (marks.mark bracket id false) steps := by
  refine opened.marking fields phase (case _ ⟨(opened.entities bracket id).trans isOpen, tagAgrees_none _⟩) ?_ inside
  intro record key _
  rw [leads, closeNext]

/-- An event that opens and closes nothing. -/
theorem passing (fields : fieldError event = none)
    (phase : ∀ phase, phase = .active -> PhaseAllows phase event)
    (case : CaseAllows (advance Record.blank told) event)
    (leads : ∀ record key, (∀ bucket id, key ≠ .owner bucket id) -> next record event key = record key)
    (inside : endsRun event = false) : Opened (told ++ [event]) marks steps := by
  have reads : ∀ key, (∀ bucket name, key ≠ .owner bucket name) ->
      advance Record.blank (told ++ [event]) key = advance Record.blank told key := by
    intro key notOwner
    rw [advance_snoc]
    exact leads _ key notOwner
  constructor
  · exact admits_snoc opened.admitted ⟨phase _ opened.active, fields, case⟩
  · rw [reads _ fun _ _ => Key.noConfusion, opened.active]
  · intro other name
    rw [reads _ fun _ _ => Key.noConfusion, opened.entities]
  · intro name
    rw [reads _ fun _ _ => Key.noConfusion, opened.steps]
  · intro subagent name
    rw [reads _ fun _ _ => Key.noConfusion, opened.attributed]
  · intro name
    rw [reads _ fun _ _ => Key.noConfusion]
    exact opened.subagents name
  · exact opened.inside_snoc inside

/-- An event that adds to an entity, which is open. -/
theorem continuing {bracket : Bracket} {id : String}
    (isOpen : marks bracket id = true) (fields : fieldError event = none)
    (phase : ∀ phase, phase = .active -> PhaseAllows phase event)
    (case : ∀ record, ContinueAllowed record bracket none id -> CaseAllows record event)
    (leads : ∀ record, next record event = record) (inside : endsRun event = false) :
    Opened (told ++ [event]) marks steps := by
  refine opened.passing fields phase (case _ ⟨?_, tagAgrees_none _⟩) ?_ inside
  · rw [opened.entities, isOpen]
  · intro record key _
    rw [leads]

/-! ## The events a producer emits -/

theorem textMessageStart (event : TextMessageStartEvent)
    (untagged : event.subagentRunId.toOption = none) (closed : marks .textMessage event.messageId = false) :
    Opened (told ++ [Event.textMessageStart event]) (marks.mark .textMessage event.messageId true) steps := by
  refine opened.opening closed rfl (fun _ active => active) ?_ ?_ rfl
  · intro record allowed
    rw [CaseAllows, untagged]
    exact allowed
  · intro record
    rw [next, untagged]

theorem textMessageContent (event : TextMessageContentEvent)
    (untagged : event.subagentRunId.toOption = none) (isOpen : marks .textMessage event.messageId = true) :
    Opened (told ++ [Event.textMessageContent event]) marks steps := by
  refine opened.continuing isOpen rfl (fun _ active => active) ?_ (fun _ => rfl) rfl
  intro record allowed
  rw [CaseAllows, untagged]
  exact allowed

theorem textMessageEnd (event : TextMessageEndEvent)
    (untagged : event.subagentRunId.toOption = none) (isOpen : marks .textMessage event.messageId = true) :
    Opened (told ++ [Event.textMessageEnd event]) (marks.mark .textMessage event.messageId false) steps := by
  refine opened.closing isOpen rfl (fun _ active => active) ?_ (fun _ => rfl) rfl
  intro record allowed
  rw [CaseAllows, untagged]
  exact allowed

theorem toolCallStart (event : ToolCallStartEvent)
    (untagged : event.subagentRunId.toOption = none) (parentless : event.parentMessageId = none)
    (closed : marks .toolCall event.toolCallId = false) :
    Opened (told ++ [Event.toolCallStart event]) (marks.mark .toolCall event.toolCallId true) steps := by
  refine opened.opening closed rfl (fun _ active => active) ?_ ?_ rfl
  · intro record allowed
    rw [CaseAllows, untagged, parentless]
    refine ⟨allowed.1, tagAgrees_none _, allowed.2, ?_⟩
    intro _ known _ inherited impossible
    cases impossible
  · intro record
    rw [next, untagged, parentless]
    rfl

theorem toolCallArgs (event : ToolCallArgsEvent)
    (untagged : event.subagentRunId.toOption = none) (isOpen : marks .toolCall event.toolCallId = true) :
    Opened (told ++ [Event.toolCallArgs event]) marks steps := by
  refine opened.continuing isOpen rfl (fun _ active => active) ?_ (fun _ => rfl) rfl
  intro record allowed
  rw [CaseAllows, untagged]
  exact allowed

theorem toolCallEnd (event : ToolCallEndEvent)
    (untagged : event.subagentRunId.toOption = none) (isOpen : marks .toolCall event.toolCallId = true) :
    Opened (told ++ [Event.toolCallEnd event]) (marks.mark .toolCall event.toolCallId false) steps := by
  refine opened.closing isOpen rfl (fun _ active => active) ?_ (fun _ => rfl) rfl
  intro record allowed
  rw [CaseAllows, untagged]
  exact allowed

theorem toolCallResult (event : ToolCallResultEvent) :
    Opened (told ++ [Event.toolCallResult event]) marks steps :=
  opened.passing rfl (fun _ active => active) trivial
    (fun record _ notOwner => record.put_of_ne _ (notOwner _ _)) rfl

theorem reasoningStart (event : ReasoningStartEvent)
    (untagged : event.subagentRunId.toOption = none) (closed : marks .reasoningSpan event.messageId = false) :
    Opened (told ++ [Event.reasoningStart event]) (marks.mark .reasoningSpan event.messageId true) steps := by
  refine opened.opening closed rfl (fun _ active => active) ?_ ?_ rfl
  · intro record allowed
    rw [CaseAllows, untagged]
    exact allowed
  · intro record
    rw [next, untagged]

theorem reasoningEnd (event : ReasoningEndEvent)
    (untagged : event.subagentRunId.toOption = none) (isOpen : marks .reasoningSpan event.messageId = true) :
    Opened (told ++ [Event.reasoningEnd event]) (marks.mark .reasoningSpan event.messageId false) steps := by
  refine opened.closing isOpen rfl (fun _ active => active) ?_ (fun _ => rfl) rfl
  intro record allowed
  rw [CaseAllows, untagged]
  exact allowed

theorem reasoningMessageStart (event : ReasoningMessageStartEvent)
    (untagged : event.subagentRunId.toOption = none) (closed : marks .reasoningMessage event.messageId = false) :
    Opened (told ++ [Event.reasoningMessageStart event]) (marks.mark .reasoningMessage event.messageId true) steps := by
  refine opened.opening closed rfl (fun _ active => active) ?_ ?_ rfl
  · intro record allowed
    rw [CaseAllows, untagged]
    exact allowed
  · intro record
    rw [next, untagged]

theorem reasoningMessageEnd (event : ReasoningMessageEndEvent)
    (untagged : event.subagentRunId.toOption = none) (isOpen : marks .reasoningMessage event.messageId = true) :
    Opened (told ++ [Event.reasoningMessageEnd event]) (marks.mark .reasoningMessage event.messageId false) steps := by
  refine opened.closing isOpen rfl (fun _ active => active) ?_ (fun _ => rfl) rfl
  intro record allowed
  rw [CaseAllows, untagged]
  exact allowed

theorem stateSnapshot (event : StateSnapshotEvent) :
    Opened (told ++ [Event.stateSnapshot event]) marks steps :=
  opened.passing rfl (fun _ active => active) trivial (fun _ _ _ => rfl) rfl

theorem custom (event : CustomEvent) :
    Opened (told ++ [Event.custom event]) marks steps :=
  opened.passing rfl (fun _ active => active) trivial (fun _ _ _ => rfl) rfl

/-! ## The end of the run -/

theorem runError (event : RunErrorEvent) :
    Admits Record.blank (told ++ [Event.runError event]) := by
  refine admits_snoc opened.admitted ⟨?_, rfl, trivial⟩
  rw [PhaseAllows, opened.active]
  exact Phase.noConfusion

omit opened in
theorem runFinished (opened : Opened told Marks.none fun _ => false) (event : RunFinishedEvent)
    (fields : fieldError (.runFinished event) = none) : Admits Record.blank (told ++ [Event.runFinished event]) := by
  refine admits_snoc opened.admitted ⟨opened.active, fields, ?_, opened.entities, opened.subagents⟩
  intro owner name
  cases owner with
  | none => exact opened.steps name
  | some subagent => exact opened.attributed subagent name

end Opened

end Verify
end AgUi
