import AgUi.Verify.Refinement

namespace AgUi
namespace Verify

open Library Protocol

/-!
# Runs on one stream do not see each other

A record that stands after a run keeps everything the run left behind: open
entities of an errored run, owners, finished subagents.  A `RUN_STARTED`
neither looks at any of it nor carries any of it over, so whatever follows is
judged as it would be on a stream of its own.
-/

/-- `RUN_FINISHED` and `RUN_ERROR`. -/
def endsRun : Event -> Bool
  | .runFinished _ => true
  | .runError _ => true
  | _ => false

theorem phase_next_of_endsRun (record : Record) {event : Event} (ending : endsRun event = true) :
    next record event .phase ≠ .active := by
  cases event with
  | runFinished e => simp [next]
  | runError e => simp [next]
  | _ => cases ending

/-- What a `RUN_STARTED` asks of a record is only that no run is active. -/
theorem allows_runStarted_iff (record : Record) (event : RunStartedEvent) :
    Allows record (.runStarted event) ↔ record .phase ≠ .active ∧ NoNullTags (echoed event) :=
  ⟨fun allowed => ⟨allowed.phase, allowed.case⟩, fun parts => ⟨parts.1, rfl, parts.2⟩⟩

theorem next_runStarted (record other : Record) (event : RunStartedEvent) :
    next record (.runStarted event) = next other (.runStarted event) := rfl

/-- Between runs every record admits the same streams. -/
theorem admits_iff_of_runStarted {record other : Record} (outside : record .phase ≠ .active)
    (alsoOutside : other .phase ≠ .active) (event : RunStartedEvent) (rest : List Event) :
    Admits record (.runStarted event :: rest) ↔ Admits other (.runStarted event :: rest) := by
  rw [Admits, Admits, allows_runStarted_iff, allows_runStarted_iff,
    and_iff_right outside, and_iff_right alsoOutside, next_runStarted record other]

theorem advance_snoc (record : Record) (past : List Event) (event : Event) :
    advance record (past ++ [event]) = next (advance record past) event := by
  rw [advance, List.foldl_append]
  rfl

/-- A stream of later runs is accepted after an accepted history that ended
its run exactly when it is accepted alone. -/
theorem accepted_append_iff (past : List Event) (last : Event) (ending : endsRun last = true)
    (history : accepted (past ++ [last]) = true) (start : RunStartedEvent) (rest : List Event) :
    accepted (past ++ [last] ++ Event.runStarted start :: rest) = true ↔
      accepted (.runStarted start :: rest) = true := by
  rw [accepted_iff_admits] at history
  rw [accepted_iff_admits, accepted_iff_admits, admits_append, and_iff_right history, advance_snoc]
  apply admits_iff_of_runStarted
  · exact phase_next_of_endsRun _ ending
  · exact Phase.noConfusion

/-- A run that errors with a message, a call, a step and a subagent open, and
a later run that reuses all of their ids under another owner. -/
theorem accepted_append_iff_errored :
    accepted
      [.runStarted { threadId := "t", runId := "r1" },
       .subagentStarted { subagentRunId := .value "s", name := some "worker" },
       .textMessageStart { messageId := "m", subagentRunId := .value "s" },
       .toolCallStart { toolCallId := "c", toolCallName := "search", subagentRunId := .value "s" },
       .stepStarted { stepName := "plan" },
       .runError { message := "stopped" },
       .runStarted { threadId := "t", runId := "r2" },
       .subagentStarted { subagentRunId := .value "s", name := some "worker" },
       .textMessageStart { messageId := "m" },
       .toolCallStart { toolCallId := "c", toolCallName := "search" },
       .stepStarted { stepName := "plan" }] = true :=
  (accepted_append_iff
    [.runStarted { threadId := "t", runId := "r1" },
     .subagentStarted { subagentRunId := .value "s", name := some "worker" },
     .textMessageStart { messageId := "m", subagentRunId := .value "s" },
     .toolCallStart { toolCallId := "c", toolCallName := "search", subagentRunId := .value "s" },
     .stepStarted { stepName := "plan" }]
    (.runError { message := "stopped" }) rfl (by decide)
    { threadId := "t", runId := "r2" }
    [.subagentStarted { subagentRunId := .value "s", name := some "worker" },
     .textMessageStart { messageId := "m" },
     .toolCallStart { toolCallId := "c", toolCallName := "search" },
     .stepStarted { stepName := "plan" }]).mpr (by decide)

end Verify
end AgUi
