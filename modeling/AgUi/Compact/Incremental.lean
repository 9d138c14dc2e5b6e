import AgUi.Compact.Idempotence

namespace AgUi
namespace Compact

open Library Protocol Apply

/-!
# Compaction as a thread grows

Nothing of a run that is over waits for the next one.  What has been compacted
stays as it is when the runs that came since are compacted behind it.
-/

/-- An accepted history whose streams have ended, up to a run event. -/
structure Complete (past : List Event) : Prop where
  verified : Verify.accepted past = true
  ends : EndsItsStreams past
  stops : ∃ earlier last, past = earlier ++ [last] ∧ part last = .boundary

variable (applyPatch : ApplyPatch) {past : List Event}

/-- Neither a buffer nor a state event is left. -/
theorem reached_of_complete (complete : Complete past) : reached applyPatch {} past = {} := by
  have none := hasBuffer_reached applyPatch complete.verified complete.ends
  have window : (reached applyPatch {} past).stateEvents = [] := by
    rcases complete.stops with ⟨earlier, last, rfl, boundary⟩
    rw [reached, List.foldl_append]
    cases last with
    | runStarted _ | runFinished _ | runError _ => rfl
    | _ => cases boundary
  have bare : ∀ state : CompactState, state.pendingTextMessages = .empty -> state.pendingToolCalls = .empty ->
      state.stateEvents = [] -> state = {} := by
    rintro ⟨_, _, _⟩ rfl rfl rfl
    rfl
  refine bare _ (OrderedMap.ext ?_) (OrderedMap.ext ?_) window
  · exact List.length_eq_zero_iff.mp ((OrderedMap.size_eq_zero_iff _).mpr (none .text))
  · exact List.length_eq_zero_iff.mp ((OrderedMap.size_eq_zero_iff _).mpr (none .call))

section

variable {state : CompactState} (bare : reached applyPatch state past = {})

include bare

theorem compactFrom_append (later : List Event) :
    compactFrom applyPatch state (past ++ later) =
      compactFrom applyPatch state past ++ compactEvents applyPatch later := by
  induction past generalizing state with
  | nil =>
    cases bare
    rfl
  | cons event rest ih => rw [List.cons_append, compactFrom, compactFrom, ih bare, List.append_assoc]

theorem settled_compactFrom (holds : StateHoldsOwn state) : Settled applyPatch (compactFrom applyPatch state past) := by
  induction past generalizing state with
  | nil =>
    cases bare
    exact settled_nil applyPatch
  | cons event rest ih =>
    have step := settles_step applyPatch holds event
    exact step.settled.append (ih bare step.holds)

end

/-- A thread may be compacted as it grows: what comes later is compacted by
itself, and compacting what was compacted before changes nothing. -/
theorem compactEvents_incremental (complete : Complete past) (later : List Event) :
    compactEvents applyPatch (past ++ later) =
        compactEvents applyPatch past ++ compactEvents applyPatch later ∧
      compactEvents applyPatch (compactEvents applyPatch past ++ later) =
        compactEvents applyPatch (past ++ later) := by
  have bare := reached_of_complete applyPatch complete
  have whole := compactFrom_append applyPatch bare later
  refine ⟨whole, ?_⟩
  rw [compactEvents, compactEvents, settled_compactFrom applyPatch bare stateHoldsOwn_initial later]
  exact whole.symm

/-- A state and a change of it, in one run. -/
def counting : List Event :=
  [.runStarted { threadId := "t", runId := "r" },
   .stateSnapshot { snapshot := .object [] },
   .stateDelta { delta := .array [] },
   .runFinished { threadId := "t", runId := "r" }]

theorem compactEvents_incremental_counting :
    compactEvents emptyPatch (compactEvents emptyPatch counting ++ counting) =
      compactEvents emptyPatch (counting ++ counting) := by
  have ends : EndsItsStreams counting := by
    iterate 4 refine endsItsStreams_cons (fun _ _ opening => by cases opening) ?_
    exact endsItsStreams_nil
  exact (compactEvents_incremental emptyPatch ⟨by decide, ends, counting.take 3, _, rfl, rfl⟩ counting).2

end Compact
end AgUi
