import Mathlib.Data.List.Induction

namespace AgUi
namespace Library

/-!
# Synchronous stages of a stream pipeline

A stage keeps a state, answers each input with a finite list of outputs, and
may fail.  The first failure ends the stream: what was emitted before it
stays emitted, and no later input is looked at.

`run` computes a whole stream.  `Runs` is the same function read as a
relation on the streams that are not refused, which is the form the
invariant rules below are stated in.
-/

universe u v w x

variable {S : Type u} {A : Type v} {B : Type w} {E : Type x}

/-- A stateful operator with no concurrency: one input, then its outputs. -/
abbrev Stage (S : Type u) (A : Type v) (B : Type w) (E : Type x) :=
  S -> A -> Except E (S × List B)

/-- A result that is a value exactly under `condition`, and then one satisfying `Ends`. -/
def Decides (condition : Prop) (Ends : S -> Prop) : Except E S -> Prop
  | .ok value => condition ∧ Ends value
  | .error _ => ¬ condition

namespace Decides

variable {condition : Prop} {Ends : S -> Prop} {result : Except E S}

theorem exists_iff (decides : Decides condition Ends result) :
    (∃ value, result = .ok value) ↔ condition := by
  cases result with
  | error error =>
    constructor
    · rintro ⟨value, impossible⟩
      cases impossible
    · exact fun holds => absurd holds decides
  | ok value => exact ⟨fun _ => decides.1, fun _ => ⟨value, rfl⟩⟩

theorem ends (decides : Decides condition Ends result) {value : S} (done : result = .ok value) :
    Ends value := by
  subst done
  exact decides.2

theorem mono {other : Prop} {Later : S -> Prop} (decides : Decides condition Ends result)
    (same : condition ↔ other) (implies : ∀ value, condition -> Ends value -> Later value) :
    Decides other Later result := by
  cases result with
  | error error => exact fun holds => decides (same.mpr holds)
  | ok value => exact ⟨same.mp decides.1, implies value decides.1 decides.2⟩

end Decides

namespace Stage

/-- Everything emitted, and the state or the error the stream ended in. -/
def run (stage : Stage S A B E) : S -> List A -> List B × Except E S
  | state, [] => ([], .ok state)
  | state, input :: rest =>
    match stage state input with
    | .error error => ([], .error error)
    | .ok (next, output) =>
      let tail := run stage next rest
      (output ++ tail.1, tail.2)

def accepts (stage : Stage S A B E) (state : S) (inputs : List A) : Bool :=
  match (stage.run state inputs).2 with
  | .ok _ => true
  | .error _ => false

/-- The runs that reach the end of their input. -/
inductive Runs (stage : Stage S A B E) : S -> List A -> List B -> S -> Prop
  | nil (state : S) : Runs stage state [] [] state
  | cons {state next final : S} {input : A} {output : List B} {rest : List A} {outputs : List B}
      (step : stage state input = .ok (next, output)) (tail : Runs stage next rest outputs final) :
      Runs stage state (input :: rest) (output ++ outputs) final

variable {stage : Stage S A B E}

theorem runs_iff_run (state : S) (inputs : List A) (outputs : List B) (final : S) :
    Runs stage state inputs outputs final ↔ stage.run state inputs = (outputs, .ok final) := by
  constructor
  · intro runs
    induction runs with
    | nil state => rfl
    | cons step _ ih => simp only [run, step, ih]
  · intro computed
    induction inputs generalizing state outputs with
    | nil =>
      cases computed
      exact .nil _
    | cons input rest ih =>
      simp only [run] at computed
      cases step : stage state input with
      | error error => simp [step] at computed
      | ok pair =>
        obtain ⟨next, output⟩ := pair
        simp only [step, Prod.mk.injEq] at computed
        obtain ⟨rfl, ended⟩ := computed
        exact .cons step (ih next _ (Prod.ext rfl ended))

theorem run_append (state : S) (first second : List A) :
    stage.run state (first ++ second) =
      match (stage.run state first).2 with
      | .error _ => stage.run state first
      | .ok next => ((stage.run state first).1 ++ (stage.run next second).1, (stage.run next second).2) := by
  induction first generalizing state with
  | nil => rfl
  | cons input rest ih =>
    simp only [List.cons_append, run]
    cases step : stage state input with
    | error error => rfl
    | ok pair =>
      rcases pair with ⟨next, output⟩
      simp only [ih next]
      cases ended : (stage.run next rest).2 with
      | error error => simp only [ended]
      | ok last => simp only [List.append_assoc]

theorem run_cons_ok {state next : S} {input : A} {output : List B}
    (step : stage state input = .ok (next, output)) (rest : List A) :
    stage.run state (input :: rest) = (output ++ (stage.run next rest).1, (stage.run next rest).2) := by
  simp only [run, step]

theorem accepts_cons_ok {state next : S} {input : A} {output : List B}
    (step : stage state input = .ok (next, output)) (rest : List A) :
    stage.accepts state (input :: rest) = stage.accepts next rest := by
  simp only [accepts, run_cons_ok step]

theorem accepts_cons_error {state : S} {input : A} {error : E} (step : stage state input = .error error)
    (rest : List A) : stage.accepts state (input :: rest) = false := by
  simp only [accepts, run, step]

theorem accepts_cons (state : S) (input : A) (rest : List A) :
    stage.accepts state (input :: rest) = true ↔
      ∃ next output,
        stage state input = .ok (next, output) ∧ stage.accepts next rest = true := by
  cases step : stage state input with
  | error error => simp [accepts, run, step]
  | ok pair =>
    obtain ⟨next, output⟩ := pair
    simp [accepts, run, step]

namespace Runs

theorem append {state middle final : S} {first second : List A} {early late : List B}
    (head : Runs stage state first early middle) (tail : Runs stage middle second late final) :
    Runs stage state (first ++ second) (early ++ late) final := by
  induction head with
  | nil state => exact tail
  | cons step _ ih =>
    rw [List.append_assoc]
    exact .cons step (ih tail)

theorem single {state next : S} {input : A} {output : List B}
    (step : stage state input = .ok (next, output)) : Runs stage state [input] output next := by
  have runs := Runs.cons step (.nil next)
  rwa [List.append_nil] at runs

theorem snoc {state middle final : S} {inputs : List A} {input : A} {outputs output : List B}
    (head : Runs stage state inputs outputs middle)
    (step : stage middle input = .ok (final, output)) :
    Runs stage state (inputs ++ [input]) (outputs ++ output) final :=
  head.append (single step)

variable {outputs : List B} {state final : S}

/-- A run of a concatenation passes through one state between its parts. -/
theorem exists_middle {first second : List A} (runs : Runs stage state (first ++ second) outputs final) :
    ∃ middle early late,
      outputs = early ++ late ∧ Runs stage state first early middle ∧
      Runs stage middle second late final := by
  induction first generalizing state outputs with
  | nil => exact ⟨state, [], outputs, rfl, .nil state, runs⟩
  | cons input rest ih =>
    cases runs with
    | cons step tail =>
      obtain ⟨middle, early, late, rfl, head, last⟩ := ih tail
      exact ⟨middle, _ ++ early, late, by rw [List.append_assoc], .cons step head, last⟩

theorem of_cons {input : A} {rest : List A} (runs : Runs stage state (input :: rest) outputs final) :
    ∃ next output late,
      outputs = output ++ late ∧ stage state input = .ok (next, output) ∧
      Runs stage next rest late final := by
  cases runs with
  | cons step tail => exact ⟨_, _, _, rfl, step, tail⟩

theorem of_single {input : A} (runs : Runs stage state [input] outputs final) :
    stage state input = .ok (final, outputs) := by
  obtain ⟨next, output, late, rfl, step, tail⟩ := runs.of_cons
  cases tail
  rw [List.append_nil]
  exact step

theorem deterministic {state left right : S} {inputs : List A} {first second : List B}
    (one : Runs stage state inputs first left) (other : Runs stage state inputs second right) :
    first = second ∧ left = right := by
  rw [runs_iff_run] at one other
  rw [one] at other
  cases other
  exact ⟨rfl, rfl⟩

/-- Induction along a run with the inputs read and the outputs written so far.
The step case also learns where in the whole input it stands. -/
theorem history {inputs : List A}
    (runs : Runs stage state inputs outputs final) (Holds : List A -> List B -> S -> Prop)
    (initially : Holds [] [] state) (keeps : ∀ past emitted before input future after output,
      inputs = past ++ input :: future -> Runs stage state past emitted before ->
      Holds past emitted before -> stage before input = .ok (after, output) ->
      Holds (past ++ [input]) (emitted ++ output) after) : Holds inputs outputs final := by
  induction inputs using List.reverseRecOn generalizing outputs final with
  | nil =>
    cases runs
    exact initially
  | append_singleton past newest ih =>
    obtain ⟨middle, early, late, rfl, head, last⟩ := runs.exists_middle
    have step := last.of_single
    have before := ih head (by
      intro older emitted state input future after output split reached holds accepted
      refine keeps older emitted state input (future ++ [newest]) after output ?_ reached holds accepted
      rw [split, List.append_assoc, List.cons_append])
    exact keeps past early middle newest [] final late rfl head before step

end Runs

end Stage
end Library
end AgUi
