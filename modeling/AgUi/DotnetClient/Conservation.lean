import AgUi.DotnetClient.Delivery

namespace AgUi
namespace DotnetClient

open Library Protocol Verify Building

/-!
# Conservation over a stream

What one event does to the queue of held updates, lifted to every stream the
converter accepts.  A `RUN_ERROR` does not look at the queue: the law is about
streams in which no completed call waits when one arrives.
-/

/-! ## Between runs -/

/-- Where the converter stands between runs: once begun it has a run or an
error, and outside a run nothing is held. -/
structure ConverterState.Rested (state : ConverterState) : Prop where
  begun : state.runError = false -> state.firstEventReceived = true -> state.runStarted = true
  outside : state.firstEventReceived = false ∨ state.runFinished = true ->
    state.toolCallBuilder.pendingToolCallIds = OrderedMap.empty

/-- What the gate lets through: the first event, an event inside a run, or a
terminal or a new run after a finished one. -/
theorem gate_ok {state next : ConverterState} {event : Event} (done : state.gate event = .ok next) :
    state.runError = false ∧
    ((next = { state with firstEventReceived := true } ∧ state.firstEventReceived = false ∧
        (event.type = .runStarted ∨ event.type = .runError)) ∨
      (next = state ∧ state.firstEventReceived = true ∧ event.type ≠ .runStarted ∧
        (state.runFinished = true -> event.type = .runError)) ∨
      (next = state.reset ∧ state.firstEventReceived = true ∧ event.type = .runStarted ∧ state.runFinished = true) ∨
      (next = state ∧ state.firstEventReceived = true ∧ event.type = .runStarted ∧ state.runStarted = false)) := by
  unfold ConverterState.gate at done
  by_cases errored : state.runError = true
  · rw [if_pos errored] at done
    cases done
  rw [if_neg errored] at done
  refine ⟨Bool.eq_false_iff.mpr errored, ?_⟩
  by_cases late : state.runFinished = true ∧ event.type ≠ .runError ∧ event.type ≠ .runStarted
  · rw [if_pos late] at done
    cases done
  rw [if_neg late] at done
  by_cases first : state.firstEventReceived = false
  · rw [if_pos first] at done
    by_cases other : event.type ≠ .runStarted ∧ event.type ≠ .runError
    · rw [if_pos other] at done
      cases done
    · rw [if_neg other] at done
      cases done
      refine Or.inl ⟨rfl, first, ?_⟩
      by_cases started : event.type = .runStarted
      · exact Or.inl started
      · exact Or.inr (Decidable.of_not_not fun failed => other ⟨started, failed⟩)
  rw [if_neg first] at done
  have begun := Bool.not_eq_false _ ▸ first
  by_cases started : event.type = .runStarted
  · rw [if_pos started] at done
    by_cases active : state.runStarted = true ∧ state.runFinished = false
    · rw [if_pos active] at done
      cases done
    rw [if_neg active] at done
    by_cases finished : state.runFinished = true
    · rw [if_pos finished] at done
      cases done
      exact Or.inr (Or.inr (Or.inl ⟨rfl, begun, started, finished⟩))
    · rw [if_neg finished] at done
      cases done
      refine Or.inr (Or.inr (Or.inr ⟨rfl, begun, started, ?_⟩))
      rw [← Bool.not_eq_true]
      exact fun running => active ⟨running, Bool.eq_false_iff.mpr finished⟩
  · rw [if_neg started] at done
    cases done
    refine Or.inr (Or.inl ⟨rfl, begun, started, fun finished => ?_⟩)
    exact Decidable.of_not_not fun failed => late ⟨finished, failed, started⟩

/-- The gate holds nothing back and drops nothing. -/
theorem gate_queue {state next : ConverterState} {event : Event} (rested : state.Rested)
    (sound : state.toolCallBuilder.Sound) (done : state.gate event = .ok next) :
    next.toolCallBuilder.buffer = state.toolCallBuilder.buffer ∧
      next.toolCallBuilder.pendingToolCallIds = state.toolCallBuilder.pendingToolCallIds := by
  rcases (gate_ok done).2 with ⟨rfl, -⟩ | ⟨rfl, -⟩ | ⟨rfl, -, -, finished⟩ | ⟨rfl, -⟩
  · exact ⟨rfl, rfl⟩
  · exact ⟨rfl, rfl⟩
  · have none := rested.outside (Or.inr finished)
    exact ⟨(sound.idle.mpr (none ▸ rfl)).symm, none.symm⟩
  · exact ⟨rfl, rfl⟩

/-! ## What a step leaves alone -/

section Frame

variable {deserialize : String -> Except Thrown (Option Arguments)} {state : ConverterState} {event : Event}
  {result : ConverterState × List ChatResponseUpdate}

theorem emit_frame (state : ConverterState) (update : ChatResponseUpdate) :
    ∃ calls, (state.emit update).1 = { state with toolCallBuilder := calls } := by
  unfold ConverterState.emit
  split
  · exact ⟨_, rfl⟩
  · exact ⟨state.toolCallBuilder, rfl⟩

theorem toolCallResultCase_frame (state : ConverterState) (event : ToolCallResultEvent) :
    ∃ calls, (state.toolCallResultCase event).1 = { state with toolCallBuilder := calls } := by
  unfold ConverterState.toolCallResultCase
  by_cases buffering : state.toolCallBuilder.isBuffering = true
  · simp only [if_pos buffering]
    exact ⟨_, rfl⟩
  · simp only [if_neg buffering]
    exact ⟨state.toolCallBuilder, rfl⟩

theorem runFinishedCase_frame {event : RunFinishedEvent} (done : state.runFinishedCase event = .ok result) :
    ∃ calls, result.1 = { state with runFinished := true, toolCallBuilder := calls } := by
  rcases runFinishedCase_ok done with ⟨_, _, rfl, _⟩
  exact ⟨_, rfl⟩

/-- Inside a run a step changes the builders and the open steps only. -/
theorem Processes.frame (processes : Processes deserialize state event result) (inside : ¬ Boundary event) :
    ∃ texts calls steps,
      result.1 = { state with textMessageBuilder := texts, toolCallBuilder := calls, activeSteps := steps } := by
  cases processes with
  | runStarted event | runError event | runFinished event => exact absurd trivial inside
  | builds inside texts buffer pending none stays knows => exact ⟨texts, _, state.activeSteps, rfl⟩
  | ends done => exact ⟨state.textMessageBuilder, _, state.activeSteps, rfl⟩
  | result event =>
    rcases toolCallResultCase_frame state event with ⟨calls, same⟩
    exact ⟨state.textMessageBuilder, calls, state.activeSteps, same⟩
  | @emits event inside steps update raw own stays =>
    rcases emit_frame { state with activeSteps := steps } update with ⟨calls, same⟩
    exact ⟨state.textMessageBuilder, calls, steps, same⟩

end Frame

theorem type_of_boundary {event : Event} (inside : ¬ Boundary event) :
    event.type ≠ .runStarted ∧ event.type ≠ .runError := by
  cases event with
  | runStarted event | runFinished event | runError event => exact absurd trivial inside
  | _ => exact ⟨fun impossible => (nomatch impossible), fun impossible => (nomatch impossible)⟩

/-- The gate lets a `RUN_STARTED` through only outside a run. -/
theorem calm_runStarted {state next : ConverterState} {event : RunStartedEvent} (rested : state.Rested)
    (done : state.gate (.runStarted event) = .ok next) :
    state.toolCallBuilder.pendingToolCallIds = OrderedMap.empty := by
  rcases gate_ok done with ⟨fine, ⟨-, first, -⟩ | ⟨-, -, other, -⟩ | ⟨-, -, -, finished⟩ | ⟨-, begun, -, idle⟩⟩
  · exact rested.outside (Or.inl first)
  · exact absurd rfl other
  · exact rested.outside (Or.inr finished)
  · rw [rested.begun fine begun] at idle
    cases idle

/-- A step leaves the converter rested. -/
theorem rested_step {deserialize : String -> Except Thrown (Option Arguments)} {state next : ConverterState}
    {attribution : Attribution} {event : Event} {result : ConverterState × List ChatResponseUpdate}
    (rested : state.Rested) (gated : state.gate event = .ok next)
    (processes : Processes deserialize { next with attribution } event result)
    (waiting : result.1.toolCallBuilder.pendingToolCallIds =
      awaitsNext state.toolCallBuilder.pendingToolCallIds event) : result.1.Rested := by
  have passed := gate_ok gated
  by_cases inside : ¬ Boundary event
  · rcases passed.2 with ⟨-, -, terminal⟩ | ⟨rfl, begun, -, onlyError⟩ | ⟨-, -, started, -⟩ | ⟨-, -, started, -⟩
    · exact absurd terminal (not_or.mpr (type_of_boundary inside))
    · rcases processes.frame inside with ⟨texts, calls, steps, same⟩
      rw [same]
      constructor
      · exact rested.begun
      · rintro (first | finished)
        · rw [begun] at first
          cases first
        · exact absurd (onlyError finished) (type_of_boundary inside).2
    · exact absurd started (type_of_boundary inside).1
    · exact absurd started (type_of_boundary inside).1
  · cases event with
    | runStarted event =>
      rw [calm_runStarted rested gated] at waiting
      cases processes with
      | runStarted event => exact ⟨fun _ _ => rfl, fun _ => waiting⟩
      | builds inside => exact absurd trivial inside
      | emits inside => exact absurd trivial inside
    | runError event =>
      cases processes with
      | runError event =>
        constructor
        · intro fine
          cases fine
        · rcases passed.2 with ⟨rfl, first, -⟩ | ⟨rfl, begun, -⟩ | ⟨-, -, started, -⟩ | ⟨-, -, started, -⟩
          · intro _
            rw [waiting]
            exact rested.outside (Or.inl first)
          · intro outside
            rw [waiting]
            exact rested.outside outside
          · cases started
          · cases started
      | builds inside => exact absurd trivial inside
      | emits inside => exact absurd trivial inside
    | runFinished event =>
      cases processes with
      | runFinished done =>
        rcases runFinishedCase_frame done with ⟨calls, same⟩
        rw [same] at waiting ⊢
        refine ⟨?_, fun _ => waiting⟩
        rcases passed.2 with ⟨-, -, other | other⟩ | ⟨rfl, -⟩ | ⟨-, -, other, -⟩ | ⟨-, -, other, -⟩
        · cases other
        · cases other
        · exact rested.begun
        · cases other
        · cases other
      | builds inside => exact absurd trivial inside
      | emits inside => exact absurd trivial inside
    | _ => exact absurd id inside

/-! ## Along a stream -/

/-- What has been yielded, followed by what is held, is what the events so far
map to, whatever is still to come; and the calls that wait are the ones the
events leave waiting. -/
structure Conserves (deserialize : String -> Except Thrown (Option Arguments)) (past : List Event)
    (yielded : List ChatResponseUpdate) (state : ConverterState) : Prop where
  order : ∀ future, yielded.map ChatResponseUpdate.shown ++ settled state.toolCallBuilder future =
    shownIn deserialize [] past future
  waiting : state.toolCallBuilder.pendingToolCallIds = awaiting past
  sound : state.toolCallBuilder.Sound
  rested : state.Rested
  knows : Knows past state.toolCallBuilder

theorem shown_attributed (owners : OrderedMap EntityKey Owner) (updates : List ChatResponseUpdate) :
    (updates.map (Attribution.attributed owners)).map ChatResponseUpdate.shown =
      updates.map ChatResponseUpdate.shown := by
  rw [List.map_map]
  apply List.map_congr_left
  intro update _
  change (Attribution.attributed owners update).shown = _
  unfold Attribution.attributed
  split <;> rfl

/-- The gate forgets the open calls of a run that is over. -/
theorem knows_gate {state next : ConverterState} {event : Event} {past : List Event}
    (knows : Knows past state.toolCallBuilder) (done : state.gate event = .ok next) :
    Knows past next.toolCallBuilder := by
  rcases (gate_ok done).2 with ⟨rfl, -⟩ | ⟨rfl, -⟩ | ⟨rfl, -⟩ | ⟨rfl, -⟩
  · exact knows
  · exact knows
  · exact fun _ _ found => nomatch found
  · exact knows

theorem conserves_initial (deserialize : String -> Except Thrown (Option Arguments)) :
    Conserves deserialize [] [] {} where
  order := fun _ => rfl
  waiting := rfl
  sound := ⟨fun _ => rfl, fun _ => rfl⟩
  rested := ⟨fun _ impossible => (nomatch impossible), fun _ => rfl⟩
  knows := fun _ _ found => nomatch found

theorem conserves_step {deserialize : String -> Except Thrown (Option Arguments)} {past : List Event}
    {yielded output : List ChatResponseUpdate} {state next : ConverterState} {event : Event}
    (conserves : Conserves deserialize past yielded state)
    (calm : ∀ error, event = .runError error -> (awaiting past).size = 0)
    (step : asChatResponseUpdates deserialize state event = .ok (next, output)) :
    Conserves deserialize (past ++ [event]) (yielded ++ output) next := by
  rcases outcome_bind_ok_iff.mp step with ⟨gated, gating, rest⟩
  rcases outcome_bind_ok_iff.mp rest with ⟨checked, checking, more⟩
  rcases outcome_bind_ok_iff.mp more with ⟨⟨after, updates⟩, processing, last⟩
  cases last
  rcases gate_queue conserves.rested conserves.sound gating with ⟨buffer, pending⟩
  have sound : gated.toolCallBuilder.Sound := by
    constructor
    rw [buffer, pending]
    exact conserves.sound.idle
  have overtaking : Overtakes event -> gated.toolCallBuilder.pendingToolCallIds.size = 0 := by
    intro overtakes
    cases event with
    | runStarted event =>
      rw [pending, calm_runStarted conserves.rested gating]
      rfl
    | runError event =>
      rw [pending, conserves.waiting]
      exact calm event rfl
    | _ => exact absurd overtakes id
  have processes := processes_processEvent processing
  have knows : Knows past gated.toolCallBuilder := knows_gate conserves.knows gating
  have waits : gated.toolCallBuilder.pendingToolCallIds = awaiting past := pending.trans conserves.waiting
  have handles := processes.handles sound knows waits overtaking
  have waiting := handles.waiting
  dsimp only at waiting
  constructor
  · intro future
    have order := handles.order future
    have held : settled gated.toolCallBuilder (event :: future) = settled state.toolCallBuilder (event :: future) := by
      rw [settled, settled, buffer, pending]
    dsimp only at order
    rw [List.map_append, shown_attributed, List.append_assoc, ← order, held, ← List.append_assoc, conserves.order,
      shownIn_append, shownIn_singleton]
    rfl
  · rw [waiting, pending, awaiting_snoc, conserves.waiting]
  · exact handles.sound
  · apply rested_step conserves.rested gating processes
    rw [waiting, pending]
  · exact processes.knows knows

/-- No completed call waits for its result when a run ends in an error. -/
def ErrorsAwaitNothing (events : List Event) : Prop :=
  ∀ past error future, events = past ++ Event.runError error :: future -> (awaiting past).size = 0

theorem conserves_run {deserialize : String -> Except Thrown (Option Arguments)} {events : List Event}
    {updates : List ChatResponseUpdate} {final : ConverterState}
    (runs : Stage.Runs (asChatResponseUpdates deserialize) {} events updates final)
    (calm : ErrorsAwaitNothing events) : Conserves deserialize events updates final := by
  refine runs.history (Conserves deserialize) (conserves_initial deserialize) ?_
  intro past emitted before event future after output split reached conserves step
  apply conserves_step conserves _ step
  intro error failed
  rw [failed] at split
  exact calm past error future split

theorem ErrorsAwaitNothing.past {past future : List Event} (calm : ErrorsAwaitNothing (past ++ future)) :
    ErrorsAwaitNothing past := by
  intro early error late split
  apply calm early error (late ++ future)
  rw [split, List.append_assoc, List.cons_append]

/-! ## Nothing is lost -/

/-- The events that end a run. -/
def Terminal : Event -> Prop
  | .runFinished _ | .runError _ => True
  | _ => False

/-- What the client owes the consumer of a whole stream. -/
structure LosesNothing (deserialize : String -> Except Thrown (Option Arguments)) (events : List Event)
    (updates : List ChatResponseUpdate) (final : ConverterState) : Prop where
  /-- Every event is yielded as often as it maps to an update and with the contents it calls for, in the
  order of arrival; the rest is held. -/
  order : (updates ++ final.toolCallBuilder.buffer).map ChatResponseUpdate.shown = shownIn deserialize [] events []
  /-- Something is held exactly while a completed call waits for its result. -/
  held : final.toolCallBuilder.buffer = [] ↔ (awaiting events).size = 0
  /-- A result that follows the end of its call is yielded after the call. -/
  answered : ∀ early call middle result late,
    events = early ++ Event.toolCallEnd call :: (middle ++ Event.toolCallResult result :: late) ->
    result.toolCallId = call.toolCallId ->
    ∃ before, ∃ callUpdate : ChatResponseUpdate, ∃ between,
      ∃ resultUpdate : ChatResponseUpdate, ∃ after,
      updates ++ final.toolCallBuilder.buffer = before ++ callUpdate :: (between ++ resultUpdate :: after) ∧
      before.map ChatResponseUpdate.shown =
        shownIn deserialize [] early (Event.toolCallEnd call :: (middle ++ Event.toolCallResult result :: late)) ∧
      callUpdate.rawRepresentation = Event.toolCallEnd call ∧
      between.map ChatResponseUpdate.shown =
        shownIn deserialize (early ++ [Event.toolCallEnd call]) middle (Event.toolCallResult result :: late) ∧
      resultUpdate.rawRepresentation = Event.toolCallResult result
  /-- Nothing is held after a terminal. -/
  emptied : ∀ past terminal future early reached, events = past ++ terminal :: future -> Terminal terminal ->
    Stage.Runs (asChatResponseUpdates deserialize) {} (past ++ [terminal]) early reached ->
    reached.toolCallBuilder.buffer = []

theorem exists_answered {updates : List ChatResponseUpdate} {early middle late : List Shown} {call result : Shown}
    (order : updates.map ChatResponseUpdate.shown = early ++ call :: (middle ++ result :: late)) :
    ∃ before, ∃ callUpdate : ChatResponseUpdate, ∃ between,
      ∃ resultUpdate : ChatResponseUpdate, ∃ after,
      updates = before ++ callUpdate :: (between ++ resultUpdate :: after) ∧
      before.map ChatResponseUpdate.shown = early ∧ callUpdate.rawRepresentation = call.1 ∧
      between.map ChatResponseUpdate.shown = middle ∧ resultUpdate.rawRepresentation = result.1 := by
  rcases List.map_eq_append_iff.mp order with ⟨before, rest, rfl, first, more⟩
  rcases List.map_eq_cons_iff.mp more with ⟨callUpdate, others, rfl, rfl, tail⟩
  rcases List.map_eq_append_iff.mp tail with ⟨between, ending, rfl, second, last⟩
  rcases List.map_eq_cons_iff.mp last with ⟨resultUpdate, after, rfl, rfl, -⟩
  exact ⟨before, callUpdate, between, resultUpdate, after, rfl, first, rfl, second, rfl⟩

theorem awaiting_terminal {past : List Event} {terminal : Event} (ends : Terminal terminal)
    (calm : ErrorsAwaitNothing (past ++ [terminal])) : (awaiting (past ++ [terminal])).size = 0 := by
  rw [awaiting_snoc]
  cases terminal with
  | runFinished event => rfl
  | runError event => exact calm past event [] rfl
  | _ => exact absurd ends id

/-- The client loses nothing it buffers. -/
theorem asChatResponseUpdates_losesNothing (deserialize : String -> Except Thrown (Option Arguments))
    (events : List Event) (updates : List ChatResponseUpdate) (final : ConverterState)
    (runs : Stage.Runs (asChatResponseUpdates deserialize) {} events updates final)
    (calm : ErrorsAwaitNothing events) : LosesNothing deserialize events updates final := by
  have conserves := conserves_run runs calm
  have order : (updates ++ final.toolCallBuilder.buffer).map ChatResponseUpdate.shown =
      shownIn deserialize [] events [] := by
    rw [List.map_append, ← conserves.order, settled, interruptsAhead]
    simp only [approvalOf_none]
  constructor
  · exact order
  · rw [← conserves.waiting]
    exact conserves.sound.idle
  · intro early call middle result late split _
    rw [split, shownIn_append, List.append_nil] at order
    simp only [shownIn, shownIn_append, List.append_assoc, List.append_nil, List.nil_append] at order
    exact exists_answered order
  · intro past terminal future early reached split ends runsPast
    have whole : ErrorsAwaitNothing ((past ++ [terminal]) ++ future) := by
      rw [List.append_assoc, List.singleton_append, ← split]
      exact calm
    have calmPast := whole.past
    have before := conserves_run runsPast calmPast
    apply before.sound.idle.mpr
    rw [before.waiting]
    exact awaiting_terminal ends calmPast

namespace Sample

def deserialize : String -> Except Thrown (Option Arguments) := fun _ => .ok none

def begin : List Event :=
  [.runStarted { threadId := "thread", runId := "run" },
    .toolCallStart { toolCallId := "call", toolCallName := "search" }]

def call : Event := .toolCallEnd { toolCallId := "call" }

def result : Event := .toolCallResult { messageId := "result", toolCallId := "call", content := .text "found" }

def finish (outcome : Option RunFinishedOutcome) : Event :=
  .runFinished { threadId := "thread", runId := "run", outcome }

def interrupted : Event :=
  finish (some (.interrupt [{ id := "ask", reason := "tool_call", toolCallId := some "call" }]))

/-- The types of the events the yielded updates stand for, and how many updates are still held. -/
def observed (events : List Event) : List EventType × Option Nat :=
  let run := (asChatResponseUpdates deserialize).run {} events
  (run.1.map fun update => update.rawRepresentation.type,
    match run.2 with
    | .ok final => some final.toolCallBuilder.buffer.length
    | .error _ => none)

end Sample

open Sample in
/-- A call, an event behind it, its result and the end of the run. -/
theorem asChatResponseUpdates_losesNothing_sample :
    LosesNothing deserialize (begin ++ [call, Event.custom { name := "note", value := .null }, result, finish none])
      ((asChatResponseUpdates deserialize).run {}
        (begin ++ [call, Event.custom { name := "note", value := .null }, result, finish none])).1
      (((asChatResponseUpdates deserialize).run {}
        (begin ++ [call, Event.custom { name := "note", value := .null }, result,
          finish none])).2.toOption.getD {}) := by
  apply asChatResponseUpdates_losesNothing
  · rw [Stage.runs_iff_run]
    rfl
  · intro past error future split
    have member : Event.runError error ∈ begin ++ [call, Event.custom { name := "note", value := .null }, result,
        finish none] := by
      rw [split]
      exact List.mem_append_right _ List.mem_cons_self
    simp [begin, call, result, finish] at member

open Sample in
/-- A result may come before its call ends, an interrupted run may yield no
terminal, and a run that errors while a call waits never yields the call. -/
theorem observed_counterexamples :
    observed (begin ++ [result, call, finish none]) =
      ([.runStarted, .toolCallResult, .toolCallEnd, .runFinished], some 0) ∧
    observed (begin ++ [call, interrupted]) = ([.runStarted, .toolCallEnd], some 0) ∧
    observed (begin ++ [call, Event.runError { message := "broken" }]) = ([.runStarted, .runError], some 1) := by
  decide +kernel

end DotnetClient
end AgUi
