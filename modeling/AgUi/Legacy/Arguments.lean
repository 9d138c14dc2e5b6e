import AgUi.Legacy.Convert
import AgUi.Verify.Comparison

namespace AgUi
namespace Legacy

open Library Protocol Verify

/-!
# Which tool arguments reach the legacy protocol

A step makes the bridge forget the calls that are open, and the arguments that
arrive for them afterwards are dropped.  A prediction that cannot be searched
ends the stream at the next arguments of a call that is known.  Nothing else
loses arguments: they reach the legacy protocol, each between the start and the
end of its call, exactly if neither happens.
-/

/-! ## What the bridge remembers of a stream -/

/-- The calls started since the last step began or ended. -/
def noteStart (started : List ToolCallStartEvent) : Event -> List ToolCallStartEvent
  | .toolCallStart event => started ++ [event]
  | .stepStarted _ => []
  | .stepFinished _ => []
  | _ => started

def startedSinceStep (past : List Event) : List ToolCallStartEvent :=
  past.foldl noteStart []

/-- The prediction set since the last step began or ended. -/
def notePrediction (prediction : Option Json) : Event -> Option Json
  | .custom event => if event.name = "PredictState" then some event.value else prediction
  | .stepStarted _ => none
  | .stepFinished _ => none
  | _ => prediction

def predictionSinceStep (past : List Event) : Option Json :=
  past.foldl notePrediction none

theorem startedSinceStep_snoc (past : List Event) (event : Event) :
    startedSinceStep (past ++ [event]) = noteStart (startedSinceStep past) event := by
  rw [startedSinceStep, List.foldl_append]
  rfl

theorem predictionSinceStep_snoc (past : List Event) (event : Event) :
    predictionSinceStep (past ++ [event]) = notePrediction (predictionSinceStep past) event := by
  rw [predictionSinceStep, List.foldl_append]
  rfl

/-! ## The conditions -/

/-- Arguments that are not empty come with their call started since the last step. -/
def StartedSinceStep (past : List Event) : Event -> Prop
  | .toolCallArgs event =>
    event.delta ≠ "" -> ∃ start ∈ startedSinceStep past, start.toolCallId = event.toolCallId
  | _ => True

/-- Where arguments come for a call started since the last step, the prediction
set since then can be searched for it. -/
def SearchablePrediction (runtime : Runtime) (past : List Event) : Event -> Prop
  | .toolCallArgs event =>
    ∀ start, (startedSinceStep past).find? (fun start => start.toolCallId = event.toolCallId) = some start ->
      findPredictState runtime (predictionSinceStep past) start.toolCallName ≠ none
  | _ => True

/-- A result is of its declared type. -/
def TypedResult : Event -> Prop
  | .toolCallResult event => contentToText event.content ≠ none
  | _ => True

/-! ## What is to be kept -/

def argsOf (id : String) : LegacyEvent -> Option String
  | .actionExecutionArgs named args => if named = id then some args else none
  | _ => none

def deltaOf (id : String) : Event -> Option String
  | .toolCallArgs event => if event.toolCallId = id then some event.delta else none
  | _ => none

def emittedArguments (id : String) (outputs : List LegacyEvent) : String :=
  String.join (outputs.filterMap (argsOf id))

def streamedArguments (id : String) (events : List Event) : String :=
  String.join (events.filterMap (deltaOf id))

def StartsAction (id : String) : LegacyEvent -> Prop
  | .actionExecutionStart named _ _ => named = id
  | _ => False

def EndsAction (id : String) : LegacyEvent -> Prop
  | .actionExecutionEnd named => named = id
  | _ => False

/-- Arguments stand between the start and the end of their call. -/
def InsideAction (before : List LegacyEvent) : LegacyEvent -> Prop
  | .actionExecutionArgs id _ => Since (StartsAction id) (EndsAction id) before
  | _ => True

/-- The bridge does not fail, and every call keeps its arguments, inside it. -/
def KeepsArguments (bridge : Bridge) (events : List Event) : Prop :=
  ∃ outputs final,
    Stage.Runs bridge.convertToLegacyEvents {} events outputs final ∧
      (∀ id, emittedArguments id outputs = streamedArguments id events) ∧ EverywhereOn InsideAction outputs

theorem emittedArguments_append (id : String) (first second : List LegacyEvent) :
    emittedArguments id (first ++ second) = emittedArguments id first ++ emittedArguments id second := by
  rw [emittedArguments, List.filterMap_append, String.join_append]
  rfl

theorem streamedArguments_append (id : String) (first second : List Event) :
    streamedArguments id (first ++ second) = streamedArguments id first ++ streamedArguments id second := by
  rw [streamedArguments, List.filterMap_append, String.join_append]
  rfl

/-! ## One step -/

/-- The bridge knows the calls and the prediction since the last step. -/
structure Remembers (past : List Event) (state : LegacyState) : Prop where
  calls : state.currentToolCalls.map (fun call => (call.id, call.function.name)) =
    (startedSinceStep past).map fun start => (start.toolCallId, start.toolCallName)
  prediction : state.predictState = predictionSinceStep past

theorem remembers_initial : Remembers [] {} where
  calls := rfl
  prediction := rfl

/-- The call that is found has the name its start gave it. -/
theorem Remembers.find {past : List Event} {state : LegacyState} (remembers : Remembers past state) (id : String) :
    (Bridge.findCall state id).map (fun call => call.function.name) =
      ((startedSinceStep past).find? fun start => start.toolCallId = id).map ToolCallStartEvent.toolCallName := by
  have found := congrArg (List.find? fun named : String × String => named.1 = id) remembers.calls
  rw [List.find?_map, List.find?_map] at found
  have names := congrArg (Option.map Prod.snd) found
  rw [Option.map_map, Option.map_map] at names
  exact names

theorem Remembers.exists_start {past : List Event} {state : LegacyState} (remembers : Remembers past state)
    {id : String} {call : ToolCall} (found : Bridge.findCall state id = some call) :
    ∃ start, (startedSinceStep past).find? (fun start => start.toolCallId = id) = some start ∧
      start.toolCallName = call.function.name := by
  have named := remembers.find id
  rw [found] at named
  rcases Option.map_eq_some_iff.mp named.symm with ⟨start, first, same⟩
  exact ⟨start, first, same⟩

theorem Remembers.findCall_eq_none_iff {past : List Event} {state : LegacyState} (remembers : Remembers past state)
    (id : String) : Bridge.findCall state id = none ↔
      ¬ ∃ start ∈ startedSinceStep past, start.toolCallId = id := by
  have named := remembers.find id
  rw [← Option.map_eq_none_iff (f := fun call : ToolCall => call.function.name), named, Option.map_eq_none_iff,
    List.find?_eq_none]
  constructor
  · rintro absent ⟨start, member, same⟩
    exact absent start member (decide_eq_true same)
  · intro absent start member same
    exact absent ⟨start, member, of_decide_eq_true same⟩

/-- Outputs that are silent about calls. -/
def Silent (outputs : List LegacyEvent) : Prop :=
  ∀ output ∈ outputs, ∀ id,
    argsOf id output = none ∧ ¬ StartsAction id output ∧ ¬ EndsAction id output

theorem silent_nil : Silent [] :=
  fun _ impossible => absurd impossible List.not_mem_nil

theorem silent_singleton {output : LegacyEvent}
    (silent : ∀ id, argsOf id output = none ∧ ¬ StartsAction id output ∧ ¬ EndsAction id output) :
    Silent [output] := by
  intro other member id
  rw [List.mem_singleton.mp member]
  exact silent id

/-- The events of a call that the bridge translates. -/
def ofCall : Event -> Bool
  | .toolCallStart _ => true
  | .toolCallArgs _ => true
  | .toolCallEnd _ => true
  | _ => false

/-- What the bridge answers an event with, as far as calls go. -/
inductive Answers (state : LegacyState) : Event -> List LegacyEvent -> Prop where
  | started (event : ToolCallStartEvent) :
      Answers state (.toolCallStart event)
        [.actionExecutionStart event.toolCallId event.toolCallName event.parentMessageId]
  | ended (event : ToolCallEndEvent) : Answers state (.toolCallEnd event) [.actionExecutionEnd event.toolCallId]
  | passed (event : ToolCallArgsEvent) {rest : List LegacyEvent} {call : ToolCall}
      (known : Bridge.findCall state event.toolCallId = some call) (silent : Silent rest) :
      Answers state (.toolCallArgs event) (.actionExecutionArgs event.toolCallId event.delta :: rest)
  | dropped (event : ToolCallArgsEvent) (unknown : Bridge.findCall state event.toolCallId = none) :
      Answers state (.toolCallArgs event) []
  | silent {event : Event} {outputs : List LegacyEvent} (silent : Silent outputs) (aside : ofCall event = false) :
      Answers state event outputs

theorem currentToolCalls_updateCurrentState (state : LegacyState) (value : Json) :
    (updateCurrentState state value).currentToolCalls = state.currentToolCalls := by
  cases value with
  | _ => rfl

theorem predictState_updateCurrentState (state : LegacyState) (value : Json) :
    (updateCurrentState state value).predictState = state.predictState := by
  cases value with
  | _ => rfl

/-- The calls and the prediction are all that is remembered. -/
theorem Remembers.of_same {past : List Event} {event : Event} {state next : LegacyState}
    (remembers : Remembers past state) (started : noteStart (startedSinceStep past) event = startedSinceStep past)
    (predicted : notePrediction (predictionSinceStep past) event = predictionSinceStep past)
    (calls : next.currentToolCalls.map (fun call => (call.id, call.function.name)) =
      state.currentToolCalls.map fun call => (call.id, call.function.name))
    (prediction : next.predictState = state.predictState) : Remembers (past ++ [event]) next where
  calls := by
    rw [startedSinceStep_snoc, started, calls]
    exact remembers.calls
  prediction := by
    rw [predictionSinceStep_snoc, predicted, prediction]
    exact remembers.prediction

theorem Remembers.forget {past : List Event} {event : Event} {next : LegacyState}
    (started : noteStart (startedSinceStep past) event = [])
    (predicted : notePrediction (predictionSinceStep past) event = none) (calls : next.currentToolCalls = [])
    (prediction : next.predictState = none) : Remembers (past ++ [event]) next where
  calls := by
    rw [startedSinceStep_snoc, started, calls]
    rfl
  prediction := by
    rw [predictionSinceStep_snoc, predicted, prediction]

/-- The calls after arguments are those before, under the same names. -/
theorem calls_growCall (state : LegacyState) (event : ToolCallArgsEvent) :
    (Bridge.growCall state event).currentToolCalls.map (fun call => (call.id, call.function.name)) =
      state.currentToolCalls.map fun call => (call.id, call.function.name) := by
  apply updateFirst.map_of_same
  intro call _
  rfl

section

variable (bridge : Bridge) {past : List Event} {state next : LegacyState} {outputs : List LegacyEvent}

theorem silent_agentState (state : LegacyState) (active : Bool) (document : Json) (messages : SentMessages) :
    Silent [bridge.agentState state active document messages] :=
  silent_singleton fun _ => ⟨rfl, not_false, not_false⟩

theorem toolCallArgs_spec (remembers : Remembers past state) {event : ToolCallArgsEvent}
    (step : bridge.toolCallArgs state event = .ok (next, outputs)) :
    Remembers (past ++ [Event.toolCallArgs event]) next ∧ Answers state (.toolCallArgs event) outputs := by
  unfold Bridge.toolCallArgs at step
  cases known : Bridge.findCall state event.toolCallId with
  | none =>
    rw [known] at step
    cases step
    exact ⟨remembers.of_same rfl rfl rfl rfl, .dropped event known⟩
  | some call =>
    rw [known] at step
    dsimp only at step
    cases search : findPredictState bridge.runtime state.predictState call.function.name with
    | none =>
      rw [search] at step
      cases step
    | some found =>
      rw [search] at step
      cases found with
      | none =>
        cases step
        exact ⟨remembers.of_same rfl rfl (calls_growCall state event) rfl, .passed event known silent_nil⟩
      | some entry =>
        dsimp only at step
        split at step
        · cases step
          exact ⟨remembers.of_same rfl rfl (calls_growCall state event) rfl, .passed event known silent_nil⟩
        · cases step
          refine ⟨remembers.of_same rfl rfl ?_ ?_, .passed event known (silent_agentState bridge _ _ _ _)⟩
          · rw [currentToolCalls_updateCurrentState]
            exact calls_growCall state event
          · rw [predictState_updateCurrentState]
            rfl

theorem toolCallStart_remembers (remembers : Remembers past state) (event : ToolCallStartEvent) :
    Remembers (past ++ [Event.toolCallStart event]) (Bridge.toolCallStart state event).1 where
  calls := by
    rw [startedSinceStep_snoc]
    change (state.currentToolCalls ++ [_]).map _ = (startedSinceStep past ++ [event]).map _
    rw [List.map_append, List.map_append, remembers.calls]
    rfl
  prediction := by
    rw [predictionSinceStep_snoc]
    exact remembers.prediction

theorem custom_remembers (remembers : Remembers past state) (event : CustomEvent) :
    Remembers (past ++ [Event.custom event]) (Bridge.custom state event).1 := by
  by_cases exits : event.name = "Exit"
  · have other : event.name ≠ "PredictState" := by
      rw [exits]
      decide
    apply remembers.of_same rfl
    · exact if_neg other
    · rw [Bridge.custom, if_pos exits]
    · rw [Bridge.custom, if_pos exits]
  · by_cases predicts : event.name = "PredictState"
    · constructor
      · rw [startedSinceStep_snoc, Bridge.custom, if_neg exits, if_pos predicts]
        exact remembers.calls
      · rw [predictionSinceStep_snoc, Bridge.custom, if_neg exits, if_pos predicts]
        exact (if_pos predicts).symm
    · apply remembers.of_same rfl
      · exact if_neg predicts
      · rw [Bridge.custom, if_neg exits, if_neg predicts]
      · rw [Bridge.custom, if_neg exits, if_neg predicts]

theorem runFinished_same (state : LegacyState) :
    (bridge.runFinished state).1.currentToolCalls = state.currentToolCalls ∧
      (bridge.runFinished state).1.predictState = state.predictState ∧ Silent (bridge.runFinished state).2 := by
  have same : (bridge.syncMessages state).currentToolCalls = state.currentToolCalls ∧
      (bridge.syncMessages state).predictState = state.predictState := by
    unfold Bridge.syncMessages
    split
    · exact ⟨rfl, rfl⟩
    · exact ⟨rfl, rfl⟩
  unfold Bridge.runFinished
  split
  · split
    · exact ⟨same.1, same.2, silent_nil⟩
    · exact ⟨same.1, same.2, silent_agentState bridge _ _ _ _⟩
  · split
    · exact ⟨same.1, same.2, silent_singleton fun _ => ⟨rfl, not_false, not_false⟩⟩
    · exact ⟨same.1, same.2, silent_agentState bridge _ _ _ _⟩

/-- What one event does: the bridge remembers it, and answers it as it should. -/
theorem step_spec (remembers : Remembers past state) {event : Event}
    (step : bridge.convertToLegacyEvents state event = .ok (next, outputs)) :
    Remembers (past ++ [event]) next ∧ Answers state event outputs := by
  have quiet : Silent outputs -> ofCall event = false -> Remembers (past ++ [event]) next ->
      Remembers (past ++ [event]) next ∧ Answers state event outputs :=
    fun silent aside later => ⟨later, .silent silent aside⟩
  cases event with
  | toolCallStart event =>
    cases step
    exact ⟨toolCallStart_remembers remembers event, .started event⟩
  | toolCallArgs event => exact toolCallArgs_spec bridge remembers step
  | toolCallEnd event =>
    cases step
    exact ⟨remembers.of_same rfl rfl rfl rfl, .ended event⟩
  | toolCallResult event =>
    change Bridge.toolCallResult state event = _ at step
    unfold Bridge.toolCallResult at step
    split at step
    · cases step
    · cases step
      refine quiet (silent_singleton fun _ => ⟨rfl, not_false, not_false⟩) rfl ?_
      exact remembers.of_same rfl rfl rfl rfl
  | custom event =>
    cases step
    refine quiet (silent_singleton fun _ => ⟨rfl, not_false, not_false⟩) rfl ?_
    exact custom_remembers remembers event
  | stateSnapshot event =>
    cases step
    refine quiet (silent_agentState bridge _ _ _ _) rfl ?_
    apply remembers.of_same rfl rfl
    · exact congrArg (List.map _) (currentToolCalls_updateCurrentState state event.snapshot)
    · exact predictState_updateCurrentState state event.snapshot
  | stateDelta event =>
    change Except.ok (bridge.stateDelta state event) = _ at step
    unfold Bridge.stateDelta at step
    split at step
    · cases step
      refine quiet silent_nil rfl ?_
      exact remembers.of_same rfl rfl rfl rfl
    · rename_i patched _
      cases step
      refine quiet (silent_agentState bridge _ _ _ _) rfl ?_
      apply remembers.of_same rfl rfl
      · exact congrArg (List.map _) (currentToolCalls_updateCurrentState state patched)
      · exact predictState_updateCurrentState state patched
  | messagesSnapshot event =>
    cases step
    refine quiet (silent_agentState bridge _ _ _ _) rfl ?_
    exact remembers.of_same rfl rfl rfl rfl
  | runFinished event =>
    rcases runFinished_same bridge state with ⟨calls, prediction, silent⟩
    have effect : bridge.runFinished state = (next, outputs) := Except.ok.inj step
    rw [effect] at calls prediction silent
    refine quiet silent rfl ?_
    exact remembers.of_same rfl rfl (congrArg (List.map _) calls) prediction
  | stepStarted event | stepFinished event =>
    cases step
    refine quiet (silent_agentState bridge _ _ _ _) rfl ?_
    exact Remembers.forget rfl rfl rfl rfl
  | textMessageStart event | textMessageContent event | textMessageEnd event | runError event =>
    cases step
    refine quiet (silent_singleton fun _ => ⟨rfl, not_false, not_false⟩) rfl ?_
    exact remembers.of_same rfl rfl rfl rfl
  | _ =>
    cases step
    refine quiet silent_nil rfl ?_
    exact remembers.of_same rfl rfl rfl rfl

end

/-! ## Whole streams -/

theorem deltaOf_of_aside {event : Event} (aside : ofCall event = false) (id : String) : deltaOf id event = none := by
  cases event with
  | toolCallArgs event => cases aside
  | _ => rfl

variable {outputs : List LegacyEvent}

theorem emitted_of_silent (silent : Silent outputs) (id : String) : emittedArguments id outputs = "" := by
  rw [emittedArguments, List.filterMap_eq_nil_iff.mpr fun output member => (silent output member id).1]
  rfl

/-- What one event adds to the arguments of a call: its delta, unless it is dropped. -/
theorem Answers.emitted {state : LegacyState} {event : Event}
    (answers : Answers state event outputs) (id : String) :
    emittedArguments id outputs = streamedArguments id [event] ∨
      (emittedArguments id outputs = "" ∧ ∃ args, event = .toolCallArgs args ∧
        Bridge.findCall state args.toolCallId = none) := by
  cases answers with
  | started event | ended event => exact .inl rfl
  | passed event known silent =>
    left
    rw [← List.singleton_append, emittedArguments_append, emitted_of_silent silent, String.append_empty]
    rfl
  | dropped event unknown => exact .inr ⟨rfl, event, rfl, unknown⟩
  | silent silent aside =>
    left
    rw [emitted_of_silent silent, streamedArguments, List.filterMap_cons_none (deltaOf_of_aside aside id)]
    rfl

def StartsCall (id : String) (event : Event) : Prop :=
  opens? event = some (.entity .toolCall id)

def EndsCall (id : String) (event : Event) : Prop :=
  closes? event = some (.entity .toolCall id)

/-- A call is inside its brackets on both sides of the bridge. -/
theorem Answers.since {state : LegacyState} {event : Event}
    (answers : Answers state event outputs) {past : List Event} {before : List LegacyEvent} {id : String}
    (same : Since (StartsCall id) (EndsCall id) past ↔ Since (StartsAction id) (EndsAction id) before) :
    Since (StartsCall id) (EndsCall id) (past ++ [event]) ↔
      Since (StartsAction id) (EndsAction id) (before ++ outputs) := by
  cases answers with
  | started event =>
    have starts : StartsCall id (.toolCallStart event) ↔ event.toolCallId = id := by
      unfold StartsCall opens?
      simp
    have goesOn : ¬ EndsCall id (.toolCallStart event) := nofun
    rw [since_snoc, since_snoc, same, starts]
    exact or_congr_right (and_congr_right fun _ => iff_of_true goesOn not_false)
  | ended event =>
    have starts : ¬ StartsCall id (.toolCallEnd event) := nofun
    have ends : EndsCall id (.toolCallEnd event) ↔ event.toolCallId = id := by
      unfold EndsCall closes?
      simp
    rw [since_snoc, since_snoc, same, ends]
    exact or_congr (iff_of_false starts not_false) Iff.rfl
  | passed event known silent =>
    rw [since_snoc_of_neutral past (nofun) (nofun),
      since_append_of_neutral, same]
    intro output member
    rcases List.mem_cons.mp member with rfl | later
    · exact ⟨not_false, not_false⟩
    · exact (silent output later id).2
  | dropped event unknown =>
    rw [since_snoc_of_neutral past (nofun) (nofun),
      List.append_nil, same]
  | silent silent aside =>
    rw [since_snoc_of_neutral, since_append_of_neutral, same]
    · exact fun output member => (silent output member id).2
    · intro starts
      cases event with
      | toolCallStart event => cases aside
      | subagentStarted event =>
        rcases Option.map_eq_some_iff.mp starts with ⟨_, _, impossible⟩
        cases impossible
      | _ => cases starts
    · intro ends
      cases event with
      | toolCallEnd event => cases aside
      | subagentFinished event | subagentError event =>
        rcases Option.map_eq_some_iff.mp ends with ⟨_, _, impossible⟩
        cases impossible
      | _ => cases ends

theorem insideAction_of_silent (silent : Silent outputs) (rule : List LegacyEvent -> List LegacyEvent) :
    EverywhereOn (fun more => InsideAction (rule more)) outputs := by
  rintro past output future rfl
  have member : output ∈ past ++ output :: future := List.mem_append_right _ List.mem_cons_self
  cases output with
  | actionExecutionArgs id args =>
    have none := (silent _ member id).1
    rw [argsOf, if_pos rfl] at none
    cases none
  | _ => trivial

theorem Answers.inside {state : LegacyState} {event : Event}
    (answers : Answers state event outputs) {before : List LegacyEvent}
    (held : ∀ args, event = .toolCallArgs args ->
      Since (StartsAction args.toolCallId) (EndsAction args.toolCallId) before) :
    EverywhereOn (fun more => InsideAction (before ++ more)) outputs := by
  cases answers with
  | started event | ended event =>
    rw [everywhereOn_cons]
    exact ⟨trivial, everywhereOn_nil _⟩
  | passed event known silent =>
    rw [everywhereOn_cons, List.append_nil]
    exact ⟨held event rfl, insideAction_of_silent silent _⟩
  | dropped event unknown => exact everywhereOn_nil _
  | silent silent aside => exact insideAction_of_silent silent _

/-- Where the prediction can be searched and the result is of its type, the bridge takes the event. -/
theorem exists_step (bridge : Bridge) {past : List Event} {state : LegacyState} (remembers : Remembers past state)
    {event : Event} (searchable : SearchablePrediction bridge.runtime past event) (typed : TypedResult event) :
    ∃ next outputs, bridge.convertToLegacyEvents state event = .ok (next, outputs) := by
  cases event with
  | toolCallArgs event =>
    change ∃ next outputs, bridge.toolCallArgs state event = .ok (next, outputs)
    unfold Bridge.toolCallArgs
    cases known : Bridge.findCall state event.toolCallId with
    | none => exact ⟨_, _, rfl⟩
    | some call =>
      rcases remembers.exists_start known with ⟨start, first, named⟩
      have search := searchable start first
      rw [named, ← remembers.prediction] at search
      dsimp only
      cases found : findPredictState bridge.runtime state.predictState call.function.name with
      | none => exact absurd found search
      | some entry =>
        cases entry with
        | none => exact ⟨_, _, rfl⟩
        | some entry =>
          dsimp only
          split
          · exact ⟨_, _, rfl⟩
          · exact ⟨_, _, rfl⟩
  | toolCallResult event =>
    change ∃ next outputs, Bridge.toolCallResult state event = .ok (next, outputs)
    unfold Bridge.toolCallResult
    cases text : contentToText event.content with
    | none => exact absurd text typed
    | some result => exact ⟨_, _, rfl⟩
  | _ => exact ⟨_, _, rfl⟩

/-- An event the bridge takes can be searched for. -/
theorem searchable_of_step (bridge : Bridge) {past : List Event} {state next : LegacyState}
    (remembers : Remembers past state) {event : Event}
    (step : bridge.convertToLegacyEvents state event = .ok (next, outputs)) :
    SearchablePrediction bridge.runtime past event := by
  cases event with
  | toolCallArgs event =>
    intro start first failing
    have named := remembers.find event.toolCallId
    rw [first] at named
    rcases Option.map_eq_some_iff.mp named with ⟨call, known, same⟩
    change bridge.toolCallArgs state event = _ at step
    unfold Bridge.toolCallArgs at step
    rw [known] at step
    dsimp only at step
    rw [remembers.prediction, same, failing] at step
    cases step
  | _ => trivial

/-! ## The arguments that arrive -/

/-- What a run of the bridge has come to. -/
structure Bridged (bridge : Bridge) (past : List Event) (outputs : List LegacyEvent) (state : LegacyState) : Prop where
  runs : Stage.Runs bridge.convertToLegacyEvents {} past outputs state
  remembers : Remembers past state
  arguments : ∀ id, emittedArguments id outputs = streamedArguments id past
  inside : EverywhereOn InsideAction outputs
  brackets : ∀ id, Since (StartsCall id) (EndsCall id) past ↔ Since (StartsAction id) (EndsAction id) outputs

theorem bridged_nil (bridge : Bridge) : Bridged bridge [] [] {} where
  runs := .nil _
  remembers := remembers_initial
  arguments := fun _ => rfl
  inside := everywhereOn_nil _
  brackets := fun _ => iff_of_false (not_since_nil _ _) (not_since_nil _ _)

/-- An event under the rules is bridged, its arguments included. -/
theorem Bridged.snoc {bridge : Bridge} {past : List Event} {state : LegacyState}
    (bridged : Bridged bridge past outputs state) {event : Event} (started : StartedSinceStep past event)
    (searchable : SearchablePrediction bridge.runtime past event) (typed : TypedResult event)
    (called : ∀ id, continues? event = some (.entity .toolCall id) -> IsOpen past (.entity .toolCall id)) :
    ∃ output next, Bridged bridge (past ++ [event]) (outputs ++ output) next := by
  rcases exists_step bridge bridged.remembers searchable typed with ⟨next, output, step⟩
  rcases step_spec bridge bridged.remembers step with ⟨later, answers⟩
  refine ⟨output, next, bridged.runs.snoc step, later, ?_, ?_, ?_⟩
  · intro id
    rw [emittedArguments_append, streamedArguments_append, bridged.arguments id]
    congr 1
    rcases answers.emitted id with same | ⟨empty, args, rfl, unknown⟩
    · exact same
    · have nothing : args.delta = "" := by
        by_contra something
        exact (bridged.remembers.findCall_eq_none_iff _).mp unknown (started something)
      rw [empty, streamedArguments, List.filterMap_cons, deltaOf]
      by_cases own : args.toolCallId = id
      · rw [if_pos own, nothing]
        rfl
      · rw [if_neg own]
        rfl
  · rw [everywhereOn_append]
    refine ⟨bridged.inside, answers.inside ?_⟩
    rintro args rfl
    apply (bridged.brackets args.toolCallId).mp
    exact since_of_closes (called args.toolCallId rfl) fun _ ends => .inl ends
  · intro id
    exact answers.since (bridged.brackets id)

theorem emitted_le (bridge : Bridge) {past : List Event} {state final : LegacyState} (remembers : Remembers past state)
    {events : List Event}
    (runs : Stage.Runs bridge.convertToLegacyEvents state events outputs final) (id : String) :
    (emittedArguments id outputs).length ≤ (streamedArguments id events).length := by
  have both : Remembers (past ++ events) final ∧
      (emittedArguments id outputs).length ≤ (streamedArguments id events).length := by
    refine runs.history (fun heard said reached => Remembers (past ++ heard) reached ∧
      (emittedArguments id said).length ≤ (streamedArguments id heard).length) ?_ ?_
    · rw [List.append_nil]
      exact ⟨remembers, Nat.le_refl _⟩
    · intro heard said before event _ after output _ _ now step
      rcases step_spec bridge now.1 step with ⟨later, answers⟩
      refine ⟨by rwa [List.append_assoc] at later, ?_⟩
      rw [emittedArguments_append, streamedArguments_append, String.length_append, String.length_append]
      rcases answers.emitted id with same | ⟨empty, _⟩
      · rw [same]
        exact Nat.add_le_add_right now.2 _
      · rw [empty]
        exact Nat.add_le_add now.2 (Nat.zero_le _)
  exact both.2

theorem remembers_of_runs {bridge : Bridge} {past : List Event} {state : LegacyState}
    (runs : Stage.Runs bridge.convertToLegacyEvents {} past outputs state) : Remembers past state := by
  refine runs.history (fun heard _ reached => Remembers heard reached) remembers_initial ?_
  intro heard said before event _ after output _ _ now step
  exact (step_spec bridge now step).1

/-- What arrives in full was started since the last step, and could be searched for. -/
theorem rules_of_keepsArguments {bridge : Bridge} {events : List Event} (keeps : KeepsArguments bridge events) :
    EverywhereOn StartedSinceStep events ∧ EverywhereOn (SearchablePrediction bridge.runtime) events := by
  rcases keeps with ⟨outputs, final, runs, arguments, _⟩
  rw [← everywhereOn_and]
  rintro past event future rfl
  rcases runs.exists_middle with ⟨middle, early, late, rfl, head, rest⟩
  rcases rest.of_cons with ⟨next, output, later, rfl, step, tail⟩
  have remembers := remembers_of_runs head
  rcases step_spec bridge remembers step with ⟨after, answers⟩
  refine ⟨?_, searchable_of_step bridge remembers step⟩
  cases event with
  | toolCallArgs event =>
    intro something
    by_contra unstarted
    have unknown := (remembers.findCall_eq_none_iff event.toolCallId).mpr unstarted
    have none : emittedArguments event.toolCallId output = "" := by
      cases answers with
      | passed event known silent =>
        rw [unknown] at known
        cases known
      | dropped event unknown => rfl
      | silent silent aside => cases aside
    -- what is lost here cannot be made up for elsewhere
    have whole := congrArg String.length (arguments event.toolCallId)
    rw [emittedArguments_append, emittedArguments_append, none, ← List.singleton_append,
      streamedArguments_append, streamedArguments_append] at whole
    have before := emitted_le bridge remembers_initial head event.toolCallId
    have behind := emitted_le bridge after tail event.toolCallId
    have delta : streamedArguments event.toolCallId [.toolCallArgs event] = event.delta := by
      rw [streamedArguments, List.filterMap_cons, deltaOf, if_pos rfl]
      exact String.empty_append
    have positive : event.delta.length ≠ 0 := fun zero => something (String.length_eq_zero_iff.mp zero)
    simp only [String.length_append, String.length_empty] at whole
    rw [delta] at whole
    omega
  | _ => trivial

/-- Of an accepted stream without chunks the arguments of every call reach the
legacy protocol in full, each inside its call, and the bridge does not fail,
exactly if arguments only come for calls started since the last step, and the
prediction set since then can be searched for the call. -/
theorem keepsArguments_iff (bridge : Bridge) {events : List Event} (verified : accepted events = true)
    (typed : ∀ event ∈ events, TypedResult event) :
    KeepsArguments bridge events ↔
      EverywhereOn StartedSinceStep events ∧ EverywhereOn (SearchablePrediction bridge.runtime) events := by
  constructor
  · exact rules_of_keepsArguments
  · rintro ⟨started, searchable⟩
    have all : ∀ past future, events = past ++ future ->
        ∃ outputs state, Bridged bridge past outputs state := by
      intro past
      induction past using List.reverseRecOn with
      | nil => exact fun _ _ => ⟨[], {}, bridged_nil bridge⟩
      | append_singleton past event ih =>
        intro future split
        have place : events = past ++ event :: future := by
          rw [split, List.append_assoc, List.singleton_append]
        rcases ih (event :: future) place with ⟨outputs, state, bridged⟩
        have listed : event ∈ events := place ▸ List.mem_append_right _ List.mem_cons_self
        rcases bridged.snoc (started past event future place) (searchable past event future place)
          (typed event listed) (fun id continues => isOpen_of_continues (place ▸ verified) continues) with
          ⟨output, next, later⟩
        exact ⟨outputs ++ output, next, later⟩
    rcases all events [] (List.append_nil _).symm with ⟨outputs, final, bridged⟩
    exact ⟨outputs, final, bridged.runs, bridged.arguments, bridged.inside⟩

/-- A runtime that knows the empty object, which is all the streams below parse. -/
def emptyObjectRuntime : Runtime where
  applyPatch := fun _ _ => none
  parse := fun text => if text = "{}" then .ok (.object []) else .error "Unexpected token"
  untruncateJson := id
  looselyEqual := fun _ _ => some false
  toPropertyKey := fun _ => none
  otherMember := fun _ _ => none
  messagesJson := fun _ => .array []

def exampleBridge : Bridge :=
  { runtime := emptyObjectRuntime, threadId := "t", runId := "r", agentName := "agent" }

/-- A call inside a step predicts a state. -/
def callInStep : List Event :=
  [.runStarted { threadId := "t", runId := "r" },
   .stepStarted { stepName := "s" },
   .custom
    { name := "PredictState"
      value := .array [.object [("state_key", .string "document"), ("tool", .string "write")]] },
   .toolCallStart { toolCallId := "c", toolCallName := "write" },
   .toolCallArgs { toolCallId := "c", delta := "{}" },
   .toolCallEnd { toolCallId := "c" },
   .stepFinished { stepName := "s" },
   .runFinished { threadId := "t", runId := "r" }]

theorem keepsArguments_iff_callInStep :
    accepted callInStep = true ∧ KeepsArguments exampleBridge callInStep := by
  have typed : ∀ event ∈ callInStep, TypedResult event := by
    simp [callInStep, TypedResult]
  refine ⟨by decide, (keepsArguments_iff exampleBridge (by decide) typed).mpr ?_⟩
  simp only [callInStep, everywhereOn_cons]
  exact ⟨⟨trivial, trivial, trivial, trivial, fun _ => ⟨_, List.mem_cons_self, rfl⟩, trivial, trivial, trivial,
      everywhereOn_nil _⟩,
    ⟨trivial, trivial, trivial, trivial, fun start first => by cases first; decide, trivial, trivial, trivial,
      everywhereOn_nil _⟩⟩

/-- A step begins while the arguments of a call are still to come. -/
def stepInCall : List Event :=
  [.runStarted { threadId := "t", runId := "r" },
   .toolCallStart { toolCallId := "c", toolCallName := "write" },
   .stepStarted { stepName := "s" },
   .toolCallArgs { toolCallId := "c", delta := "{}" },
   .toolCallEnd { toolCallId := "c" },
   .stepFinished { stepName := "s" },
   .runFinished { threadId := "t", runId := "r" }]

/-- The value of a `PredictState` event is no array. -/
def flagPredicted : List Event :=
  [.runStarted { threadId := "t", runId := "r" },
   .custom { name := "PredictState", value := .bool true },
   .toolCallStart { toolCallId := "c", toolCallName := "write" },
   .toolCallArgs { toolCallId := "c", delta := "{}" },
   .toolCallEnd { toolCallId := "c" },
   .runFinished { threadId := "t", runId := "r" }]

/-- Two accepted streams whose arguments do not arrive, whatever the runtime. -/
theorem stepInCall_loses :
    (accepted stepInCall = true ∧ ∀ bridge, ¬ KeepsArguments bridge stepInCall) ∧
      (accepted flagPredicted = true ∧ ∀ bridge, ¬ KeepsArguments bridge flagPredicted) := by
  refine ⟨⟨by decide, ?_⟩, by decide, ?_⟩
  · intro bridge keeps
    have started := (rules_of_keepsArguments keeps).1 (stepInCall.take 3) _ (stepInCall.drop 4) rfl
    rcases started (by decide) with ⟨start, member, _⟩
    exact absurd member List.not_mem_nil
  · intro bridge keeps
    have searchable := (rules_of_keepsArguments keeps).2 (flagPredicted.take 3) _ (flagPredicted.drop 4) rfl
    exact searchable _ rfl rfl

end Legacy
end AgUi
