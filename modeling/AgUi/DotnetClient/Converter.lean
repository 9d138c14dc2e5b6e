import AgUi.DotnetClient.Attribution

namespace AgUi
namespace DotnetClient

open Library Protocol Verify

/-!
# The event stream converter

`AsChatResponseUpdates` turns the events of one or more runs into updates.
Each event is first checked against the run and against the attribution of
what it names.  Then it changes a builder, yields updates, or both; while a
completed tool call waits for its result, what it would yield is held back.
-/

/-- The builders of messages and calls, the open steps, the owners, and where the run stands. -/
structure ConverterState where
  conversationId : Option String := none
  responseId : Option String := none
  textMessageBuilder : TextMessageBuilder := {}
  toolCallBuilder : ToolCallBuilder := {}
  activeSteps : OrderedSet (Owner × String) := OrderedMap.empty
  attribution : Attribution := {}
  runStarted : Bool := false
  runFinished : Bool := false
  runError : Bool := false
  firstEventReceived : Bool := false

namespace ConverterState

/-! ## Run gating -/

/-- A `RUN_STARTED` after a finished run. -/
def reset (state : ConverterState) : ConverterState :=
  { state with
    textMessageBuilder := state.textMessageBuilder.reset
    toolCallBuilder := state.toolCallBuilder.reset
    activeSteps := OrderedMap.empty
    attribution := {}
    runFinished := false
    runError := false
    runStarted := true }

/-- After an error nothing is taken, after the end only a new run, and first of all the start of one. -/
def gate (state : ConverterState) (event : Event) : Except Thrown ConverterState :=
  if state.runError then
    .error (.invalidOperation ("Cannot send event type '" ++ event.type.name ++
      "': The run has already errored with 'RUN_ERROR'. No further events can be sent."))
  else if state.runFinished = true ∧ event.type ≠ .runError ∧ event.type ≠ .runStarted then
    .error (.invalidOperation ("Cannot send event type '" ++ event.type.name ++
      "': The run has already finished with 'RUN_FINISHED'. Start a new run with 'RUN_STARTED'."))
  else if state.firstEventReceived = false then
    if event.type ≠ .runStarted ∧ event.type ≠ .runError then
      .error (.invalidOperation "First event must be 'RUN_STARTED'.")
    else .ok { state with firstEventReceived := true }
  else if event.type = .runStarted then
    if state.runStarted = true ∧ state.runFinished = false then
      .error (.invalidOperation ("Cannot send 'RUN_STARTED' while a run is still active. " ++
        "The previous run must be finished with 'RUN_FINISHED' before starting a new run."))
    else if state.runFinished then .ok state.reset
    else .ok state
  else .ok state

/-! ## Updates of single events -/

/-- An update of the run with nothing but the event it stands for. -/
def bareUpdate (state : ConverterState) (event : Event) : ChatResponseUpdate where
  conversationId := state.conversationId
  responseId := state.responseId
  rawRepresentation := event

/-- One update for each entry, so that each keeps its own model. -/
def usageUpdates (state : ConverterState) (event : Event) (usage : Option (List TokenUsage)) :
    List ChatResponseUpdate :=
  (usage.getD []).map fun entry => { state.bareUpdate event with
    modelId := entry.model
    contents := [.usage (toUsageDetails entry)] }

/-- Yield the update, or hold it back behind the calls that wait for a result. -/
def emit (state : ConverterState) (update : ChatResponseUpdate) : ConverterState × List ChatResponseUpdate :=
  if state.toolCallBuilder.isBuffering then
    ({ state with
        toolCallBuilder :=
          state.toolCallBuilder.bufferUpdate (Attribution.stampOwner update state.attribution.owners) }, [])
  else (state, [update])

/-! ## The cases of the switch -/

/-- Every later update carries the ids of the run. -/
def runStartedCase (state : ConverterState) (event : RunStartedEvent) : ConverterState × List ChatResponseUpdate :=
  let state := { state with
    runStarted := true
    conversationId := some event.threadId
    responseId := some event.runId
    textMessageBuilder := state.textMessageBuilder.setConversationAndResponseIds event.threadId event.runId
    toolCallBuilder := state.toolCallBuilder.setIds event.threadId event.runId }
  (state, [state.bareUpdate (.runStarted event)])

/-- An interrupt as a content of its own. -/
def interruptRequest (interrupt : Interrupt) : AIContent :=
  .interruptRequest {
    id := interrupt.id
    reason := interrupt.reason
    message := interrupt.message
    toolCallId := interrupt.toolCallId
    responseSchema := interrupt.responseSchema
    expiresAt := interrupt.expiresAt
    metadata := interrupt.metadata }

/-- The interrupts that are not about a tool call, in one update if there are any. -/
def interruptUpdates (state : ConverterState) (event : RunFinishedEvent) (interrupts : List Interrupt) :
    List ChatResponseUpdate :=
  let nonToolContents := (interrupts.filter fun interrupt => !isToolInterrupt interrupt).map interruptRequest
  if nonToolContents.isEmpty then []
  else [{ state.bareUpdate (.runFinished event) with contents := nonToolContents }]

def describeSteps (steps : OrderedSet (Owner × String)) : String :=
  ", ".intercalate (steps.keys.map fun step =>
    match step.1 with
    | some owner => step.2 ++ " (subagent '" ++ owner ++ "')"
    | none => step.2)

/-- A run does not finish with open steps, messages or calls; calls still held are delivered with it. -/
def runFinishedCase (state : ConverterState) (event : RunFinishedEvent) :
    Except Thrown (ConverterState × List ChatResponseUpdate) := do
  if state.activeSteps.size ≠ 0 then
    .error (.invalidOperation ("Cannot send 'RUN_FINISHED' while steps are still active: " ++
      describeSteps state.activeSteps))
  else
    state.textMessageBuilder.ensureCompleted
    state.toolCallBuilder.ensureCompleted
    let state := { state with runFinished := true }
    let usage := state.usageUpdates (.runFinished event) event.usage
    match event.outcome with
    | some (.interrupt interrupts) =>
      let flushed := state.toolCallBuilder.flushWithInterrupts interrupts
      .ok ({ state with toolCallBuilder := flushed.1 },
        flushed.2 ++ state.interruptUpdates event interrupts ++ usage)
    | _ =>
      let flushed := state.toolCallBuilder.flushAsToolCalls
      .ok ({ state with toolCallBuilder := flushed.1 },
        flushed.2 ++ [{ state.bareUpdate (.runFinished event) with finishReason := some .stop }] ++ usage)

/-- An error is told whatever is still open. -/
def runErrorCase (state : ConverterState) (event : RunErrorEvent) : ConverterState × List ChatResponseUpdate :=
  ({ state with runError := true },
    { state.bareUpdate (.runError event) with contents := [.error event.message event.code] } ::
      state.usageUpdates (.runError event) event.usage)

/-- Steps of two parties may have one name. -/
def stepStartedCase (state : ConverterState) (event : StepStartedEvent) :
    Except Thrown (ConverterState × List ChatResponseUpdate) :=
  let owner := event.subagentRunId.toOption
  if state.activeSteps.has (owner, event.stepName) then
    .error (.invalidOperation ("Step \"" ++ event.stepName ++ "\" is already active for 'STEP_STARTED'" ++
      match owner with
      | some id => " in subagent '" ++ id ++ "'."
      | none => "."))
  else
    let state := { state with activeSteps := state.activeSteps.add (owner, event.stepName) }
    .ok (state.emit (state.bareUpdate (.stepStarted event)))

def agent (owner : Owner) : String :=
  match owner with
  | some id => "subagent '" ++ id ++ "'"
  | none => "the parent agent"

/-- Who finishes a step has to be who started it. -/
def stepFinishedCase (state : ConverterState) (event : StepFinishedEvent) :
    Except Thrown (ConverterState × List ChatResponseUpdate) :=
  let owner := event.subagentRunId.toOption
  if state.activeSteps.has (owner, event.stepName) then
    let state := { state with activeSteps := state.activeSteps.erase (owner, event.stepName) }
    .ok (state.emit (state.bareUpdate (.stepFinished event)))
  else
    match state.activeSteps.keys.find? fun step => step.2 = event.stepName with
    | some step =>
      .error (.invalidOperation ("Cannot send 'STEP_FINISHED' for step \"" ++ event.stepName ++ "\" attributed to " ++
        agent owner ++ ": that step is open under " ++ agent step.1 ++
        ". A step must be finished by whoever started it."))
    | none =>
      .error (.invalidOperation ("Cannot send 'STEP_FINISHED' for step \"" ++ event.stepName ++
        "\" that was not started."))

/-- A result joins the calls that are held back, or is yielded at once. -/
def toolCallResultCase (state : ConverterState) (event : ToolCallResultEvent) :
    ConverterState × List ChatResponseUpdate :=
  let resultUpdate := { state.bareUpdate (.toolCallResult event) with
    role := .tool
    messageId := some event.messageId
    contents := [.functionResult event.toolCallId (contentText event.content)] }
  if state.toolCallBuilder.isBuffering then
    let flushed := state.toolCallBuilder.addResult event.toolCallId resultUpdate
    ({ state with toolCallBuilder := flushed.1 }, flushed.2)
  else (state, [resultUpdate])

def reasoningMessageContentCase (state : ConverterState) (event : ReasoningMessageContentEvent) :
    ConverterState × List ChatResponseUpdate :=
  state.emit { state.bareUpdate (.reasoningMessageContent event) with
    messageId := some event.messageId
    contents := [.textReasoning (some event.delta) none] }

/-- A value about a call joins the message minted for the call. -/
def reasoningEncryptedValueCase (state : ConverterState) (event : ReasoningEncryptedValueEvent) :
    ConverterState × List ChatResponseUpdate :=
  let encryptedMessageId :=
    match event.subtype with
    | .toolCall => (state.toolCallBuilder.mintedMessageIdFor event.entityId).getD event.entityId
    | .message => event.entityId
  state.emit { state.bareUpdate (.reasoningEncryptedValue event) with
    messageId := some encryptedMessageId
    contents := [.textReasoning none (some event.encryptedValue)] }

/-- The pass-through events, and a chunk with the owner inferred for it. -/
def passThroughCase (state : ConverterState) (inferred : Option String) (event : Event) :
    ConverterState × List ChatResponseUpdate :=
  state.emit { state.bareUpdate event with subagentRunId := inferred }

/-- The switch over the event type; `inferred` is the lane of an id-less chunk. -/
def processEvent (deserialize : String -> Except Thrown (Option Arguments)) (state : ConverterState)
    (inferred : Option String) (event : Event) : Except Thrown (ConverterState × List ChatResponseUpdate) :=
  match event with
  | .runStarted e => .ok (runStartedCase state e)
  | .runFinished e => runFinishedCase state e
  | .runError e => .ok (runErrorCase state e)
  | .textMessageStart e => do
      let builder ← state.textMessageBuilder.addTextStart e
      pure ({ state with textMessageBuilder := builder }, [])
  | .textMessageContent e => do
      let update ← state.textMessageBuilder.emitTextUpdate e
      pure (state.emit update)
  | .textMessageEnd e => do
      let builder ← state.textMessageBuilder.endCurrentMessage e
      pure ({ state with textMessageBuilder := builder }, [])
  | .stepStarted e => stepStartedCase state e
  | .stepFinished e => stepFinishedCase state e
  | .toolCallStart e => do
      let builder ← state.toolCallBuilder.startToolCall e
      pure ({ state with toolCallBuilder := builder }, [])
  | .toolCallArgs e => do
      let builder ← state.toolCallBuilder.appendArgs e
      pure ({ state with toolCallBuilder := builder }, [])
  | .toolCallEnd e => do
      let builder ← state.toolCallBuilder.endToolCall deserialize e
      pure ({ state with toolCallBuilder := builder }, [])
  | .toolCallResult e => .ok (toolCallResultCase state e)
  | .reasoningMessageContent e => .ok (reasoningMessageContentCase state e)
  | .reasoningEncryptedValue e => .ok (reasoningEncryptedValueCase state e)
  | event => .ok (passThroughCase state inferred event)

end ConverterState

/-! ## The stage -/

/-- One event: the run, the attribution, the builders; then every update it
yields is stamped with its owner. -/
def asChatResponseUpdates (deserialize : String -> Except Thrown (Option Arguments)) :
    Stage ConverterState Event ChatResponseUpdate Thrown := fun state event => do
  let state ← state.gate event
  let checked ← state.attribution.check event
  let (state, updates) ← { state with attribution := checked.1 }.processEvent deserialize checked.2 event
  pure (state, updates.map (Attribution.attributed state.attribution.owners))

end DotnetClient
end AgUi
