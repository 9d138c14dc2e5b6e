import AgUi.Verify.Verifier

namespace AgUi
namespace Kotlin

open Library Protocol Verify

/-!
# The Kotlin event verifier

The same task as the TypeScript verifier, on other state: one flat set of
steps, separate owner tables for reasoning spans and reasoning messages, and
only the openers of a kind record an owner in its table.  A subagent that
fails closes what it still has open.
-/

inductive AGUIError where
  | thrown (message : String)
  | undecodable (type : EventType) (field : String)

structure EventVerifier where
  activeMessages : OrderedSet String := OrderedMap.empty
  messageRoles : OrderedMap String TextMessageRole := OrderedMap.empty
  activeToolCalls : OrderedSet String := OrderedMap.empty
  activeReasoningSpans : OrderedSet String := OrderedMap.empty
  activeReasoningMessages : OrderedSet String := OrderedMap.empty
  runFinished : Bool := false
  runError : Bool := false
  firstEventReceived : Bool := false
  activeSteps : OrderedSet (Owner × String) := OrderedMap.empty
  messageOwners : OrderedMap String Owner := OrderedMap.empty
  toolOwners : OrderedMap String Owner := OrderedMap.empty
  reasoningOwners : OrderedMap String Owner := OrderedMap.empty
  spanOwners : OrderedMap String Owner := OrderedMap.empty
  pendingTools : OrderedSet String := OrderedMap.empty
  subagents : OrderedMap String SubagentStartedEvent := OrderedMap.empty
  closedSubagents : OrderedSet String := OrderedMap.empty
  attributedOwners : OrderedSet String := OrderedMap.empty
  runStarted : Bool := false
  currentThreadId : Option String := none
  currentRunId : Option String := none

namespace EventVerifier

def opened (state : EventVerifier) : Bracket -> OrderedSet String
  | .textMessage => state.activeMessages
  | .toolCall => state.activeToolCalls
  | .reasoningSpan => state.activeReasoningSpans
  | .reasoningMessage => state.activeReasoningMessages

def withOpened (state : EventVerifier) (bracket : Bracket) (ids : OrderedSet String) : EventVerifier :=
  match bracket with
  | .textMessage => { state with activeMessages := ids }
  | .toolCall => { state with activeToolCalls := ids }
  | .reasoningSpan => { state with activeReasoningSpans := ids }
  | .reasoningMessage => { state with activeReasoningMessages := ids }

def ownersOf (state : EventVerifier) : Bracket -> OrderedMap String Owner
  | .textMessage => state.messageOwners
  | .toolCall => state.toolOwners
  | .reasoningSpan => state.spanOwners
  | .reasoningMessage => state.reasoningOwners

def withOwners (state : EventVerifier) (bracket : Bracket) (owners : OrderedMap String Owner) : EventVerifier :=
  match bracket with
  | .textMessage => { state with messageOwners := owners }
  | .toolCall => { state with toolOwners := owners }
  | .reasoningSpan => { state with spanOwners := owners }
  | .reasoningMessage => { state with reasoningOwners := owners }

/-- Only a tag is compared, and only with an owner that is known. -/
def checkOwner (owners : OrderedMap String Owner) (id : String) (owner : Option String) : Except AGUIError Unit :=
  match owner, owners.get? id with
  | some tag, some known =>
    if known = some tag then .ok ()
    else .error (.thrown ("Entity '" ++ id ++ "' attribution disagrees with its opener"))
  | _, _ => .ok ()

/-! ## Subagents -/

/-- What a subagent has open. -/
def ownsOpen (state : EventVerifier) (id : String) (bracket : Bracket) : Bool :=
  (state.opened bracket).keys.any fun entity => (state.ownersOf bracket).get? entity == some (some id)

/-- What a failed subagent had open is open no longer. -/
def dropOpen (state : EventVerifier) (id : String) (bracket : Bracket) : EventVerifier :=
  state.withOpened bracket ((state.opened bracket).filterKeys fun entity =>
    !((state.ownersOf bracket).get? entity == some (some id)))

def dropSteps (state : EventVerifier) (id : String) : EventVerifier :=
  { state with activeSteps := state.activeSteps.filterKeys fun step => !(step.1 == some id) }

def hasActiveEntities (state : EventVerifier) (id : String) : Bool :=
  state.ownsOpen id .textMessage || state.ownsOpen id .toolCall || state.ownsOpen id .reasoningMessage ||
    state.ownsOpen id .reasoningSpan || (state.activeSteps.keys.any fun step => step.1 == some id) ||
    state.subagents.entries.any fun entry =>
      entry.2.parentSubagentRunId.toOption == some id && !state.closedSubagents.has entry.1

/-- A subagent that finishes leaves nothing open; one that fails may. -/
def closeSubagent (state : EventVerifier) (id : String) (failed : Bool) : Except AGUIError EventVerifier :=
  if state.subagents.has id = false ∨ state.closedSubagents.has id = true then
    .error (.thrown ("Subagent '" ++ id ++ "' is not active"))
  else if failed = false ∧ state.hasActiveEntities id = true then
    .error (.thrown ("Subagent '" ++ id ++ "' has active entities"))
  else
    let state := if failed then
        ((((state.dropOpen id .textMessage).dropOpen id .toolCall).dropOpen id .reasoningMessage).dropOpen id
          .reasoningSpan).dropSteps id
      else state
    .ok { state with closedSubagents := state.closedSubagents.add id }

def subagentStarted (state : EventVerifier) (event : SubagentStartedEvent) : Except AGUIError EventVerifier :=
  match event.subagentRunId.toOption, event.name with
  | none, _ => .error (.undecodable .subagentStarted "subagentRunId")
  | _, none => .error (.undecodable .subagentStarted "name")
  | some id, some _ =>
    let parent := event.parentSubagentRunId.toOption
    if state.attributedOwners.has id then
      .error (.thrown "Subagent must be announced before its attributed events")
    else if state.subagents.has id then .error (.thrown ("Subagent '" ++ id ++ "' was already announced"))
    else if parent = some id then .error (.thrown "A subagent cannot parent itself")
    else if parent.any fun it => !state.subagents.has it || state.closedSubagents.has it then
      .error (.thrown ("Parent subagent '" ++ parent.getD "" ++ "' is closed"))
    else if (event.parentMessageId.toOption.bind state.messageOwners.get?).any (· ≠ parent) then
      .error (.thrown "Subagent parent message owner disagrees")
    else if (event.parentToolCallId.toOption.bind state.toolOwners.get?).any (· ≠ parent) then
      .error (.thrown "Subagent parent tool owner disagrees")
    else .ok { state with subagents := state.subagents.set id event }

/-! ## Entities -/

/-- A continuation or a close: it must name something open. -/
def requireOpen (state : EventVerifier) (bracket : Bracket) (id message : String) : Except AGUIError Unit :=
  if (state.opened bracket).has id then .ok () else .error (.thrown message)

def close (state : EventVerifier) (bracket : Bracket) (id : String) : EventVerifier :=
  state.withOpened bracket ((state.opened bracket).erase id)

def open_ (state : EventVerifier) (bracket : Bracket) (id : String) : EventVerifier :=
  state.withOpened bracket ((state.opened bracket).add id)

/-- The first opener records the owner. -/
def claim (state : EventVerifier) (bracket : Bracket) (id : String) (owner : Owner) : EventVerifier :=
  if (state.ownersOf bracket).has id then state
  else state.withOwners bracket ((state.ownersOf bracket).set id owner)

def textMessageStart (state : EventVerifier) (event : TextMessageStartEvent) : Except AGUIError EventVerifier := do
  let messageId := event.messageId
  let role := event.role.getD .assistant
  if state.activeMessages.has messageId then
    .error (.thrown ("Cannot send 'TEXT_MESSAGE_START' event: A text message with ID '" ++ messageId ++
      "' is already in progress. Complete it with 'TEXT_MESSAGE_END' first."))
  else if (state.messageRoles.get? messageId).any (· ≠ role) then
    .error (.thrown ("Cannot reopen text message '" ++ messageId ++ "' with a different role"))
  else
    checkOwner state.messageOwners messageId event.subagentRunId.toOption
    let state := state.claim .textMessage messageId event.subagentRunId.toOption
    pure ({ state with messageRoles := state.messageRoles.set messageId role }.open_ .textMessage messageId)

def toolCallStart (state : EventVerifier) (event : ToolCallStartEvent) : Except AGUIError EventVerifier := do
  let toolCallId := event.toolCallId
  let tag := event.subagentRunId.toOption
  let parentOwner := event.parentMessageId.bind state.messageOwners.get?
  if state.activeToolCalls.has toolCallId then
    .error (.thrown ("Cannot send 'TOOL_CALL_START' event: A tool call with ID '" ++ toolCallId ++
      "' is already in progress. Complete it with 'TOOL_CALL_END' first."))
  else if tag.isSome && parentOwner.any (· ≠ tag) then
    .error (.thrown "Tool call owner must agree with its parent message")
  else
    checkOwner state.toolOwners toolCallId tag
    let owner := tag.or (parentOwner.getD (state.toolOwners.get? toolCallId).join)
    if (state.toolOwners.get? toolCallId).any (· ≠ owner) then
      .error (.thrown "Reopened tool call disagrees with its parent message owner")
    else
      pure ({ state with
        toolOwners := state.toolOwners.set toolCallId owner
        pendingTools := state.pendingTools.add toolCallId }.open_ .toolCall toolCallId)

/-- The openers of reasoning spans and messages. -/
def reasoningOpen (bracket : Bracket) (entity : String) (state : EventVerifier) (tag : Option String)
    (messageId : String) : Except AGUIError EventVerifier := do
  checkOwner (state.ownersOf bracket) messageId tag
  let state := state.claim bracket messageId tag
  if (state.opened bracket).has messageId then
    .error (.thrown ("Reasoning " ++ entity ++ " '" ++ messageId ++ "' is already active"))
  else pure (state.open_ bracket messageId)

/-- The closers of reasoning spans and messages. -/
def reasoningClose (bracket : Bracket) (entity : String) (state : EventVerifier) (messageId : String) :
    Except AGUIError EventVerifier := do
  state.requireOpen bracket messageId ("Reasoning " ++ entity ++ " '" ++ messageId ++ "' was not started")
  pure (state.close bracket messageId)

/-! ## Runs -/

/-- The state of a run that has ended is forgotten. -/
def resetRun (state : EventVerifier) : EventVerifier :=
  { firstEventReceived := state.firstEventReceived
    runStarted := state.runStarted
    currentThreadId := state.currentThreadId
    currentRunId := state.currentRunId }

def gate (state : EventVerifier) (event : Event) : Except AGUIError EventVerifier :=
  if state.runError = true ∧ event.type ≠ .runStarted then
    .error (.thrown ("Cannot send event type '" ++ event.type.name ++
      "': The run has already errored with 'RUN_ERROR'. No further events can be sent."))
  else if state.runFinished = true ∧ event.type ≠ .runError ∧ event.type ≠ .runStarted then
    .error (.thrown ("Cannot send event type '" ++ event.type.name ++
      "': The run has already finished with 'RUN_FINISHED'. Start a new run with 'RUN_STARTED'."))
  else if state.firstEventReceived = false then
    if event.type ≠ .runStarted ∧ event.type ≠ .runError then
      .error (.thrown "First event must be 'RUN_STARTED'")
    else .ok { state with firstEventReceived := true }
  else if event.type = .runStarted then
    if state.runStarted = true ∧ state.runFinished = false ∧ state.runError = false then
      .error (.thrown ("Cannot send 'RUN_STARTED' while a run is still active. " ++
        "The previous run must be finished with 'RUN_FINISHED' before starting a new run."))
    else
      let state := if state.runFinished = true ∨ state.runError = true then state.resetRun else state
      .ok { state with runStarted := true }
  else .ok state

def unfinishedSteps (steps : OrderedSet (Owner × String)) : String :=
  ", ".intercalate (steps.keys.map fun step =>
    match step.1 with
    | some owner => step.2 ++ " (owner=" ++ owner ++ ")"
    | none => step.2)

def interruptIds (event : RunFinishedEvent) : List String :=
  match event.outcome with
  | some (.interrupt interrupts) => interrupts.map Interrupt.id
  | _ => []

def pendingToolCallIds (event : RunFinishedEvent) : List String :=
  match event.outcome with
  | some (.success ids) => ids.getD []
  | _ => []

/-- The end names the run, and the calls it leaves pending are known. -/
def runFinishedCase (state : EventVerifier) (event : RunFinishedEvent) : Except AGUIError EventVerifier :=
  let pending := pendingToolCallIds event
  if state.subagents.keys.any fun id => !state.closedSubagents.has id then .error (.thrown "Run has active subagents")
  else if ¬ pending.Nodup ∨ (pending.any fun id => !state.pendingTools.has id) = true then
    .error (.thrown "Pending tool declaration must name unique unanswered calls")
  else if some event.threadId ≠ state.currentThreadId ∨ some event.runId ≠ state.currentRunId then
    .error (.thrown "RUN_FINISHED identifiers must match RUN_STARTED")
  else if state.activeSteps.size ≠ 0 then
    .error (.thrown ("Cannot send 'RUN_FINISHED' while steps are still active: " ++ unfinishedSteps state.activeSteps))
  else if state.activeMessages.size ≠ 0 then
    .error (.thrown ("Cannot send 'RUN_FINISHED' while text messages are still active: " ++
      ", ".intercalate state.activeMessages.keys))
  else if state.activeToolCalls.size ≠ 0 then
    .error (.thrown ("Cannot send 'RUN_FINISHED' while tool calls are still active: " ++
      ", ".intercalate state.activeToolCalls.keys))
  else if state.activeReasoningSpans.size ≠ 0 ∨ state.activeReasoningMessages.size ≠ 0 then
    .error (.thrown "Cannot send RUN_FINISHED while reasoning is still active")
  else if ¬ (interruptIds event).Nodup then .error (.thrown "Interrupt identifiers must be unique")
  else .ok { state with runFinished := true }

/-! ## The switch -/

/-- The owner checks made before the switch. -/
def checkContinuation (state : EventVerifier) (event : Event) : Except AGUIError Unit :=
  match event with
  | .textMessageContent e => checkOwner state.messageOwners e.messageId e.subagentRunId.toOption
  | .textMessageEnd e => checkOwner state.messageOwners e.messageId e.subagentRunId.toOption
  | .toolCallArgs e => checkOwner state.toolOwners e.toolCallId e.subagentRunId.toOption
  | .toolCallEnd e => checkOwner state.toolOwners e.toolCallId e.subagentRunId.toOption
  | .toolCallResult e => checkOwner state.toolOwners e.toolCallId e.subagentRunId.toOption
  | .reasoningMessageContent e => checkOwner state.reasoningOwners e.messageId e.subagentRunId.toOption
  | .reasoningMessageEnd e => checkOwner state.reasoningOwners e.messageId e.subagentRunId.toOption
  | .reasoningEnd e => checkOwner state.spanOwners e.messageId e.subagentRunId.toOption
  | _ => .ok ()

def verifyCase (state : EventVerifier) (event : Event) : Except AGUIError EventVerifier :=
  match event with
  | .textMessageStart e => textMessageStart state e
  | .textMessageContent e => do
      state.requireOpen .textMessage e.messageId
        ("Cannot send 'TEXT_MESSAGE_CONTENT' event: No active text message found with ID '" ++ e.messageId ++
          "'. Start a text message with 'TEXT_MESSAGE_START' first.")
      pure state
  | .textMessageEnd e => do
      state.requireOpen .textMessage e.messageId
        ("Cannot send 'TEXT_MESSAGE_END' event: No active text message found with ID '" ++ e.messageId ++
          "'. A 'TEXT_MESSAGE_START' event must be sent first.")
      pure (state.close .textMessage e.messageId)
  | .toolCallStart e => toolCallStart state e
  | .toolCallArgs e => do
      state.requireOpen .toolCall e.toolCallId
        ("Cannot send 'TOOL_CALL_ARGS' event: No active tool call found with ID '" ++ e.toolCallId ++
          "'. Start a tool call with 'TOOL_CALL_START' first.")
      pure state
  | .toolCallEnd e => do
      state.requireOpen .toolCall e.toolCallId
        ("Cannot send 'TOOL_CALL_END' event: No active tool call found with ID '" ++ e.toolCallId ++
          "'. A 'TOOL_CALL_START' event must be sent first.")
      pure (state.close .toolCall e.toolCallId)
  | .stepStarted e =>
    if state.activeSteps.has (e.subagentRunId.toOption, e.stepName) then
      .error (.thrown ("Step \"" ++ e.stepName ++ "\" is already active for 'STEP_STARTED'"))
    else .ok { state with activeSteps := state.activeSteps.add (e.subagentRunId.toOption, e.stepName) }
  | .stepFinished e =>
    if state.activeSteps.has (e.subagentRunId.toOption, e.stepName) then
      .ok { state with activeSteps := state.activeSteps.erase (e.subagentRunId.toOption, e.stepName) }
    else
      .error (.thrown ("Cannot send 'STEP_FINISHED' for step \"" ++ e.stepName ++ "\" that was not started"))
  | .toolCallResult e => .ok { state with pendingTools := state.pendingTools.erase e.toolCallId }
  | .subagentStarted e => subagentStarted state e
  | .subagentFinished e =>
    match e.subagentRunId.toOption with
    | none => .error (.undecodable .subagentFinished "subagentRunId")
    | some id => closeSubagent state id false
  | .subagentError e =>
    match e.subagentRunId.toOption, e.message with
    | none, _ => .error (.undecodable .subagentError "subagentRunId")
    | _, none => .error (.undecodable .subagentError "message")
    | some id, some _ => closeSubagent state id true
  | .runFinished e => runFinishedCase state e
  | .runStarted e => .ok { state with
      runStarted := true
      currentThreadId := some e.threadId
      currentRunId := some e.runId }
  | .runError _ => .ok { state with runError := true }
  | .reasoningStart e => reasoningOpen .reasoningSpan "span" state e.subagentRunId.toOption e.messageId
  | .reasoningEnd e => reasoningClose .reasoningSpan "span" state e.messageId
  | .reasoningMessageStart e => reasoningOpen .reasoningMessage "message" state e.subagentRunId.toOption e.messageId
  | .reasoningMessageContent e => do
      state.requireOpen .reasoningMessage e.messageId ("Reasoning message '" ++ e.messageId ++ "' was not started")
      pure state
  | .reasoningMessageEnd e => reasoningClose .reasoningMessage "message" state e.messageId
  | _ => .ok state

/-- Who has been named by an event that is not a lifecycle event. -/
def noteAttribution (state : EventVerifier) (event : Event) : EventVerifier :=
  if event.isSubagentLifecycle then state
  else
    match event.subagentRunId.toOption with
    | some owner => { state with attributedOwners := state.attributedOwners.add owner }
    | none => state

end EventVerifier

/-- The verifier as a stage: every event is passed on. -/
def verifyEvents : Stage EventVerifier Event Event AGUIError := fun state event => do
  let state ← state.gate event
  state.checkContinuation event
  let state ← state.verifyCase event
  pure (state.noteAttribution event, [event])

/-- The verdict on a whole stream, which must end with a terminal. -/
def accepted (events : List Event) : Bool :=
  match (verifyEvents.run {} events).2 with
  | .ok state => state.runFinished || state.runError
  | .error _ => false

end Kotlin
end AgUi
