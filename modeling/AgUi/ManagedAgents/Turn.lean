import AgUi.ManagedAgents.Text
import AgUi.Protocol.Event

namespace AgUi
namespace ManagedAgents

open Library Protocol

/-!
# One turn of a managed session

`runTurn` opens the event stream of a session, posts what the run has to say
and translates the session's events until the session goes idle.  What the
language of the integration decides is a `Port`; `Port.typescript` is the one
that is modelled, and the translation is written for any.

Everything a turn waits for is an input: whether the stream opened, whether a
send reached the session, what became of a backend handler, when the run was
aborted.  What a turn does is a `Trace`: the events it emits, the batches that
reached the session and the callbacks it made, in the order they happened,
between the session events it heard.
-/

/-! ## The session API -/

/-- A content block of a custom tool's result, as the session accepts it. -/
inductive ToolResultBlock where
  | text (text : String)
  | base64 (type mediaType data : String)
  | url (type url : String)
deriving DecidableEq

inductive Confirmation where
  | allow
  | deny
deriving DecidableEq

/-- An event posted into a session. -/
inductive UserEvent where
  | message (text : String)
  | systemMessage (text : String)
  | customToolResult (customToolUseId : String) (content : List ToolResultBlock) (isError : Bool)
  | toolConfirmation (toolUseId : String) (result : Confirmation)
  | interrupt
deriving DecidableEq

def UserEvent.isFollowUp : UserEvent -> Bool
  | .message _ => true
  | .systemMessage _ => true
  | _ => false

inductive StopReason where
  | endTurn
  | retriesExhausted
  | requiresAction (eventIds : List String)
  | other (type : String)
deriving DecidableEq

/-- What an `event_delta` carries. -/
inductive Delta where
  | text (text : String)
  | other
deriving DecidableEq

/-- An event of the session's stream. -/
inductive SessionEvent where
  | startMessage (id : String)
  | startThinking (id : String)
  | startOther (id : String)
  | delta (eventId : String) (delta : Delta)
  | thinking (id : String)
  | message (id : String) (content : List TextBlock)
  | customToolUse (id name : String) (input : Option Json)
  | toolUse (id name : String) (input : Option Json) (evaluatedPermission : Option String)
  | mcpToolUse (id mcpServerName name : String) (input : Option Json) (evaluatedPermission : Option String)
  | toolResult (toolUseId : String) (content : List ContentBlock)
  | mcpToolResult (mcpToolUseId : String) (content : List ContentBlock)
  | modelRequestEnd (isError : Option Bool)
  | error (type message retryStatus : String)
  | statusIdle (stopReason : StopReason)
  | statusTerminated
  | deleted
  | other

/-! ## What surrounds a turn -/

/-- How a backend handler's promise settled; `aborted` when it was the run's
signal that rejected it. -/
inductive HandlerReply where
  | returned (text : String)
  | threw (message className : String)
  | aborted
deriving DecidableEq

/-- The outcomes of what handling one session event waits for. -/
structure Replies where
  /-- The SDK accumulates the event; when not, it throws. -/
  accumulates : Bool := true
  handler : HandlerReply := .returned ""
  /-- The tool result or confirmation posted reaches the session. -/
  delivers : Bool := true
  interrupts : Bool := true
  /-- `onClientPark` returns. -/
  parks : Bool := true
deriving DecidableEq

/-- What the language of the integration and its conventions decide. -/
structure Port where
  text : TextPort
  /-- The name of the confirmation setting, as its users spell it. -/
  confirmationSetting : String
  /-- The text a failed handler is answered with, from its message and class. -/
  handlerFailure : String -> String -> String
  /-- The code of a `session.error`'s `RUN_ERROR`. -/
  errorCode : String -> Option String
  /-- The order in which open previews are closed. -/
  previewOrder : List String -> List String
  /-- The order in which open reasoning blocks are closed. -/
  reasoningOrder : List String -> List String

/-- `turn.ts` -/
def Port.typescript : Port where
  text := .typescript
  confirmationSetting := "toolConfirmation"
  handlerFailure message _ := message
  errorCode type := if type = "" then none else some type
  previewOrder ids := ids
  reasoningOrder ids := ids

structure TurnOptions where
  /-- Frontend tools, by normalized name, with their original name. -/
  clientTools : OrderedMap String String := OrderedMap.empty
  /-- The normalized names of the tools executed on this server. -/
  backendTools : OrderedSet String := OrderedMap.empty
  toolConfirmation : Option Confirmation := none
  /-- `JSON.stringify` -/
  stringify : Json -> String

/-- How a turn ends. -/
inductive TurnOutcome where
  | finished
  | parked (clientToolUseIds : List String)
  | errored (sessionEnded sessionInterrupted : Bool)
deriving DecidableEq

/-- How a turn ends: it returns an outcome, or throws. -/
inductive Exit where
  | returned (outcome : TurnOutcome)
  | threw
deriving DecidableEq

inductive Callback where
  | resultsSent
  | followUpsSent
  | clientPark (toolUseId : String)
deriving DecidableEq

/-- What happens in a turn, in order. -/
inductive Trace where
  | heard (event : SessionEvent)
  | told (event : Event)
  | posted (events : List UserEvent)
  | called (callback : Callback) (returns : Bool)
  /-- The turn returned. -/
  | returned (outcome : TurnOutcome)

/-- The last entry of a turn's trace, unless it threw. -/
def Exit.trace : Exit -> List Trace
  | .returned outcome => [.returned outcome]
  | .threw => []

/-- The log of a turn, and what it has open. -/
structure Turn where
  log : List Trace := []
  /-- The text already emitted of each message that is open. -/
  previews : OrderedMap String String := OrderedMap.empty
  closedMessages : OrderedSet String := OrderedMap.empty
  openReasoning : OrderedSet String := OrderedMap.empty
  ackedToolUses : OrderedSet String := OrderedMap.empty
  clientParks : OrderedSet String := OrderedMap.empty
  askedConfirmations : OrderedSet String := OrderedMap.empty

/-! ## Emitting -/

def textStart (messageId : String) : Event :=
  .textMessageStart { messageId := messageId, role := some .assistant }

def textEnd (messageId : String) : Event :=
  .textMessageEnd { messageId := messageId }

/-- Never an empty content delta: it is a no-op the schema rejects. -/
def textContent (messageId delta : String) : List Event :=
  if delta = "" then [] else [.textMessageContent { messageId := messageId, delta := delta }]

def toolCallEvents (id name arguments : String) : List Event :=
  [.toolCallStart { toolCallId := id, toolCallName := name },
    .toolCallArgs { toolCallId := id, delta := arguments },
    .toolCallEnd { toolCallId := id }]

def toolResultEvent (toolUseId content : String) : Event :=
  .toolCallResult { messageId := "result_" ++ toolUseId, toolCallId := toolUseId, content := .text content }

/-- The id a corrected message is emitted under. -/
def correctedId (messageId : String) : String :=
  "corrected_" ++ messageId

namespace Turn

def record (turn : Turn) (entries : List Trace) : Turn :=
  { turn with log := turn.log ++ entries }

def emit (turn : Turn) (events : List Event) : Turn :=
  turn.record (events.map .told)

def post (turn : Turn) (events : List UserEvent) : Turn :=
  turn.record [.posted events]

def openMessage (turn : Turn) (messageId : String) : Turn :=
  { turn.emit [textStart messageId] with previews := turn.previews.set messageId "" }

def closeMessage (turn : Turn) (messageId : String) : Turn :=
  { turn.emit [textEnd messageId] with
    previews := turn.previews.erase messageId
    closedMessages := turn.closedMessages.add messageId }

def openThinking (turn : Turn) (messageId : String) : Turn :=
  { turn.emit [.reasoningStart { messageId := messageId }, .reasoningMessageStart { messageId := messageId }] with
    openReasoning := turn.openReasoning.add messageId }

def closeReasoning (turn : Turn) (messageId : String) : Turn :=
  { turn.emit [.reasoningMessageEnd { messageId := messageId }, .reasoningEnd { messageId := messageId }] with
    openReasoning := turn.openReasoning.erase messageId }

def ack (turn : Turn) (toolUseIds : List String) : Turn :=
  { turn with ackedToolUses := toolUseIds.foldl OrderedSet.add turn.ackedToolUses }

/-- Stop the session best-effort.  Whether the interrupt landed is the reply's to say. -/
def interrupt (turn : Turn) (replies : Replies) : Turn :=
  if replies.interrupts then turn.post [.interrupt] else turn

variable (port : Port)

/-- Whatever is open is closed: the messages, then the thoughts. -/
def closeAll (turn : Turn) : Turn :=
  let turn := (port.previewOrder turn.previews.keys).foldl closeMessage turn
  (port.reasoningOrder turn.openReasoning.keys).foldl closeReasoning turn

/-- End the turn with a `RUN_ERROR`. -/
def fail (turn : Turn) (message : String) (code : Option String) (sessionInterrupted : Bool) :
    Turn × Option Exit :=
  ((turn.closeAll port).emit [.runError { message := message, code := code }],
    some (.returned (.errored false sessionInterrupted)))

/-- `fail`, with the interrupt it awaits first. -/
def interruptAndFail (turn : Turn) (message code : String) (replies : Replies) : Turn × Option Exit :=
  (turn.interrupt replies).fail port message (some code) replies.interrupts

/-! ## Tools -/

def interruptedToolText : String := "Tool execution was interrupted."

/-- Deliver a custom tool's result, and tell the UI once it landed. -/
def answerCustomToolUse (turn : Turn) (toolUseId text : String) (isError : Bool) (replies : Replies) :
    Turn × Option Exit :=
  if replies.delivers then
    (((turn.post [.customToolResult toolUseId [.text text] isError]).ack [toolUseId]).emit
      [toolResultEvent toolUseId text], none)
  else
    turn.interruptAndFail port ("The result of tool call " ++ toolUseId ++ " could not be delivered to the session.")
      "tool_result_delivery_failed" replies

def runBackendTool (turn : Turn) (id : String) (replies : Replies) : Turn × Option Exit :=
  match replies.handler with
  | .returned text => turn.answerCustomToolUse port id text false replies
  | .threw message className => turn.answerCustomToolUse port id (port.handlerFailure message className) true replies
  | .aborted =>
    if replies.delivers then
      ((turn.post [.customToolResult id [.text interruptedToolText] true]).ack [id], some .threw)
    else (turn, some .threw)

variable (options : TurnOptions)

/-- The arguments of a call: a missing input reads as an empty object. -/
def arguments (input : Option Json) : String :=
  options.stringify ((input.filter fun value => !value.isNull).getD (.object []))

def emitToolCall (turn : Turn) (id name : String) (input : Option Json) : Turn :=
  turn.emit (toolCallEvents id name (arguments options input))

/-- The frontend executes this tool; the call is left unanswered. -/
def park (turn : Turn) (id : String) (replies : Replies) : Turn × Option Exit :=
  ({ turn with clientParks := turn.clientParks.add id }.record [.called (.clientPark id) replies.parks],
    if replies.parks then none else some .threw)

/-- A frontend tool parks the turn, a backend tool is run, and any other tool is an error to the session. -/
def customToolUse (turn : Turn) (id name : String) (input : Option Json) (replies : Replies) :
    Turn × Option Exit :=
  let turn := turn.emitToolCall options id ((options.clientTools.get? name).getD name) input
  if options.clientTools.has name then turn.park id replies
  else if options.backendTools.has name then turn.runBackendTool port id replies
  else turn.answerCustomToolUse port id ("No handler is registered for tool \"" ++ name ++ "\".") true replies

def askedBy (turn : Turn) (id : String) (evaluatedPermission : Option String) : Turn :=
  if evaluatedPermission = some "ask" then { turn with askedConfirmations := turn.askedConfirmations.add id }
  else turn

/-! ## Messages -/

/-- Fold the buffered final message into what the preview emitted. -/
def reconcileMessage (turn : Turn) (messageId finalText : String) : Turn :=
  match turn.previews.get? messageId with
  | none => (turn.emit (textStart messageId :: textContent messageId finalText)).closeMessage messageId
  | some emitted =>
    if emitted.toList.isPrefixOf finalText.toList then
      (turn.emit (textContent messageId (String.ofList (finalText.toList.drop emitted.toList.length)))).closeMessage
        messageId
    else
      (turn.closeMessage messageId).emit
        (if finalText = "" then []
        else textStart (correctedId messageId) :: textContent (correctedId messageId) finalText ++
          [textEnd (correctedId messageId)])

/-- A delta of an open preview; one that the SDK cannot accumulate is dropped. -/
def eventDelta (turn : Turn) (eventId : String) (delta : Delta) (replies : Replies) : Turn :=
  match turn.previews.get? eventId, delta with
  | some emitted, .text text =>
    if replies.accumulates then
      { turn.emit (textContent eventId text) with previews := turn.previews.set eventId (emitted ++ text) }
    else turn
  | _, _ => turn

def eventStart (turn : Turn) (messageId : String) (replies : Replies) : Turn × Option Exit :=
  (turn.openMessage messageId, if replies.accumulates then none else some .threw)

def endThinking (turn : Turn) (id : String) : Turn :=
  if turn.openReasoning.has id then turn.closeReasoning id
  else turn.emit [.reasoningStart { messageId := id }, .reasoningEnd { messageId := id }]

/-! ## Idle sessions -/

/-- What is left of an idle session's demands when no confirmation is: calls
of the frontend, or something nothing here can answer. -/
def handOver (turn : Turn) (blockedOn : List String) (replies : Replies) : Turn × Option Exit :=
  let clientToolUseIds := blockedOn.filter turn.clientParks.has
  let unknown := blockedOn.filter fun id => !turn.askedConfirmations.has id && !turn.clientParks.has id
  if unknown ≠ [] then
    turn.interruptAndFail port "The agent is waiting on an action this integration cannot answer."
      "unsupported_action" replies
  else if clientToolUseIds ≠ [] then (turn.closeAll port, some (.returned (.parked clientToolUseIds)))
  else (turn, none)

def confirmationRequired : String :=
  "A tool requires confirmation but no confirmation policy is configured. Set " ++
    String.singleton (Char.ofNat 96) ++ port.confirmationSetting ++ String.singleton (Char.ofNat 96) ++
    " to \"allow\" or \"deny\", or use a permission policy that does not ask."

def requiresAction (turn : Turn) (eventIds : List String) (replies : Replies) : Turn × Option Exit :=
  let blockedOn := eventIds.filter fun id => !turn.ackedToolUses.has id
  -- Everything is already answered: wait for the session to resume.
  if blockedOn = [] then (turn, none)
  else
    let confirmations := blockedOn.filter turn.askedConfirmations.has
    if confirmations = [] then turn.handOver port blockedOn replies
    else
      match options.toolConfirmation with
      | none =>
        turn.interruptAndFail port (confirmationRequired port) "tool_confirmation_required" replies
      | some result =>
        if replies.delivers then
          let turn := (turn.post (confirmations.map fun id => .toolConfirmation id result)).ack confirmations
          if confirmations.length = blockedOn.length then (turn, none) else turn.handOver port blockedOn replies
        else
          turn.interruptAndFail port "The tool confirmation could not be delivered to the session."
            "tool_confirmation_delivery_failed" replies

def statusIdle (turn : Turn) (stopReason : StopReason) (replies : Replies) : Turn × Option Exit :=
  match stopReason with
  | .endTurn => (turn.closeAll port, some (.returned .finished))
  | .retriesExhausted =>
    turn.fail port "The session gave up after exhausting its retries." (some "retries_exhausted") false
  | .requiresAction eventIds => turn.requiresAction port options eventIds replies
  | .other type =>
    turn.interruptAndFail port
      ("The session went idle for a reason this integration does not handle: " ++ type ++ ".")
      "unknown_stop_reason" replies

def sessionError (turn : Turn) (type message retryStatus : String) : Turn × Option Exit :=
  if retryStatus = "retrying" then (turn, none)
  else
    turn.fail port (if message = "" then "The session reported an error." else message) (port.errorCode type) false

def sessionEnded (turn : Turn) : Turn × Option Exit :=
  ((turn.closeAll port).emit
    [.runError
      { message := "The managed session ended on the server. Send another message to start a fresh one."
        code := some "session_ended" }],
    some (.returned (.errored true false)))

/-! ## The turn -/

/-- The cases of the switch over a session event. -/
def react (turn : Turn) (replies : Replies) : SessionEvent -> Turn × Option Exit
  | .startMessage id => turn.eventStart id replies
  | .startThinking id => (turn.openThinking id, none)
  | .delta eventId delta => (turn.eventDelta eventId delta replies, none)
  | .thinking id => (turn.endThinking id, none)
  | .message id content =>
    (if turn.closedMessages.has id then turn else turn.reconcileMessage id (textOf content), none)
  | .customToolUse id name input => turn.customToolUse port options id name input replies
  | .toolUse id name input evaluatedPermission =>
    ((turn.emitToolCall options id name input).askedBy id evaluatedPermission, none)
  | .mcpToolUse id mcpServerName name input evaluatedPermission =>
    ((turn.emitToolCall options id (mcpServerName ++ ": " ++ name) input).askedBy id evaluatedPermission, none)
  | .toolResult toolUseId content =>
    (turn.emit [toolResultEvent toolUseId (shownToolResult port.text content)], none)
  | .mcpToolResult mcpToolUseId content =>
    (turn.emit [toolResultEvent mcpToolUseId (shownToolResult port.text content)], none)
  | .modelRequestEnd isError => (if isError = some true then turn.closeAll port else turn, none)
  | .error type message retryStatus => turn.sessionError port type message retryStatus
  | .statusIdle stopReason => turn.statusIdle port options stopReason replies
  | .statusTerminated => turn.sessionEnded port
  | .deleted => turn.sessionEnded port
  | .startOther _ => (turn, none)
  | .other => (turn, none)

/-- One pass through the loop over the stream. -/
def handle (turn : Turn) (event : SessionEvent) (replies : Replies) : Turn × Option Exit :=
  (turn.record [.heard event]).react port options replies event

/-- The loop, until the turn ends or the stream does. -/
def consume (turn : Turn) : List (SessionEvent × Replies) -> Turn × Option Exit
  | [] => (turn, none)
  | (event, replies) :: rest =>
    match turn.handle port options event replies with
    | (turn, some exit) => (turn, some exit)
    | (turn, none) => turn.consume rest

end Turn

/-! ## Around the stream -/

/-- One attempt at posting the follow-ups. -/
inductive Attempt where
  | landed
  /-- Rejected because the session is still parked; `slept` when the wait
  before the next attempt was not cut off. -/
  | sentWhileParked (slept : Bool)
  | failed
deriving DecidableEq

/-- `PARKED_RETRY_DELAYS_MS` -/
def parkedRetryDelays : List Nat := [150, 300, 600, 1000, 1500, 2000]

/-- Retry while there are delays left.  The result says whether a send landed. -/
def sendFollowUps (attempt : Nat -> Attempt) : Nat -> List Nat -> Bool
  | number, [] => attempt number = .landed
  | number, _ :: delays =>
    match attempt number with
    | .landed => true
    | .sentWhileParked slept => slept && sendFollowUps attempt (number + 1) delays
    | .failed => false

inductive StreamEnd where
  | ended
  | threw
deriving DecidableEq

/-- Everything one turn waits for. -/
structure TurnScript where
  opens : Bool := true
  resultsLand : Bool := true
  resultsSentReturns : Bool := true
  attempt : Nat -> Attempt := fun _ => .landed
  followUpsSentReturns : Bool := true
  events : List (SessionEvent × Replies) := []
  streamEnd : StreamEnd := .ended
  /-- `signal.aborted` once the stream has ended. -/
  aborted : Bool := false

variable (port : Port) (options : TurnOptions) (script : TurnScript)

/-- The tool results, which resume a parked session.  False when the turn throws. -/
def sendResults (outbound : List UserEvent) : Turn × Bool :=
  let results := outbound.filter fun event => !event.isFollowUp
  if results = [] then ({}, true)
  else if script.resultsLand then
    ((Turn.post {} results).record [.called .resultsSent script.resultsSentReturns], script.resultsSentReturns)
  else ({}, false)

/-- The tool results first, then the messages.  False when the turn throws. -/
def sendOutbound (outbound : List UserEvent) : Turn × Bool :=
  match sendResults script outbound with
  | (turn, false) => (turn, false)
  | (turn, true) =>
    let followUps := outbound.filter UserEvent.isFollowUp
    if followUps = [] then (turn, true)
    else if sendFollowUps script.attempt 0 parkedRetryDelays then
      ((turn.post followUps).record [.called .followUpsSent script.followUpsSentReturns],
        script.followUpsSentReturns)
    else (turn, false)

/-- The loop and what follows it when the stream ends before the turn does. -/
def consumeStream (turn : Turn) : Turn × Exit :=
  match turn.consume port options script.events with
  | (turn, some exit) => (turn, exit)
  | (turn, none) =>
    match script.streamEnd with
    | .threw => (turn, .threw)
    | .ended =>
      let turn := turn.closeAll port
      if script.aborted then (turn, .threw)
      else
        (((turn.fail port "The session event stream ended before the reply completed." (some "stream_ended")
          false)).1, .returned (.errored false false))

/-- Drive one turn of a managed session.  Whatever is open at the end is closed. -/
def runTurn (outbound : List UserEvent) : Turn × Exit :=
  if script.opens then
    match sendOutbound script outbound with
    | (turn, false) => (turn, .threw)
    | (turn, true) =>
      let ended := consumeStream port options script turn
      (ended.1.closeAll port, ended.2)
  else ({}, .threw)

end ManagedAgents
end AgUi
