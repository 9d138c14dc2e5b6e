import AgUi.ManagedAgents.Turn
import AgUi.Verify.RunIsolation

namespace AgUi
namespace ManagedAgents

open Library Protocol Verify

/-!
# A run of the managed-agents agent

One run of `ManagedAgentsAgent` drives one turn of the session its thread maps
to.  Around the turn the agent decides what to deliver, keeps the thread's
`SessionRecord` and sees to it that at most one terminal event is emitted.

The outcomes of what the agent waits for are a `World`.  The record a run works
on and the record the store holds are two things: a run changes its own, and the
store has what was last written.
-/

/-! ## The input of a run -/

inductive UserPart where
  | text (text : String)
  | other (type : String)

inductive UserContent where
  | text (text : String)
  | parts (parts : List UserPart)

inductive Source where
  | data (mimeType value : String)
  | url (value : String)
  | file (value : String)

/-- A part of a tool message. -/
inductive ToolPart where
  | text (text : String)
  /-- An image or a document. -/
  | media (type : String) (source : Source)
  | other (type : String)

inductive ToolContent where
  | text (text : String)
  | parts (parts : List ToolPart)

/-- A message of the run's input, as far as the agent looks at it. -/
inductive InputMessage where
  | user (id : String) (content : UserContent)
  | tool (id toolCallId : String) (content : ToolContent) (error : Option String)
  | other (id : String)

def InputMessage.id : InputMessage -> String
  | .user id _ => id
  | .tool id _ _ _ => id
  | .other id => id

structure RunInput where
  threadId : String
  runId : String
  state : Option Json := none
  messages : List InputMessage := []
  /-- The names of the frontend tools. -/
  tools : List String := []

def protocolVersion : String := "1.0"

def userText : UserContent -> String
  | .text text => text
  | .parts parts => String.join (parts.map fun | .text text => text | .other _ => "")

/-- The text of a user message that is worth sending. -/
def sentText (content : UserContent) : String :=
  trim (userText content)

def hasUserText (messages : List InputMessage) : Bool :=
  messages.any fun | .user _ content => sentText content ≠ "" | _ => false

def hasSendableContent (messages : List InputMessage) : Bool :=
  hasUserText messages || messages.any fun | .tool .. => true | _ => false

/-- `[content, error].filter(Boolean).join("\n")` -/
def joinedText (content : String) (error : Option String) : String :=
  "\n".intercalate ([content, error.getD ""].filter fun text => text ≠ "")

/-- A part of a tool result that the API has a block for. -/
def partBlock : ToolPart -> Option ToolResultBlock
  | .text text => some (.text text)
  | .media type (.data mimeType value) => some (.base64 type mimeType value)
  | .media type (.url value) => some (.url type value)
  | .media _ (.file _) => none
  | .other _ => none

/-- A tool message's payload as the blocks a tool result may hold; never none of them. -/
def toolResultBlocks (content : ToolContent) (error : Option String) : List ToolResultBlock :=
  match content with
  | .text text => [.text (joinedText text error)]
  | .parts parts =>
    let blocks := parts.filterMap partBlock ++ if error.getD "" = "" then [] else [.text (error.getD "")]
    if blocks = [] then [.text ""] else blocks

/-! ## The record of a thread -/

/-- What is remembered of the session of a thread. -/
structure SessionRecord where
  sessionId : String
  /-- The last user message forwarded into the session. -/
  lastUserMessageId : Option String := none
  /-- Calls handed to the frontend that the session is parked on. -/
  pendingClientToolUseIds : List String := []
deriving DecidableEq

/-- What a run sends, and what stays unanswered after it. -/
structure Outbound where
  events : List UserEvent
  stillParked : List String
  lastUserMessageId : Option String
deriving DecidableEq

def toolResult (toolUseId : String) (content : List ToolResultBlock) (isError : Bool) : UserEvent :=
  .customToolResult toolUseId content isError

def abandonedToolText : String := "The user did not provide a result for this tool call."

/-- The results among the messages, with what then is still pending. -/
def answers : OrderedSet String -> List InputMessage -> List UserEvent × OrderedSet String
  | pending, [] => ([], pending)
  | pending, .tool _ toolCallId content error :: rest =>
    if pending.has toolCallId then
      let later := answers (pending.erase toolCallId) rest
      (toolResult toolCallId (toolResultBlocks content error) (error.getD "" ≠ "") :: later.1, later.2)
    else answers pending rest
  | pending, _ :: rest => answers pending rest

def userMessages (messages : List InputMessage) : List (String × UserContent) :=
  messages.filterMap fun | .user id content => some (id, content) | _ => none

/-- User messages after the last delivered one; on first contact, just the newest. -/
def undelivered (lastUserMessageId : Option String) (messages : List InputMessage) :
    List (String × UserContent) :=
  let userMessages := userMessages messages
  match userMessages.findIdx? fun message => some message.1 = lastUserMessageId with
  | some deliveredIndex => userMessages.drop (deliveredIndex + 1)
  | none => userMessages.drop (userMessages.length - 1)

/-- The messages among them that have text, with the text to send. -/
def followUps (messages : List (String × UserContent)) : List (String × String) :=
  messages.filterMap fun message =>
    if sentText message.2 = "" then none else some (message.1, sentText message.2)

/-- What to post into the session for this run. -/
def outboundEvents (record : SessionRecord) (messages : List InputMessage) : Outbound :=
  let answered := answers (OrderedMap.ofList (record.pendingClientToolUseIds.map fun id => (id, ()))) messages
  let followUps := followUps (undelivered record.lastUserMessageId messages)
  let messageEvents := followUps.map fun message => UserEvent.message message.2
  match followUps.getLast? with
  | some last =>
    -- The user moved on without answering: fail the calls that are left.
    { events :=
        answered.2.keys.map (fun toolUseId => toolResult toolUseId [.text abandonedToolText] true) ++
          answered.1 ++ messageEvents
      stillParked := []
      lastUserMessageId := some last.1 }
  | none =>
    { events := answered.1 ++ messageEvents
      stillParked := answered.2.keys
      lastUserMessageId := none }

/-! ## Tool names -/

def toolNameMaxLength : Nat := 128

def isToolNameChar (char : Char) : Bool :=
  (decide ('A' ≤ char) && decide (char ≤ 'Z')) || (decide ('a' ≤ char) && decide (char ≤ 'z')) || char.isDigit ||
    char = '_' || char = '-'

/-- Tool names of a managed agent allow only `[A-Za-z0-9_-]`, up to 128 of
them.  Every UTF-16 unit of another character is replaced. -/
def normalizeToolName (name : String) : String :=
  let chars := name.toList
  if chars.all isToolNameChar ∧ 0 < chars.length ∧ chars.length ≤ toolNameMaxLength then name
  else
    let replaced := chars.flatMap fun char =>
      if isToolNameChar char then [char] else List.replicate (units char) '_'
    if replaced = [] then "tool" else String.ofList (replaced.take toolNameMaxLength)

/-! ## What surrounds a run -/

structure Agent where
  /-- The normalized names of the configured backend tools. -/
  backendTools : OrderedSet String := OrderedMap.empty
  toolConfirmation : Option Confirmation := none
  /-- `turnTimeoutMs / 1000`, as it prints. -/
  turnTimeoutSeconds : String := "300"
  stringify : Json -> String

/-- The outcomes of what one run waits for. -/
structure World where
  /-- A run is in progress on this thread. -/
  busy : Bool := false
  storeGets : Bool := true
  /-- The id of the session created, if one has to be; `none` when that throws. -/
  creates : Option String := none
  /-- `syncClientTools` returns. -/
  syncs : Bool := true
  /-- The answers to some of the parked calls reach the session. -/
  answersLand : Bool := true
  /-- `store.set` and `store.delete` on the run's own path: when the session
  was created, after the answers, and with the turn's outcome. -/
  storesCreated : Bool := true
  storesAnswers : Bool := true
  storesOutcome : Bool := true
  /-- `store.set` when the parked calls are forgotten. -/
  storesForgotten : Bool := true
  turn : TurnScript := {}
  /-- `signal.aborted` when the run's failure is caught. -/
  aborted : Bool := false
  /-- The interrupt sent then reaches the session. -/
  interrupts : Bool := true
  /-- `disconnect.signal.aborted` and `timeout.aborted` at the very end. -/
  disconnected : Bool := false
  timedOut : Bool := false

/-- Where a run stands. -/
structure Run where
  log : List Trace := []
  terminated : Bool := false
  /-- The run's own copy of the record; none before the session is known. -/
  session : Option SessionRecord := none
  /-- What the store holds for the thread. -/
  stored : Option SessionRecord := none

/-- How `runTurnForInput`, or a part of it, ends. -/
inductive Completion where
  | resolved
  | rejected
deriving DecidableEq

namespace Run

/-- A run emits at most one terminal event. -/
def emit (run : Run) (event : Event) : Run :=
  if endsRun event then
    if run.terminated then run else { run with log := run.log ++ [Trace.told event], terminated := true }
  else { run with log := run.log ++ [Trace.told event] }

def runError (run : Run) (message code : String) : Run :=
  run.emit (.runError { message := message, code := some code })

def runFinished (run : Run) (input : RunInput) : Run :=
  run.emit (.runFinished { threadId := input.threadId, runId := input.runId })

def post (run : Run) (events : List UserEvent) : Run :=
  { run with log := run.log ++ [Trace.posted events] }

/-- `store.set(key, record)` -/
def store (run : Run) (record : SessionRecord) (succeeds : Bool) : Run :=
  { run with session := some record, stored := if succeeds then some record else run.stored }

/-! ### The turn's callbacks -/

/-- What a callback makes of the record; `none` when it leaves it alone. -/
def onCallback (outbound : Outbound) (record : SessionRecord) : Callback -> Option SessionRecord
  | .resultsSent => some { record with pendingClientToolUseIds := [] }
  | .followUpsSent =>
    match outbound.lastUserMessageId with
    | some id => some (if id = "" then record else { record with lastUserMessageId := some id })
    | none => some record
  | .clientPark toolUseId =>
    if record.pendingClientToolUseIds.contains toolUseId then none
    else some { record with pendingClientToolUseIds := record.pendingClientToolUseIds ++ [toolUseId] }

/-- A thing the turn did, as the run sees it. -/
def take (outbound : Outbound) (run : Run) : Trace -> Run
  | .told event => run.emit event
  | .called callback returns =>
    let run := { run with log := run.log ++ [Trace.called callback returns] }
    match run.session.bind fun record => onCallback outbound record callback with
    | some record => run.store record returns
    | none => run
  | entry => { run with log := run.log ++ [entry] }

/-! ### The end of the turn -/

/-- Drop the parked calls: the session was interrupted and will never wait for
them again.  Best-effort. -/
def forgetParkedCalls (run : Run) (record : SessionRecord) (world : World) : Run :=
  if record.pendingClientToolUseIds = [] then run
  else run.store { record with pendingClientToolUseIds := [] } world.storesForgotten

/-- Reconcile the record with how the turn ended. -/
def recordOutcome (run : Run) (record : SessionRecord) (outcome : TurnOutcome) (world : World) : Run × Completion :=
  let written : Completion := if world.storesOutcome then .resolved else .rejected
  match outcome with
  | .errored true _ => ({ run with stored := if world.storesOutcome then none else run.stored }, written)
  | .errored false true => (run.forgetParkedCalls record world, .resolved)
  | .errored false false => (run, .resolved)
  | .parked clientToolUseIds =>
    (run.store { record with pendingClientToolUseIds := clientToolUseIds } world.storesOutcome, written)
  | .finished =>
    if record.pendingClientToolUseIds = [] then (run, .resolved)
    else (run.store { record with pendingClientToolUseIds := [] } world.storesOutcome, written)

end Run

/-! ## The run -/

section

variable (agent : Agent) (world : World) (input : RunInput)

def turnOptions : TurnOptions where
  clientTools := OrderedMap.ofList (input.tools.map fun name => (normalizeToolName name, name))
  backendTools := agent.backendTools
  toolConfirmation := agent.toolConfirmation
  stringify := agent.stringify

/-- The session of the thread.  None, resolved, when there is none and none may
be created; none, rejected, when the run failed. -/
def getOrCreateSession (run : Run) : Run × Completion :=
  if world.storeGets = false then (run, .rejected)
  else
    match run.stored with
    | some existing => ({ run with session := some existing }, .resolved)
    | none =>
      if hasUserText input.messages = false then (run, .resolved)
      else
        match world.creates with
        | none => (run, .rejected)
        | some sessionId =>
          if world.storesCreated then
            ((run.store { sessionId := sessionId } true).emit
              (.custom
                { name := "managed_agents.session"
                  value := .object [("sessionId", .string sessionId), ("threadId", .string input.threadId)] }),
              .resolved)
          else (run, .rejected)

/-- Some parked calls are still unanswered: post what there is and stay parked. -/
def stayParked (run : Run) (record : SessionRecord) (outbound : Outbound) : Run × Completion :=
  if world.answersLand then
    let run := (run.post outbound.events).store
      { record with
        pendingClientToolUseIds := outbound.stillParked
        lastUserMessageId := outbound.lastUserMessageId.or record.lastUserMessageId } world.storesAnswers
    if world.storesAnswers then (run.runFinished input, .resolved) else (run, .rejected)
  else (run, .rejected)

/-- Drive the turn and record how it ended. -/
def driveTurn (run : Run) (outbound : Outbound) : Run × Completion :=
  let turn := runTurn .typescript (turnOptions agent input) world.turn outbound.events
  let run := (turn.1.log ++ turn.2.trace).foldl (Run.take outbound) run
  match turn.2, run.session with
  | .returned outcome, some record =>
    match run.recordOutcome record outcome world with
    | (run, .resolved) =>
      (match outcome with
      | .errored _ _ => run
      | _ => run.runFinished input, .resolved)
    | rejected => rejected
  | _, _ => (run, .rejected)

/-- The part of `runTurnForInput` that holds the thread's gate. -/
def runGated (run : Run) : Run × Completion :=
  match getOrCreateSession world input run with
  | (run, .rejected) => (run, .rejected)
  | (run, .resolved) =>
    match run.session with
    | none =>
      (run.runError "There is nothing to send: a tool result arrived for a thread with no session."
        "tool_result_without_session", .resolved)
    | some record =>
      if world.syncs = false then (run, .rejected)
      else
        let outbound := outboundEvents record input.messages
        if outbound.events = [] then
          (run.runError "There is nothing new to send: no user message or tool result in this run."
            "nothing_to_send", .resolved)
        else if outbound.stillParked ≠ [] then stayParked world input run record outbound
        else driveTurn agent world input run outbound

/-- Interrupt the session a failed run walks away from, while the thread's gate
is still held. -/
def tearDown (run : Run) : Run :=
  match run.session with
  | some record =>
    if world.aborted = true ∧ record.sessionId ≠ "" then
      if world.interrupts then (run.post [.interrupt]).forgetParkedCalls record world else run
    else run
  | none => run

/-- The events every run begins with. -/
def begin (run : Run) : Run :=
  let run := run.emit
    (.runStarted
      { threadId := input.threadId
        runId := input.runId
        extra := OrderedMap.ofList [("protocolVersion", .string protocolVersion)] })
  match input.state with
  | some state => if state.isNull then run else run.emit (.stateSnapshot { snapshot := state })
  | none => run

def runTurnForInput (stored : Option SessionRecord) : Run × Completion :=
  let run := begin input { stored := stored }
  if trim input.threadId = "" then
    (run.runError "This run has no thread id. Every run must carry a non-empty threadId." "invalid_thread_id",
      .resolved)
  else if world.busy then
    (run.runError "A run is already in progress on this thread." "run_in_progress", .resolved)
  else if hasSendableContent input.messages = false then
    (run.runError "There is nothing to send: this run has no user message or tool result." "empty_run", .resolved)
  else
    match runGated agent world input run with
    | (run, .resolved) => (run, .resolved)
    | (run, .rejected) => (tearDown world run, .rejected)

/-- One run: whatever failed in it ends as a `RUN_ERROR`, unless the client went away. -/
def run (stored : Option SessionRecord) : Run :=
  match runTurnForInput agent world input stored with
  | (run, .resolved) => run
  | (run, .rejected) =>
    if world.disconnected then run
    else if world.timedOut then
      run.runError ("The turn exceeded the " ++ agent.turnTimeoutSeconds ++ "s limit and was interrupted.")
        "turn_timeout"
    else run.runError "The run failed." "run_failed"

end

/-- The events of a log, as the subscriber gets them. -/
def emitted (log : List Trace) : List Event :=
  log.filterMap fun | .told event => some event | _ => none

end ManagedAgents
end AgUi
