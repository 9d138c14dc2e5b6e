import AgUi.Library.Machine
import AgUi.Library.Subject
import AgUi.Middleware.RunNextWithState

namespace AgUi
namespace Middleware
namespace A2a

open Library Protocol Chunks

/-!
# The A2A middleware

`A2AMiddlewareAgent` runs an orchestrator, passes its events on, and sends
the calls it makes of `send_message_to_a2a_agent` to other agents.  When a
run finishes with such calls unanswered, its `RUN_FINISHED` is kept back
until every agent has answered, and the orchestrator is run again.

Three things happen in any order: the orchestrator's events arrive, its
stream completes, and the agents answer.  `step` is one of them.  Everything
the output is told is kept, also what it does not pass on because it has
ended: `observe` is what a subscriber sees.

Fetching the agent cards, the list of tools, and the debug output are left
out.  Whether and what an agent answers comes from outside.
-/

def delegatingTool : String := "send_message_to_a2a_agent"

/-- `toolCallName.startsWith("send_message_to_a2a_agent")` -/
def isDelegating (toolCallName : String) : Bool :=
  delegatingTool.toList.isPrefixOf toolCallName.toList

structure A2aWorld where
  threadId : String
  runId : String
  /-- What each run of the orchestrator emits. -/
  downstream : Nat -> List Event
  /-- The arguments of a call in the middleware's own messages, when a run finishes. -/
  heldArguments : Nat -> String -> Option String
  /-- `JSON.parse`, with the text of its error. -/
  parse : String -> Except String Json

/-- The events of a run as `transformChunks` hands them on. -/
def A2aWorld.events (world : A2aWorld) (suppressed : Bool) (round : Nat) : List Event :=
  (runNext suppressed (world.downstream round)).1

/-! ## The arguments of a delegated call -/

/-- `typeof`, as the error message spells it. -/
def typeName : Json -> String
  | .null => "null"
  | .bool _ => "boolean"
  | .number _ => "number"
  | .string _ => "string"
  | .array _ => "array"
  | .object _ => "object"

/-- The agent and the task the arguments name. -/
def readArguments (toolCallId : String) : Json -> Except String (String × String)
  | .object members =>
    match members.lookup "agentName" with
    | some (.string agentName) =>
      if agentName = "" then
        .error s!"Tool arguments for tool call id {toolCallId} are missing a valid \"agentName\""
      else
        match members.lookup "task" with
        | some (.string task) => .ok (agentName, task)
        | _ => .error s!"Tool arguments for tool call id {toolCallId} are missing a valid \"task\""
    | _ => .error s!"Tool arguments for tool call id {toolCallId} are missing a valid \"agentName\""
  | other =>
    .error s!"Tool arguments for tool call id {toolCallId} are not a JSON object: got {typeName other}"

/-- An absent text and an empty one are the same to the code. -/
def nonempty (text : Option String) : Option String :=
  text.filter fun text => text ≠ ""

def resolveArguments (parse : String -> Except String Json) (streamed held : Option String) (toolCallId : String) :
    Except String (String × String) :=
  match nonempty ((nonempty streamed).or held) with
  | none => .error s!"Tool arguments not found for tool call id {toolCallId}"
  | some toolArgs =>
    match parse toolArgs with
    | .error message => .error s!"Failed to parse tool arguments for tool call id {toolCallId}: {message}"
    | .ok parsed => readArguments toolCallId parsed

/-! ## The state -/

/-- The promise of one delegated call. -/
inductive CallPromise where
  /-- The task is with the agent. -/
  | sent (agentName task : String)
  | answered
  | rejected
deriving DecidableEq

namespace CallPromise

def isSent : CallPromise -> Bool
  | sent _ _ => true
  | _ => false

end CallPromise

/-- What a `RUN_FINISHED` with unanswered calls sets up. -/
structure Delegation where
  callProms : OrderedMap String CallPromise
  newToolMessages : List Message := []
  /-- The first rejection, for which `Promise.all` rejects. -/
  rejection : Option String := none
  /-- `Promise.all` has run its handler. -/
  settled : Bool := false

/-- What the observer may be told of as an error. -/
inductive A2aError where
  | chunk (error : ChunkError)
  | run (event : RunErrorEvent)
  | call (message : String)

/-- What one call of `wrapStream` keeps. -/
structure Wrapped where
  /-- What the orchestrator has still to emit. -/
  upcoming : List Event
  /-- The error its stream ends with. -/
  chunkError : Option ChunkError := none
  ended : Bool := false
  streamedArgs : OrderedMap String String := OrderedMap.empty
  delegation : Option Delegation := none

/-- What all calls of `wrapStream` share. -/
structure Shared where
  pendingA2ACalls : OrderedSet String := OrderedMap.empty
  pendingTextMessages : OrderedSet String := OrderedMap.empty
  /-- `input.messages`, which the next run is given. -/
  messages : List Message
  /-- What `addMessage` has added to the middleware and to the orchestrator. -/
  added : List Message := []
  /-- What the observer has been told. -/
  told : List (Signal Event A2aError) := []

structure A2aState extends Shared where
  streams : List Wrapped
  /-- The history each run was given. -/
  histories : List (List Message)

namespace Shared

def tell (shared : Shared) (signals : List (Signal Event A2aError)) : Shared :=
  { shared with told := shared.told ++ signals }

/-- `observer.next(event)` -/
def next (shared : Shared) (event : Event) : Shared :=
  shared.tell [.next event]

def markTextMessageAsPending (shared : Shared) : Event -> Shared
  | .textMessageStart event =>
    { shared with pendingTextMessages := shared.pendingTextMessages.add event.messageId }
  | .textMessageEnd event =>
    { shared with pendingTextMessages := shared.pendingTextMessages.erase event.messageId }
  | _ => shared

def finishTextMessages (shared : Shared) : Shared :=
  { shared.tell (shared.pendingTextMessages.keys.map fun messageId =>
      .next (.textMessageEnd { messageId := messageId })) with pendingTextMessages := OrderedMap.empty }

end Shared

/-- The calls of a run, each sent to its agent or rejected at once. -/
def delegate (parse : String -> Except String Json) (held : String -> Option String)
    (streamedArgs : OrderedMap String String) (pending : List String) :
    List (String × Except String (String × String)) :=
  pending.map fun toolCallId =>
    (toolCallId, resolveArguments parse (streamedArgs.get? toolCallId) (held toolCallId) toolCallId)

def promiseOf : Except String (String × String) -> CallPromise
  | .ok (agentName, task) => .sent agentName task
  | .error _ => .rejected

def rejectionOf : Except String (String × String) -> Option String
  | .ok _ => none
  | .error message => some message

def delegation (resolved : List (String × Except String (String × String))) : Delegation where
  callProms := OrderedMap.ofList (resolved.map fun call => (call.1, promiseOf call.2))
  rejection := resolved.findSome? fun call => rejectionOf call.2

/-! ## The orchestrator's events -/

section Steps

variable (world : A2aWorld)

/-- The subscriber's `next`, in the `round`th call of `wrapStream`. -/
def onNext (round : Nat) (shared : Shared) (wrapped : Wrapped) (event : Event) : Shared × Wrapped :=
  let shared := shared.markTextMessageAsPending event
  match event with
  | .toolCallStart start =>
    if isDelegating start.toolCallName then
      ({ shared with pendingA2ACalls := shared.pendingA2ACalls.add start.toolCallId }.next event,
        { wrapped with streamedArgs := wrapped.streamedArgs.set start.toolCallId "" })
    else (shared.next event, wrapped)
  | .toolCallArgs args =>
    match wrapped.streamedArgs.get? args.toolCallId with
    | some streamed =>
      (shared.next event,
        { wrapped with streamedArgs := wrapped.streamedArgs.set args.toolCallId (streamed ++ args.delta) })
    | none => (shared.next event, wrapped)
  | .toolCallResult result =>
    ({ shared with pendingA2ACalls := shared.pendingA2ACalls.erase result.toolCallId }.next event, wrapped)
  | .runFinished _ =>
    let shared := shared.finishTextMessages
    if shared.pendingA2ACalls.keys = [] then (shared.tell [.next event, .complete], wrapped)
    else
      (shared, { wrapped with
        delegation := some (delegation (delegate world.parse (world.heldArguments round) wrapped.streamedArgs
          shared.pendingA2ACalls.keys)) })
  | .runError error => (shared.tell [.next event, .error (.run error)], wrapped)
  | _ => (shared.next event, wrapped)

/-- The subscriber's `complete`, or its `error`. -/
def onEnd (shared : Shared) (chunkError : Option ChunkError) : Shared :=
  match chunkError with
  | some error => shared.tell [.error (.chunk error)]
  | none => if shared.pendingA2ACalls.keys = [] then shared.tell [.complete] else shared

/-! ## The agents' answers -/

def toolMessage (messageId toolCallId content : String) : Message :=
  { id := messageId, role := .tool, toolCallId := some toolCallId, content := some (.text content) }

def resultEvent (messageId toolCallId content : String) : ToolCallResultEvent :=
  { toolCallId := toolCallId, messageId := messageId, content := .text content }

def onAnswer (shared : Shared) (made : Delegation) (toolCallId messageId content : String) : Shared × Delegation :=
  let newMessage := toolMessage messageId toolCallId content
  ({ shared with
      added := shared.added ++ [newMessage]
      pendingA2ACalls := shared.pendingA2ACalls.erase toolCallId }.next
        (.toolCallResult (resultEvent messageId toolCallId content)),
    { made with
      callProms := made.callProms.set toolCallId .answered
      newToolMessages := made.newToolMessages ++ [newMessage] })

def onReject (shared : Shared) (made : Delegation) (toolCallId error : String) : Shared × Delegation :=
  ({ shared with pendingA2ACalls := shared.pendingA2ACalls.erase toolCallId },
    { made with
      callProms := made.callProms.set toolCallId .rejected
      rejection := made.rejection.or (some error) })

/-- `failRun` -/
def failRun (shared : Shared) (error : String) : Shared :=
  ({ shared with pendingA2ACalls := OrderedMap.empty }.finishTextMessages).tell
    [.next (.runError { message := error }), .error (.call error)]

/-- Every promise is kept: the run is closed and its results are handed on. -/
def settleRun (shared : Shared) (made : Delegation) : Shared :=
  let shared := shared.finishTextMessages.next (.runFinished { threadId := world.threadId, runId := world.runId })
  { shared with messages := shared.messages ++ made.newToolMessages }

/-! ## What may happen -/

inductive Happening where
  /-- The orchestrator emits its next event. -/
  | event
  /-- Its stream ends. -/
  | ending
  | answer (toolCallId messageId content : String)
  | reject (toolCallId error : String)
  /-- `Promise.all` is resolved. -/
  | settle
  /-- `Promise.all` is rejected. -/
  | fail

/-- What happens in one call of `wrapStream`; `starts` if it runs the
orchestrator again. -/
structure Reaction where
  shared : Shared
  wrapped : Wrapped
  starts : Bool := false

def react (round : Nat) (shared : Shared) (wrapped : Wrapped) : Happening -> Option Reaction
  | .event =>
    match wrapped.upcoming with
    | [] => none
    | event :: rest =>
      let heard := onNext world round shared wrapped event
      some { shared := heard.1, wrapped := { heard.2 with upcoming := rest } }
  | .ending =>
    if wrapped.upcoming.isEmpty && !wrapped.ended then
      some { shared := onEnd shared wrapped.chunkError, wrapped := { wrapped with ended := true } }
    else none
  | .answer toolCallId messageId content =>
    match wrapped.delegation with
    | none => none
    | some made =>
      if (made.callProms.get? toolCallId).any CallPromise.isSent then
        let answered := onAnswer shared made toolCallId messageId content
        some { shared := answered.1, wrapped := { wrapped with delegation := some answered.2 } }
      else none
  | .reject toolCallId error =>
    match wrapped.delegation with
    | none => none
    | some made =>
      if (made.callProms.get? toolCallId).any CallPromise.isSent then
        let rejected := onReject shared made toolCallId error
        some { shared := rejected.1, wrapped := { wrapped with delegation := some rejected.2 } }
      else none
  | .settle =>
    match wrapped.delegation with
    | none => none
    | some made =>
      if !made.settled && made.callProms.entries.all fun call => call.2 = .answered then
        some
          { shared := settleRun world shared made
            wrapped := { wrapped with delegation := some { made with settled := true } }
            starts := true }
      else none
  | .fail =>
    match wrapped.delegation with
    | none => none
    | some made =>
      match made.rejection with
      | none => none
      | some error =>
        if made.settled then none
        else
          some
            { shared := failRun shared error
              wrapped := { wrapped with delegation := some { made with settled := true } } }

variable (suppressed : Bool)

/-- `wrapStream` on a run that starts. -/
def wrapStream (round : Nat) : Wrapped where
  upcoming := world.events suppressed round
  chunkError :=
    match (runNext suppressed (world.downstream round)).2 with
    | .ok _ => none
    | .error error => some error

/-- Something happens in one of the runs. -/
def step (state : A2aState) (action : Nat × Happening) : Option A2aState :=
  match state.streams[action.1]? with
  | none => none
  | some wrapped =>
    match react world action.1 state.toShared wrapped action.2 with
    | none => none
    | some reaction =>
      let streams := state.streams.set action.1 reaction.wrapped
      some
        { toShared := reaction.shared
          streams := if reaction.starts then streams ++ [wrapStream world suppressed streams.length] else streams
          histories :=
            if reaction.starts then state.histories ++ [reaction.shared.messages] else state.histories }

/-- `run` -/
def start (history : List Message) : A2aState where
  messages := history
  streams := [wrapStream world suppressed 0]
  histories := [history]

end Steps

end A2a
end Middleware
end AgUi
