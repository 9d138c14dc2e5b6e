import AgUi.Library.OrderedMap
import AgUi.Protocol.Values

namespace AgUi
namespace DotnetServer

open Library Protocol

/-!
# Continuing a turn of mixed tool calls

One assistant turn may call tools of the server and tools of the client.  The
client answers its own and posts the history back.  `ProcessContinuation`
then turns what the last such turn left unanswered into approved approval
requests, and declares every client tool again, for the function-invoking
client that runs next.
-/

/-! ## Histories -/

structure FunctionCallContent where
  callId : String
  name : String
  arguments : Option (List (String × Json)) := none

/-- The contents `ProcessContinuation` tells apart.  The result of a function
is kept as the text `ToString` gives for it, absent where it is null. -/
inductive AIContent where
  | functionCall (call : FunctionCallContent)
  | functionResult (callId : String) (result : Option String)
  | toolApprovalRequest (requestId : String) (toolCall : FunctionCallContent)
  | toolApprovalResponse (requestId : String) (approved : Bool) (toolCall : FunctionCallContent)
  | other (content : Json)

inductive ChatRole where
  | system
  | user
  | assistant
  | tool
deriving DecidableEq

structure ChatMessage where
  role : ChatRole
  contents : List AIContent
  authorName : Option String := none
  messageId : Option String := none
  additionalProperties : Option (List (String × Json)) := none

/-- What the loops over the messages and over their contents visit, in order. -/
def historyContents (messages : List ChatMessage) : List AIContent :=
  messages.flatMap ChatMessage.contents

/-! ## Tools -/

structure AGUITool where
  name : String
  description : String
  parameters : Option Json := none

/-- Functions with a body: some body of their own, the closure that returns a
fixed text, or another function that may only run once approved. -/
inductive AIFunction where
  | implemented (name description : String)
  | proxy (name description result : String)
  | approvalRequired (inner : AIFunction)

namespace AIFunction

def name : AIFunction -> String
  | implemented name _ => name
  | proxy name _ _ => name
  | approvalRequired inner => inner.name

def description : AIFunction -> String
  | implemented _ description => description
  | proxy _ description _ => description
  | approvalRequired inner => inner.description

/-- The text a proxy returns. -/
def proxyResult : AIFunction -> Option String
  | implemented _ _ => none
  | proxy _ _ result => some result
  | approvalRequired inner => inner.proxyResult

end AIFunction

/-- A tool of the agent: a function, or what the client has declared. -/
inductive AITool where
  | function (aiFunction : AIFunction)
  | declaration (name description : String) (jsonSchema : Json)

namespace AITool

def name : AITool -> String
  | function aiFunction => aiFunction.name
  | declaration name _ _ => name

/-- `(tool as AIFunction)?.Description ?? string.Empty` -/
def functionDescription : AITool -> String
  | function aiFunction => aiFunction.description
  | declaration _ _ _ => ""

/-- A function is wrapped; what is only declared is added as it is. -/
def requireApproval : AITool -> AITool
  | function aiFunction => function (.approvalRequired aiFunction)
  | declaration name description jsonSchema => declaration name description jsonSchema

end AITool

/-- The tools of the client, as declarations. -/
def asAITools (tools : List AGUITool) : List AITool :=
  tools.map fun tool => .declaration tool.name tool.description (tool.parameters.getD (.object []))

/-! ## Collecting the results of client tools -/

/-- What the history says of the client's calls. -/
structure Collected where
  clientCallResults : OrderedMap String String := .empty
  callIdToName : OrderedMap String String := .empty
  resolvedCallIds : OrderedSet String := .empty

def Collected.visit (clientToolNames : List String) (collected : Collected) : AIContent -> Collected
  | .functionCall call =>
    if clientToolNames.contains call.name then
      { collected with callIdToName := collected.callIdToName.set call.callId call.name }
    else collected
  | .functionResult callId result =>
    { collected with
      resolvedCallIds := collected.resolvedCallIds.add callId
      clientCallResults :=
        if collected.callIdToName.has callId then collected.clientCallResults.set callId (result.getD "")
        else collected.clientCallResults }
  | _ => collected

def collect (clientToolNames : List String) (contents : List AIContent) : Collected :=
  contents.foldl (Collected.visit clientToolNames) {}

/-- Whether a result follows a call of a client tool with its id. -/
def hasClientToolResults (clientToolNames : List String) : OrderedSet String -> List AIContent -> Bool
  | _, [] => false
  | clientCallIds, .functionCall call :: rest =>
    if clientToolNames.contains call.name then
      hasClientToolResults clientToolNames (clientCallIds.add call.callId) rest
    else hasClientToolResults clientToolNames clientCallIds rest
  | clientCallIds, .functionResult callId _ :: rest =>
    if clientCallIds.has callId then true else hasClientToolResults clientToolNames clientCallIds rest
  | clientCallIds, _ :: rest => hasClientToolResults clientToolNames clientCallIds rest

/-! ## Approving what is unanswered -/

/-- A call that no result answers. -/
def unresolved (resolvedCallIds : OrderedSet String) : AIContent -> Bool
  | .functionCall call => !resolvedCallIds.has call.callId
  | _ => false

/-- The new contents of a message, and the responses that approve its requests. -/
def approveUnresolved (resolvedCallIds : OrderedSet String) : List AIContent -> List AIContent × List AIContent
  | [] => ([], [])
  | .functionCall call :: rest =>
    if resolvedCallIds.has call.callId then
      (.functionCall call :: (approveUnresolved resolvedCallIds rest).1, (approveUnresolved resolvedCallIds rest).2)
    else
      (.toolApprovalRequest ("approval_" ++ call.callId) call :: (approveUnresolved resolvedCallIds rest).1,
        .toolApprovalResponse ("approval_" ++ call.callId) true call :: (approveUnresolved resolvedCallIds rest).2)
  | content :: rest =>
    (content :: (approveUnresolved resolvedCallIds rest).1, (approveUnresolved resolvedCallIds rest).2)

/-- The loop from the newest message to the oldest; it stops at the first
assistant message with an unresolved call. -/
def approveLast (resolvedCallIds : OrderedSet String) : List ChatMessage -> List ChatMessage × List AIContent
  | [] => ([], [])
  | message :: earlier =>
    if message.role = .assistant ∧ message.contents.any (unresolved resolvedCallIds) = true then
      ({ role := message.role, contents := (approveUnresolved resolvedCallIds message.contents).1 } :: earlier,
        (approveUnresolved resolvedCallIds message.contents).2)
    else (message :: (approveLast resolvedCallIds earlier).1, (approveLast resolvedCallIds earlier).2)

/-! ## Declaring the client tools -/

/-- The first collected result whose call has the name of the tool. -/
def cachedResult (collected : Collected) (toolName : String) : Option String :=
  (collected.clientCallResults.entries.find? fun entry =>
    collected.callIdToName.get? entry.1 == some toolName).map Prod.snd

/-- A tool whose result is at hand answers with it; either way it asks for approval. -/
def redeclare (collected : Collected) (tool : AITool) : AITool :=
  match cachedResult collected tool.name with
  | some result => .function (.approvalRequired (.proxy tool.name tool.functionDescription result))
  | none => tool.requireApproval

/-- The tools and messages an invocation goes on with. -/
structure Configured where
  isContinuation : Bool
  tools : Option (List AITool)
  messages : List ChatMessage

/-- The latest calls left open are approved, and the client tools are declared anew. -/
def processContinuation (tools : Option (List AITool)) (clientTools : List AITool) (clientToolNames : List String)
    (messages : List ChatMessage) : Configured :=
  let collected := collect clientToolNames (historyContents messages)
  let approved := approveLast collected.resolvedCallIds messages.reverse
  { isContinuation := true
    tools := some (tools.getD [] ++ clientTools.map (redeclare collected))
    messages := approved.1.reverse ++
      if approved.2.isEmpty then [] else [{ role := .user, contents := approved.2 }] }

/-- Where the client has answered calls of its own, the invocation continues an earlier one. -/
def configureForMixedInvocation (tools : Option (List AITool)) (clientTools : Option (List AITool))
    (clientToolNames : List String) (messages : List ChatMessage) : Configured :=
  match clientTools with
  | none | some [] => ⟨false, tools, messages⟩
  | some clientTools =>
    if hasClientToolResults clientToolNames .empty (historyContents messages) then
      processContinuation tools clientTools clientToolNames messages
    else ⟨false, some (tools.getD [] ++ clientTools.map AITool.requireApproval), messages⟩

/-- The names of the client tools of an input. -/
def clientToolNamesOf (tools : Option (List AGUITool)) : List String :=
  (asAITools (tools.getD [])).map AITool.name

/-- The end of `ToChatRequestContext`: the options are new and declare no tool
yet, the messages are the converted ones with the resume entries added. -/
def toChatRequestContext (tools : Option (List AGUITool)) (messages : List ChatMessage) : Configured :=
  configureForMixedInvocation none (tools.map asAITools) (clientToolNamesOf tools) messages

end DotnetServer
end AgUi
