import AgUi.Library.Keyed
import AgUi.Library.Stage
import AgUi.Protocol.Event

namespace AgUi
namespace Apply

open Library Protocol

/-!
# The default reducer

`defaultApplyEvents` folds a stream of events into the conversation: the list
of messages, the shared state and what a finished run leaves to answer.  The
source finds the message or tool call an event is about by searching the list
from the front, and writes through the reference it found; here that is
`updateFirst`.

No subscriber is attached, so a step reads and writes nothing but its own
state.  Applying a JSON patch is the work of a library, and a parameter.
-/

/-- The messages and the state of the agent, with what the run has started and what waits for an answer. -/
structure ApplyState where
  messages : List Message := []
  state : Json := .null
  /-- The tool calls the run has started, in order of first start. -/
  runToolCallIds : List String := []
  answeredToolCallIds : OrderedSet String := OrderedMap.empty
  pendingInterrupts : List Interrupt := []

/-- What the reducer reports after an event that changed something. -/
structure AgentStateMutation where
  messages : Option (List Message) := none
  state : Option Json := none

/-- A chunk has to be transformed before it is applied. -/
structure ApplyError where
  untransformed : EventType

def ApplyError.message (error : ApplyError) : String :=
  error.untransformed.name ++ " must be transformed before being applied"

/-- `applyPatch(document, patch)`, with `none` where the library throws. -/
abbrev ApplyPatch := Json -> Json -> Option Json

end Apply

/-! ## Parts of a message -/

namespace Protocol

open Library

def Content.ofJson : Json -> Content
  | .string value => .text value
  | .array items => .parts items
  | value => .structured value

def Content.toJson : Content -> Json
  | .text value => .string value
  | .parts items => .array items
  | .structured value => value

def ToolCall.applyEventMetadata (call : ToolCall) (event : BaseEvent) : ToolCall :=
  { call with metadata := mergeMetadata call.metadata event.metadata }

def ToolCall.rename (call : ToolCall) (name : String) : ToolCall :=
  { call with function := { call.function with name := name } }

def ToolCall.append (call : ToolCall) (delta : String) : ToolCall :=
  { call with function := { call.function with arguments := call.function.arguments ++ delta } }

namespace Message

def applyEventMetadata (message : Message) (event : BaseEvent) : Message :=
  { message with metadata := mergeMetadata message.metadata event.metadata }

/-- Content that is not a string is overwritten. -/
def append (message : Message) (delta : String) : Message :=
  { message with content := some (.text (message.text ++ delta)) }

/-- A tag that is null is no tag. -/
def withoutNullTag (message : Message) : Message :=
  { message with subagentRunId := message.subagentRunId.withoutNull }

/-- `message.toolCalls?.some((tc) => tc.id === toolCallId)` -/
def hasCall (message : Message) (toolCallId : String) : Bool :=
  message.calls.any fun call => call.id = toolCallId

def pushCall (message : Message) (call : ToolCall) : Message :=
  { message with toolCalls := some (message.calls ++ [call]) }

/-- Change the first call with an id. -/
def updateCall (message : Message) (toolCallId : String) (change : ToolCall -> ToolCall) : Message :=
  { message with toolCalls := message.toolCalls.map (updateFirst (fun call => call.id = toolCallId) change) }

end Message

end Protocol

namespace Apply

open Library Protocol

/-! ## Searching the list -/

def findMessage (messages : List Message) (id : String) : Option Message :=
  messages.find? fun message => message.id = id

def updateMessage (id : String) (change : Message -> Message) (messages : List Message) : List Message :=
  updateFirst (fun message => message.id = id) change messages

/-- The message that holds a tool call. -/
def findOwner (messages : List Message) (toolCallId : String) : Option Message :=
  messages.find? fun message => message.hasCall toolCallId

def findCall (messages : List Message) (toolCallId : String) : Option ToolCall :=
  (findOwner messages toolCallId).bind fun owner => owner.calls.find? fun call => call.id = toolCallId

/-- The call is changed in the first message that holds it. -/
def updateToolCall (toolCallId : String) (change : ToolCall -> ToolCall) (messages : List Message) :
    List Message :=
  updateFirst (fun message => message.hasCall toolCallId)
    (fun message => message.updateCall toolCallId change) messages

/-! ## Steps -/

/-- The state after an event, and the mutations the agent is told of. -/
abbrev Effect := ApplyState × List AgentStateMutation

namespace ApplyState

/-- Nothing to report. -/
def quiet (state : ApplyState) : Effect :=
  (state, [])

/-- New messages, which the agent is told of. -/
def emit (state : ApplyState) (messages : List Message) : Effect :=
  ({ state with messages := messages }, [{ messages := some messages }])

/-- A new state document, which the agent is told of. -/
def emitState (state : ApplyState) (document : Json) : Effect :=
  ({ state with state := document }, [{ state := some document }])

/-- Write the messages, and report them only if `changed`. -/
def emitIf (changed : Bool) (state : ApplyState) (messages : List Message) : Effect :=
  if changed then state.emit messages else { state with messages := messages }.quiet

/-- Merge an event's metadata into the message it ends. -/
def finishMessage (state : ApplyState) (messageId : String) (event : BaseEvent) : Effect :=
  match findMessage state.messages messageId with
  | none => state.quiet
  | some target =>
    if target.role = .activity then state.quiet
    else state.emitIf event.metadata.isSome
      (updateMessage messageId (fun message => message.applyEventMetadata event) state.messages)

/-- Append a delta to the message an event streams into. -/
def appendMessage (state : ApplyState) (messageId delta : String) (event : BaseEvent) : Effect :=
  match findMessage state.messages messageId with
  | none => state.quiet
  | some target =>
    if target.role = .activity then state.quiet
    else state.emit
      (updateMessage messageId (fun message => (message.append delta).applyEventMetadata event)
        state.messages)

/-- Begin a streamed message unless one with its id is there already. -/
def startMessage (state : ApplyState) (fresh : Message) (event : BaseEvent) : Effect :=
  match findMessage state.messages fresh.id with
  | none => state.emit (state.messages ++ [fresh.applyEventMetadata event])
  | some target =>
    if target.role = .activity then state.quiet
    else state.emitIf event.metadata.isSome
      (updateMessage fresh.id (fun message => message.applyEventMetadata event) state.messages)

end ApplyState

/-! ## Text messages -/

def textMessageStart (state : ApplyState) (event : TextMessageStartEvent) : Effect :=
  state.startMessage
    { id := event.messageId
      role := (event.role.getD .assistant).toRole
      content := some (.text "")
      name := event.name
      subagentRunId := event.subagentRunId.withoutNull }
    event.toBaseEvent

def textMessageContent (state : ApplyState) (event : TextMessageContentEvent) : Effect :=
  state.appendMessage event.messageId event.delta event.toBaseEvent

def textMessageEnd (state : ApplyState) (event : TextMessageEndEvent) : Effect :=
  state.finishMessage event.messageId event.toBaseEvent

/-! ## Tool calls -/

/-- The assistant message a tool call attaches to. -/
inductive ToolCallTarget where
  | existing (id : String)
  | created (id : String)

/-- The assistant message a call goes to: its parent, or one that is made for it. -/
def resolveOrCreateAssistantMessage (messages : List Message) (parentMessageId : Option String)
    (toolCallId : String) : ToolCallTarget :=
  match parentMessageId.filter (fun parent => parent ≠ "") with
  | none => .created toolCallId
  | some parent =>
    match findMessage messages parent with
    | none => .created parent
    | some existing => if existing.role = .assistant then .existing parent else .created toolCallId

/-- The message made for a tool call.  Only one under an id that was not in
use is attributed. -/
def createdMessage (messages : List Message) (id : String) (tag : Tag) : Message :=
  { id := id
    role := .assistant
    toolCalls := some []
    subagentRunId :=
      if messages.any (fun message => message.id = id) then .absent else tag.withoutNull }

/-- A new call, with empty arguments, in the message it goes to. -/
def attachToolCall (messages : List Message) (event : ToolCallStartEvent) : List Message :=
  let call : ToolCall :=
    { id := event.toolCallId, function := { name := event.toolCallName, arguments := "" } }
  let call := call.applyEventMetadata event.toBaseEvent
  match resolveOrCreateAssistantMessage messages event.parentMessageId event.toolCallId with
  | .existing id => updateMessage id (fun message => message.pushCall call) messages
  | .created id => messages ++ [(createdMessage messages id event.subagentRunId).pushCall call]

/-- A call that exists already is renamed where it stands; another one is attached. -/
def toolCallStart (state : ApplyState) (event : ToolCallStartEvent) : Effect :=
  let state :=
    if state.runToolCallIds.contains event.toolCallId then state
    else { state with runToolCallIds := state.runToolCallIds ++ [event.toolCallId] }
  match findCall state.messages event.toolCallId with
  | some existing =>
    state.emitIf (event.metadata.isSome || existing.function.name ≠ event.toolCallName)
      (updateToolCall event.toolCallId
        (fun call => (call.rename event.toolCallName).applyEventMetadata event.toBaseEvent)
        state.messages)
  | none => state.emit (attachToolCall state.messages event)

/-- Arguments of a call that is not held change nothing. -/
def toolCallArgs (state : ApplyState) (event : ToolCallArgsEvent) : Effect :=
  match findCall state.messages event.toolCallId with
  | none => state.quiet
  | some _ =>
    state.emit
      (updateToolCall event.toolCallId
        (fun call => (call.append event.delta).applyEventMetadata event.toBaseEvent) state.messages)

/-- The end of a call leaves nothing but its metadata. -/
def toolCallEnd (state : ApplyState) (event : ToolCallEndEvent) : Effect :=
  match findCall state.messages event.toolCallId with
  | none => state.quiet
  | some _ =>
    state.emitIf event.metadata.isSome
      (updateToolCall event.toolCallId (fun call => call.applyEventMetadata event.toBaseEvent)
        state.messages)

/-- A tool result goes right behind the assistant message that issued the
call and the results already recorded there, or else to the end. -/
def placeToolResult (messages : List Message) (toolMessage : Message) (toolCallId : String) : List Message :=
  match messages.findIdx? (fun message => message.role = .assistant && message.hasCall toolCallId) with
  | none => messages ++ [toolMessage]
  | some ownerIndex =>
    let results := (messages.drop (ownerIndex + 1)).takeWhile fun message => message.role = .tool
    messages.insertIdx (ownerIndex + 1 + results.length) toolMessage

def toolResultMessage (event : ToolCallResultEvent) : Message :=
  { id := event.messageId
    toolCallId := some event.toolCallId
    role := .tool
    content := some event.content
    metadata := event.metadata
    subagentRunId := event.subagentRunId.withoutNull }

/-- The result is put behind its call, and the call counts as answered. -/
def toolCallResult (state : ApplyState) (event : ToolCallResultEvent) : Effect :=
  { state with answeredToolCallIds := state.answeredToolCallIds.add event.toolCallId }.emit
    (placeToolResult state.messages (toolResultMessage event) event.toolCallId)

/-! ## State -/

/-- A patch that fails leaves the state as it is. -/
def stateDelta (applyPatch : ApplyPatch) (state : ApplyState) (event : StateDeltaEvent) : Effect :=
  match applyPatch state.state event.delta with
  | some document => state.emitState document
  | none => state.quiet

/-! ## Snapshots of the conversation -/

/-- The metadata property under which a snapshot declares the activity types it owns. -/
def activityHistoryMetadata : String := "@ag-ui/client"

/-- The activity types a snapshot is authoritative for: `null` for all of them,
absent when it declares nothing. -/
def authoritativeActivityTypes (event : MessagesSnapshotEvent) : Nullable (List String) :=
  match event.metadata.bind fun metadata => metadata.get? activityHistoryMetadata with
  | none => .absent
  | some (.object members) =>
    match members.lookup "authoritativeActivityTypes" with
    | none => .absent
    | some .null => .null
    | some (.array types) =>
      if types.all Json.isString then .value (types.filterMap Json.asString?) else .value []
    | some _ => .value []
  | some _ => .value []

/-- A message the snapshot leaves out but may not delete. -/
def isPreservedClientOnly (ownedActivityTypes : Nullable (List String)) (newMessages : List Message)
    (message : Message) : Bool :=
  (message.role = .activity &&
    match ownedActivityTypes with
    | .value types => !(message.activityType.any fun type => types.contains type)
    | .null => false
    | .absent => !(newMessages.any fun candidate => candidate.role = .activity)) ||
  (message.role = .reasoning && !(newMessages.any fun candidate => candidate.role = .reasoning))

/-- The messages of the snapshot take the places of those they replace, and the new ones come after them. -/
def mergeSnapshot (messages : List Message) (event : MessagesSnapshotEvent) : List Message :=
  let newMessages := event.messages.map Message.withoutNullTag
  let snapshotMap := OrderedMap.ofList (newMessages.map fun message => (message.id, message))
  let ownedActivityTypes := authoritativeActivityTypes event
  let kept := messages.filter fun message =>
    snapshotMap.has message.id || isPreservedClientOnly ownedActivityTypes newMessages message
  let updated := kept.map fun message => (snapshotMap.get? message.id).getD message
  updated ++ newMessages.filter fun message =>
    !(updated.any fun present => present.id = message.id)

def messagesSnapshot (state : ApplyState) (event : MessagesSnapshotEvent) : Effect :=
  state.emit (mergeSnapshot state.messages event)

/-! ## Activities -/

def activityMessage (event : ActivitySnapshotEvent) : Message :=
  { id := event.messageId
    role := .activity
    activityType := some event.activityType
    content := some (Content.ofJson event.content)
    subagentRunId := event.subagentRunId.withoutNull }

/-- A snapshot that replaces an activity brings its own attribution with it. -/
def replaceActivity (event : ActivitySnapshotEvent) (message : Message) : Message :=
  { message with
    activityType := some event.activityType
    content := some (Content.ofJson event.content)
    subagentRunId := event.subagentRunId.withoutNull }

/-- A snapshot that is not to replace anything leaves the contents that are there. -/
def activitySnapshot (state : ApplyState) (event : ActivitySnapshotEvent) : Effect :=
  let replace := event.replace.getD true
  match findMessage state.messages event.messageId with
  | none => state.emit (state.messages ++ [(activityMessage event).applyEventMetadata event.toBaseEvent])
  | some existing =>
    if existing.role = .activity then
      state.emit (updateMessage event.messageId
        (fun message =>
          (if replace then replaceActivity event message else message).applyEventMetadata
            event.toBaseEvent)
        state.messages)
    else if replace then
      state.emit (updateMessage event.messageId
        (fun _ => (activityMessage event).applyEventMetadata event.toBaseEvent) state.messages)
    else state.emit state.messages

/-- The metadata is merged whether or not the patch applies. -/
def activityDelta (applyPatch : ApplyPatch) (state : ApplyState) (event : ActivityDeltaEvent) : Effect :=
  match findMessage state.messages event.messageId with
  | none => state.quiet
  | some existing =>
    if existing.role = .activity then
      let document := (existing.content.map Content.toJson).getD (.object [])
      match applyPatch document event.patch with
      | some updated =>
        state.emit (updateMessage event.messageId
          (fun message =>
            { message.applyEventMetadata event.toBaseEvent with
              content := some (Content.ofJson updated)
              activityType := some event.activityType })
          state.messages)
      | none =>
        state.emitIf event.metadata.isSome (updateMessage event.messageId
          (fun message => message.applyEventMetadata event.toBaseEvent) state.messages)
    else state.quiet

/-! ## Runs -/

/-- Append the messages of a run's input that are not in the list. -/
def appendMissing (messages : List Message) : List Message -> List Message
  | [] => messages
  | message :: rest =>
    match findMessage messages message.id with
    | none => appendMissing (messages ++ [message.withoutNullTag]) rest
    | some _ => appendMissing messages rest

/-- The tally of the calls begins anew, and the input may bring messages. -/
def runStarted (state : ApplyState) (event : RunStartedEvent) : Effect :=
  let state := { state with runToolCallIds := [], answeredToolCallIds := OrderedMap.empty }
  match event.input with
  | none => state.quiet
  | some input => state.emit (appendMissing state.messages input.messages)

def Interrupt.withoutNullTag (interrupt : Interrupt) : Interrupt :=
  { interrupt with subagentRunId := interrupt.subagentRunId.withoutNull }

/-- A run that ends with interrupts leaves them pending; any other end leaves none. -/
def runFinished (state : ApplyState) (event : RunFinishedEvent) : Effect :=
  let pendingInterrupts :=
    match event.outcome with
    | some (.interrupt interrupts) => interrupts.map Interrupt.withoutNullTag
    | _ => []
  { state with pendingInterrupts := pendingInterrupts }.quiet

/-- The pending tool calls a `RUN_FINISHED` names itself. -/
def namedPendingToolCallIds (event : RunFinishedEvent) : List String :=
  match event.outcome with
  | some (.success pendingToolCallIds) => pendingToolCallIds.getD []
  | _ => []

/-- A producer that names the list is trusted over the tally. -/
def pendingToolCallIdsOf (state : ApplyState) (event : RunFinishedEvent) : List String :=
  if (namedPendingToolCallIds event).isEmpty then
    state.runToolCallIds.filter fun id => !state.answeredToolCallIds.has id
  else namedPendingToolCallIds event

/-- What is reported about a run that finished. -/
inductive RunFinishedParams where
  | interrupt (interrupts : List Interrupt)
  | cancelled
  | success (result : Option Json) (pendingToolCallIds : List String)

def finishedParams (state : ApplyState) (event : RunFinishedEvent) : RunFinishedParams :=
  match event.outcome with
  | some (.interrupt interrupts) => .interrupt interrupts
  | some .cancelled => .cancelled
  | _ => .success event.result (pendingToolCallIdsOf state event)

/-! ## Reasoning -/

def reasoningMessageStart (state : ApplyState) (event : ReasoningMessageStartEvent) : Effect :=
  state.startMessage
    { id := event.messageId
      role := .reasoning
      content := some (.text "")
      subagentRunId := event.subagentRunId.withoutNull }
    event.toBaseEvent

def reasoningMessageContent (state : ApplyState) (event : ReasoningMessageContentEvent) : Effect :=
  state.appendMessage event.messageId event.delta event.toBaseEvent

def reasoningMessageEnd (state : ApplyState) (event : ReasoningMessageEndEvent) : Effect :=
  state.finishMessage event.messageId event.toBaseEvent

def setEncryptedCall (toolCallId encryptedValue : String) (messages : List Message) : List Message :=
  updateFirst (fun message => message.role = .assistant && message.hasCall toolCallId)
    (fun message => message.updateCall toolCallId fun call =>
      { call with encryptedValue := some encryptedValue })
    messages

/-- The value is put on a call of an assistant message, or on a message that is no activity. -/
def reasoningEncryptedValue (state : ApplyState) (event : ReasoningEncryptedValueEvent) : Effect :=
  match event.subtype with
  | .toolCall =>
    state.emitIf (state.messages.any fun message => message.role = .assistant && message.hasCall event.entityId)
      (setEncryptedCall event.entityId event.encryptedValue state.messages)
  | .message =>
    match findMessage state.messages event.entityId with
    | none => state.quiet
    | some target =>
      if target.role = .activity then state.quiet
      else state.emit (updateMessage event.entityId
        (fun message => { message with encryptedValue := some event.encryptedValue }) state.messages)

/-! ## The reducer -/

/-- The effect of an event that is not a chunk. -/
def reduce (applyPatch : ApplyPatch) (state : ApplyState) : Event -> Effect
  | .textMessageStart event => textMessageStart state event
  | .textMessageContent event => textMessageContent state event
  | .textMessageEnd event => textMessageEnd state event
  | .toolCallStart event => toolCallStart state event
  | .toolCallArgs event => toolCallArgs state event
  | .toolCallEnd event => toolCallEnd state event
  | .toolCallResult event => toolCallResult state event
  | .stateSnapshot event => state.emitState event.snapshot
  | .stateDelta event => stateDelta applyPatch state event
  | .messagesSnapshot event => messagesSnapshot state event
  | .activitySnapshot event => activitySnapshot state event
  | .activityDelta event => activityDelta applyPatch state event
  | .runStarted event => runStarted state event
  | .runFinished event => runFinished state event
  | .reasoningMessageStart event => reasoningMessageStart state event
  | .reasoningMessageContent event => reasoningMessageContent state event
  | .reasoningMessageEnd event => reasoningMessageEnd state event
  | .reasoningEncryptedValue event => reasoningEncryptedValue state event
  | _ => state.quiet

def defaultApplyEvents (applyPatch : ApplyPatch) : Stage ApplyState Event AgentStateMutation ApplyError :=
  fun state event =>
    if event.isChunk then .error ⟨event.type⟩ else .ok (reduce applyPatch state event)

/-! ## Replays -/

/-- The state a list of events leaves. -/
def replay (applyPatch : ApplyPatch) (state : ApplyState) (events : List Event) : ApplyState :=
  events.foldl (fun state event => (reduce applyPatch state event).1) state

theorem replay_append (applyPatch : ApplyPatch) (state : ApplyState) (first second : List Event) :
    replay applyPatch state (first ++ second) = replay applyPatch (replay applyPatch state first) second :=
  List.foldl_append

theorem step_of_not_chunk (applyPatch : ApplyPatch) (state : ApplyState) {event : Event}
    (plain : event.isChunk = false) :
    defaultApplyEvents applyPatch state event = .ok (reduce applyPatch state event) := by
  rw [defaultApplyEvents, plain]
  rfl

theorem not_chunk_of_step {applyPatch : ApplyPatch} {state : ApplyState} {event : Event} {effect : Effect}
    (step : defaultApplyEvents applyPatch state event = .ok effect) :
    event.isChunk = false ∧ effect = reduce applyPatch state event := by
  cases chunk : event.isChunk with
  | true =>
    rw [defaultApplyEvents, chunk] at step
    cases step
  | false =>
    rw [step_of_not_chunk applyPatch state chunk] at step
    cases step
    exact ⟨rfl, rfl⟩

/-- The reducer runs through every stream without chunks. -/
theorem exists_runs_iff (applyPatch : ApplyPatch) (state final : ApplyState) (events : List Event) :
    (∃ mutations, Stage.Runs (defaultApplyEvents applyPatch) state events mutations final) ↔
      (∀ event ∈ events, event.isChunk = false) ∧ final = replay applyPatch state events := by
  induction events generalizing state with
  | nil =>
    constructor
    · rintro ⟨mutations, runs⟩
      cases runs
      exact ⟨fun _ impossible => absurd impossible List.not_mem_nil, rfl⟩
    · rintro ⟨_, rfl⟩
      exact ⟨[], .nil _⟩
  | cons event rest ih =>
    constructor
    · rintro ⟨mutations, runs⟩
      rcases runs.of_cons with ⟨next, output, late, _, step, tail⟩
      rcases not_chunk_of_step step with ⟨plain, reduced⟩
      rcases (ih next).mp ⟨late, tail⟩ with ⟨later, ended⟩
      constructor
      · intro other member
        rcases List.mem_cons.mp member with same | member
        · exact same ▸ plain
        · exact later other member
      · rw [ended]
        exact congrArg (fun effect : Effect => replay applyPatch effect.1 rest) reduced
    · rintro ⟨plain, rfl⟩
      have step := step_of_not_chunk applyPatch state (plain event List.mem_cons_self)
      rcases (ih (reduce applyPatch state event).1).mpr
        ⟨(List.forall_mem_cons.mp plain).2, rfl⟩ with ⟨late, tail⟩
      exact ⟨_, .cons step tail⟩

end Apply
end AgUi
