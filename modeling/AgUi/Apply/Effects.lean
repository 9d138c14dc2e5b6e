import Mathlib.Data.List.InsertIdx
import AgUi.Apply.Observation
import AgUi.Verify.Refinement

namespace AgUi
namespace Apply

open Library Protocol

/-!
# What an event does under an id

Read id by id, the reducer is a much smaller machine.  `faceNext` is that
machine for every event that touches at most the messages under one id it
names: streams, ends, activities and encrypted values.  A tool call start also
asks which message its parent id finds; a tool result, a snapshot and a run's
input insert messages.  For those there is one lemma each.
-/

/-- Change the first message under an id, unless it is an activity. -/
def touch (change : Message -> Message) : List Message -> List Message
  | [] => []
  | message :: rest => if message.role = .activity then message :: rest else change message :: rest

/-- A streamed message starts: a new one, or more metadata for the old one. -/
def beginWith (fresh : Message) (event : BaseEvent) : List Message -> List Message
  | [] => [fresh.applyEventMetadata event]
  | messages => touch (fun message => message.applyEventMetadata event) messages

/-- A snapshot replaces what the activity held, unless it is told not to. -/
def snapshotActivity (event : ActivitySnapshotEvent) : List Message -> List Message
  | [] => [(activityMessage event).applyEventMetadata event.toBaseEvent]
  | message :: rest =>
    if message.role = .activity then
      (if event.replace.getD true then replaceActivity event message else message).applyEventMetadata
        event.toBaseEvent :: rest
    else if event.replace.getD true then
      (activityMessage event).applyEventMetadata event.toBaseEvent :: rest
    else message :: rest

/-- A delta patches the content of the activity; where the patch fails only the metadata is merged. -/
def patchActivity (applyPatch : ApplyPatch) (event : ActivityDeltaEvent) : List Message -> List Message
  | [] => []
  | message :: rest =>
    if message.role = .activity then
      match applyPatch ((message.content.map Content.toJson).getD (.object [])) event.patch with
      | some updated =>
        { message.applyEventMetadata event.toBaseEvent with
          content := some (Content.ofJson updated)
          activityType := some event.activityType } :: rest
      | none => message.applyEventMetadata event.toBaseEvent :: rest
    else message :: rest

def newTextMessage (event : TextMessageStartEvent) : Message :=
  { id := event.messageId
    role := (event.role.getD .assistant).toRole
    content := some (.text "")
    name := event.name
    subagentRunId := event.subagentRunId.withoutNull }

def newReasoningMessage (event : ReasoningMessageStartEvent) : Message :=
  { id := event.messageId
    role := .reasoning
    content := some (.text "")
    subagentRunId := event.subagentRunId.withoutNull }

/-- The id of the messages an event changes, and the change. -/
def faceEdit (applyPatch : ApplyPatch) : Event -> Option (String × (List Message -> List Message))
  | .textMessageStart event =>
    some (event.messageId, beginWith (newTextMessage event) event.toBaseEvent)
  | .textMessageContent event =>
    some (event.messageId, touch fun message =>
      (message.append event.delta).applyEventMetadata event.toBaseEvent)
  | .textMessageEnd event =>
    some (event.messageId, touch fun message => message.applyEventMetadata event.toBaseEvent)
  | .reasoningMessageStart event =>
    some (event.messageId, beginWith (newReasoningMessage event) event.toBaseEvent)
  | .reasoningMessageContent event =>
    some (event.messageId, touch fun message =>
      (message.append event.delta).applyEventMetadata event.toBaseEvent)
  | .reasoningMessageEnd event =>
    some (event.messageId, touch fun message => message.applyEventMetadata event.toBaseEvent)
  | .activitySnapshot event => some (event.messageId, snapshotActivity event)
  | .activityDelta event => some (event.messageId, patchActivity applyPatch event)
  | .reasoningEncryptedValue event =>
    match event.subtype with
    | .toolCall => none
    | .message => some (event.entityId, touch fun message =>
      { message with encryptedValue := some event.encryptedValue })
  | _ => none

/-- The messages under an id after an event. -/
def faceNext (applyPatch : ApplyPatch) (event : Event) (id : String) (messages : List Message) :
    List Message :=
  match faceEdit applyPatch event with
  | some (named, edit) => if id = named then edit messages else messages
  | none => messages

theorem faceNext_of_edit {applyPatch : ApplyPatch} {event : Event} {named : String}
    {edit : List Message -> List Message} (edits : faceEdit applyPatch event = some (named, edit))
    (id : String) (messages : List Message) :
    faceNext applyPatch event id messages = if id = named then edit messages else messages := by
  rw [faceNext, edits]

theorem faceNext_of_none {applyPatch : ApplyPatch} {event : Event} (keeps : faceEdit applyPatch event = none)
    (id : String) (messages : List Message) : faceNext applyPatch event id messages = messages := by
  rw [faceNext, keeps]

/-- The events that insert messages by a rule of their own. -/
def Inserts : Event -> Prop
  | .toolCallStart _ => True
  | .toolCallResult _ => True
  | .messagesSnapshot _ => True
  | .runStarted _ => True
  | _ => False

/-! ## Edits of the messages under one id -/

theorem touch_eq_modifyHead {change : Message -> Message} {message : Message} {rest : List Message}
    (streamed : message.role ≠ .activity) :
    touch change (message :: rest) = (message :: rest).modifyHead change :=
  if_neg streamed

theorem touch_of_activity {change : Message -> Message} {message : Message} {rest : List Message}
    (activity : message.role = .activity) : touch change (message :: rest) = message :: rest :=
  if_pos activity

section

variable (state : ApplyState) (id : String) (event : BaseEvent)

@[simp] theorem messages_emitIf (changed : Bool) (messages : List Message) :
    (state.emitIf changed messages).1.messages = messages := by
  unfold ApplyState.emitIf
  split <;> rfl

/-- The common shape of the handlers that write to a message they find. -/
theorem faces_found (named : String) (change : Message -> Message) (after : List Message)
    (keeps : ∀ message, (change message).id = message.id)
    (reads : ∀ message, bare (change message) = change (bare message))
    (missing : findMessage state.messages named = none -> after = state.messages)
    (found : ∀ target, findMessage state.messages named = some target ->
      after = if target.role = .activity then state.messages
        else updateMessage named change state.messages) :
    faces after id =
      if id = named then touch change (faces state.messages id) else faces state.messages id := by
  cases search : findMessage state.messages named with
  | none =>
    have empty := (findMessage_eq_none_iff _ _).mp search
    rw [missing search]
    split
    · rename_i same
      rw [same, empty]
      rfl
    · rfl
  | some target =>
    rcases findMessage_eq_some_head search with ⟨rest, faced⟩
    rw [found target search]
    by_cases activity : target.role = .activity
    · rw [if_pos activity]
      split
      · rename_i same
        rw [same, faced, touch_of_activity (by exact activity)]
      · rfl
    · rw [if_neg activity, faces_updateMessage change (fun message same => (keeps message).trans same) reads]
      split
      · rename_i same
        rw [same, faced, touch_eq_modifyHead (by exact activity)]
      · rfl

theorem faces_appendMessage (named delta : String) :
    faces (state.appendMessage named delta event).1.messages id =
      if id = named then
        touch (fun message => (message.append delta).applyEventMetadata event) (faces state.messages id)
      else faces state.messages id := by
  apply faces_found state id named
    (fun message => (message.append delta).applyEventMetadata event) _ (fun _ => rfl) (fun _ => rfl)
  · intro search
    simp only [ApplyState.appendMessage, search]
    rfl
  · intro target search
    simp only [ApplyState.appendMessage, search]
    split <;> rfl

theorem faces_finishMessage (named : String) :
    faces (state.finishMessage named event).1.messages id =
      if id = named then touch (fun message => message.applyEventMetadata event) (faces state.messages id)
      else faces state.messages id := by
  apply faces_found state id named (fun message => message.applyEventMetadata event) _
    (fun _ => rfl) (fun _ => rfl)
  · intro search
    simp only [ApplyState.finishMessage, search]
    rfl
  · intro target search
    simp only [ApplyState.finishMessage, search]
    split
    · rfl
    · rw [messages_emitIf]

theorem faces_startMessage {fresh : Message} (plain : fresh.toolCalls = none) :
    faces (state.startMessage fresh event).1.messages id =
      if id = fresh.id then beginWith fresh event (faces state.messages id)
      else faces state.messages id := by
  cases search : findMessage state.messages fresh.id with
  | none =>
    have empty := (findMessage_eq_none_iff _ _).mp search
    have bareFresh : bare (fresh.applyEventMetadata event) = fresh.applyEventMetadata event := by
      rw [bare, Message.applyEventMetadata, ← plain]
    simp only [ApplyState.startMessage, search, ApplyState.emit]
    rw [faces_append, faces_singleton, bareFresh]
    by_cases same : id = fresh.id
    · rw [if_pos same, if_pos (by exact same.symm), same, empty]
      rfl
    · rw [if_neg same, if_neg (by exact fun equal => same equal.symm), List.append_nil]
  | some target =>
    rcases findMessage_eq_some_head search with ⟨rest, faced⟩
    have edit := faces_found state id fresh.id (fun message => message.applyEventMetadata event)
      (state.startMessage fresh event).1.messages (fun _ => rfl) (fun _ => rfl)
      (fun missing => by rw [missing] at search; cases search)
      (by
        intro found again
        simp only [ApplyState.startMessage, again]
        split
        · rfl
        · rw [messages_emitIf])
    rw [edit]
    by_cases same : id = fresh.id
    · rw [if_pos same, if_pos same, same, faced]
      rfl
    · rw [if_neg same, if_neg same]

end

variable (state : ApplyState)

theorem faces_activitySnapshot (event : ActivitySnapshotEvent) (id : String) :
    faces (activitySnapshot state event).1.messages id =
      if id = event.messageId then snapshotActivity event (faces state.messages id)
      else faces state.messages id := by
  cases search : findMessage state.messages event.messageId with
  | none =>
    have empty := (findMessage_eq_none_iff _ _).mp search
    simp only [activitySnapshot, search, ApplyState.emit]
    rw [faces_append, faces_singleton]
    by_cases same : id = event.messageId
    · rw [if_pos same, if_pos (by exact same.symm), same, empty]
      rfl
    · rw [if_neg same, if_neg (by exact fun equal => same equal.symm), List.append_nil]
  | some existing =>
    rcases findMessage_eq_some_head search with ⟨rest, faced⟩
    unfold activitySnapshot
    simp only [search]
    by_cases activity : existing.role = .activity
    · rw [if_pos activity]
      simp only [ApplyState.emit]
      rw [faces_updateMessage (fun message =>
        (if event.replace.getD true then replaceActivity event message else message).applyEventMetadata
          event.toBaseEvent)
        (fun message same => by split <;> exact same) (fun message => by split <;> rfl)]
      split
      · rename_i same
        rw [same, faced, snapshotActivity, if_pos (by exact activity)]
        rfl
      · rfl
    · rw [if_neg activity]
      split
      · rename_i replaces
        simp only [ApplyState.emit]
        rw [faces_updateMessage (fun _ => (activityMessage event).applyEventMetadata event.toBaseEvent)
          (by intros; rfl) (by intros; rfl)]
        split
        · rename_i same
          rw [same, faced, snapshotActivity, if_neg (by exact activity), if_pos replaces]
          rfl
        · rfl
      · rename_i keeps
        simp only [ApplyState.emit]
        split
        · rename_i same
          rw [same, faced, snapshotActivity, if_neg (by exact activity), if_neg keeps]
        · rfl

theorem faces_activityDelta (applyPatch : ApplyPatch) (state : ApplyState) (event : ActivityDeltaEvent)
    (id : String) :
    faces (activityDelta applyPatch state event).1.messages id =
      if id = event.messageId then patchActivity applyPatch event (faces state.messages id)
      else faces state.messages id := by
  cases search : findMessage state.messages event.messageId with
  | none =>
    have empty := (findMessage_eq_none_iff _ _).mp search
    simp only [activityDelta, search]
    split
    · rename_i same
      change faces state.messages id = _
      rw [same, empty]
      rfl
    · rfl
  | some existing =>
    rcases findMessage_eq_some_head search with ⟨rest, faced⟩
    unfold activityDelta
    simp only [search]
    by_cases activity : existing.role = .activity
    · rw [if_pos activity]
      cases patched : applyPatch ((existing.content.map Content.toJson).getD (.object [])) event.patch with
      | none =>
        simp only [messages_emitIf]
        rw [faces_updateMessage (fun message => message.applyEventMetadata event.toBaseEvent)
          (fun _ same => same) (fun _ => rfl)]
        split
        · rename_i same
          rw [same, faced, patchActivity, if_pos (by exact activity)]
          simp only [bare, patched]
          rfl
        · rfl
      | some updated =>
        simp only [ApplyState.emit]
        rw [faces_updateMessage
          (fun message =>
            { message.applyEventMetadata event.toBaseEvent with
              content := some (Content.ofJson updated)
              activityType := some event.activityType })
          (fun _ same => same) (fun _ => rfl)]
        split
        · rename_i same
          rw [same, faced, patchActivity, if_pos (by exact activity)]
          simp only [bare, patched]
          rfl
        · rfl
    · rw [if_neg activity]
      split
      · rename_i same
        rw [same, faced, patchActivity, if_neg (by exact activity)]
        exact faced
      · rfl

theorem faces_reasoningEncryptedValue (applyPatch : ApplyPatch) (state : ApplyState)
    (event : ReasoningEncryptedValueEvent) (id : String) :
    faces (reasoningEncryptedValue state event).1.messages id =
      faceNext applyPatch (.reasoningEncryptedValue event) id (faces state.messages id) := by
  cases subtype : event.subtype with
  | toolCall =>
    simp only [reasoningEncryptedValue, faceNext, faceEdit, subtype, messages_emitIf]
    apply faces_of_bare
    intro message
    rfl
  | message =>
    simp only [reasoningEncryptedValue, faceNext, faceEdit, subtype]
    apply faces_found state id event.entityId
      (fun message => { message with encryptedValue := some event.encryptedValue }) _
      (fun _ => rfl) (fun _ => rfl)
    · intro search
      simp only [search]
      rfl
    · intro target search
      simp only [search]
      split <;> rfl

theorem faces_updateToolCall (toolCallId : String) (change : ToolCall -> ToolCall) (messages : List Message)
    (id : String) : faces (updateToolCall toolCallId change messages) id = faces messages id := by
  apply faces_of_bare
  intro message
  exact bare_updateCall message toolCallId change

theorem faces_toolCallArgs (event : ToolCallArgsEvent) (id : String) :
    faces (toolCallArgs state event).1.messages id = faces state.messages id := by
  unfold toolCallArgs
  split
  · rfl
  · exact faces_updateToolCall _ _ _ _

theorem faces_toolCallEnd (event : ToolCallEndEvent) (id : String) :
    faces (toolCallEnd state event).1.messages id = faces state.messages id := by
  unfold toolCallEnd
  split
  · rfl
  · rw [messages_emitIf]
    exact faces_updateToolCall _ _ _ _

/-- Under one id, the reducer is the small machine. -/
theorem faces_reduce (applyPatch : ApplyPatch) (state : ApplyState) {event : Event}
    (inPlace : ¬ Inserts event) (id : String) :
    faces (reduce applyPatch state event).1.messages id =
      faceNext applyPatch event id (faces state.messages id) := by
  cases event with
  | textMessageStart event | reasoningMessageStart event => exact faces_startMessage state id event.toBaseEvent rfl
  | textMessageContent event | reasoningMessageContent event => exact faces_appendMessage state id event.toBaseEvent _ _
  | textMessageEnd event | reasoningMessageEnd event => exact faces_finishMessage state id event.toBaseEvent _
  | activitySnapshot event => exact faces_activitySnapshot state event id
  | activityDelta event => exact faces_activityDelta applyPatch state event id
  | reasoningEncryptedValue event => exact faces_reasoningEncryptedValue applyPatch state event id
  | toolCallArgs event => exact faces_toolCallArgs state event id
  | toolCallEnd event => exact faces_toolCallEnd state event id
  | stateDelta event =>
    unfold reduce stateDelta
    dsimp only
    split <;> rfl
  | toolCallStart event | toolCallResult event | messagesSnapshot event | runStarted event =>
    exact absurd trivial inPlace
  | _ => rfl

/-! ## Tool call starts -/

/-- The message a start hangs its call on, given the messages under its parent id. -/
def resolveTarget (parentFaces : String -> List Message) (event : ToolCallStartEvent) : ToolCallTarget :=
  match event.parentMessageId.filter (fun parent => parent ≠ "") with
  | none => .created event.toolCallId
  | some parent =>
    match (parentFaces parent).head? with
    | none => .created parent
    | some existing => if existing.role = .assistant then .existing parent else .created event.toolCallId

variable (messages : List Message)

theorem resolveOrCreateAssistantMessage_eq (event : ToolCallStartEvent) :
    resolveOrCreateAssistantMessage messages event.parentMessageId event.toolCallId =
      resolveTarget (faces messages) event := by
  unfold resolveOrCreateAssistantMessage resolveTarget
  cases event.parentMessageId.filter (fun parent => parent ≠ "") with
  | none => rfl
  | some parent =>
    dsimp only
    rw [← findMessage_bare]
    cases findMessage messages parent <;> rfl

/-- The three ways a start finds its message: the parent is an assistant
message, the parent is unknown, or there is no parent to use. -/
theorem resolveTarget_cases (event : ToolCallStartEvent) :
    (∃ parent found,
      resolveTarget (faces messages) event = .existing parent ∧ event.parentMessageId = some parent ∧
      parent ≠ "" ∧ findMessage messages parent = some found ∧ found.role = .assistant) ∨
    (∃ parent,
      resolveTarget (faces messages) event = .created parent ∧ event.parentMessageId = some parent ∧
      parent ≠ "" ∧ findMessage messages parent = none) ∨
    (resolveTarget (faces messages) event = .created event.toolCallId ∧
      ∀ parent, event.parentMessageId = some parent -> parent ≠ "" ->
        ∃ found, findMessage messages parent = some found ∧ found.role ≠ .assistant) := by
  rw [← resolveOrCreateAssistantMessage_eq]
  unfold resolveOrCreateAssistantMessage
  cases usable : event.parentMessageId.filter (fun parent => parent ≠ "") with
  | none =>
    refine .inr (.inr ⟨rfl, fun parent given nonempty => ?_⟩)
    rw [given, Option.filter_some, if_pos (decide_eq_true nonempty)] at usable
    cases usable
  | some named =>
    rcases Option.filter_eq_some_iff.mp usable with ⟨given, nonempty⟩
    have nonempty := of_decide_eq_true nonempty
    cases search : findMessage messages named with
    | none =>
      simp only [search]
      exact .inr (.inl ⟨named, rfl, given, nonempty, search⟩)
    | some found =>
      simp only [search]
      by_cases assistant : found.role = .assistant
      · exact .inl ⟨named, found, if_pos assistant, given, nonempty, search, assistant⟩
      · refine .inr (.inr ⟨if_neg assistant, fun parent given' _ => ?_⟩)
        rw [given] at given'
        cases given'
        exact ⟨found, search, assistant⟩

/-- A target that exists is found, and is an assistant message. -/
theorem exists_of_resolveTarget {messages : List Message} {event : ToolCallStartEvent} {id : String}
    (resolved : resolveTarget (faces messages) event = .existing id) :
    ∃ target, findMessage messages id = some target ∧ target.role = .assistant := by
  rcases resolveTarget_cases messages event with
    ⟨parent, found, finds, _, _, search, assistant⟩ | ⟨parent, makes, _⟩ | ⟨makes, _⟩
  · rw [resolved] at finds
    cases finds
    exact ⟨found, search, assistant⟩
  · rw [resolved] at makes
    cases makes
  · rw [resolved] at makes
    cases makes

/-- Where a start makes a message, it does so under its own id or an unused one. -/
theorem created_cases {messages : List Message} {event : ToolCallStartEvent} {created : String}
    (resolved : resolveTarget (faces messages) event = .created created) :
    created = event.toolCallId ∨ (event.parentMessageId = some created ∧ faces messages created = []) := by
  rcases resolveTarget_cases messages event with
    ⟨parent, found, finds, _⟩ | ⟨parent, makes, given, _, unused⟩ | ⟨makes, _⟩
  · rw [resolved] at finds
    cases finds
  · rw [resolved] at makes
    cases makes
    exact .inr ⟨given, (findMessage_eq_none_iff _ _).mp unused⟩
  · rw [resolved] at makes
    cases makes
    exact .inl rfl

/-- The call a start makes. -/
def newToolCall (event : ToolCallStartEvent) : ToolCall :=
  { id := event.toolCallId
    function := { name := event.toolCallName, arguments := "" }
    metadata := event.metadata }

def ToolCallTarget.id : ToolCallTarget -> String
  | .existing id => id
  | .created id => id

/-- A start hangs its call on a message under its own id or its parent id. -/
theorem target_named (event : ToolCallStartEvent) :
    event.toolCallId = (resolveTarget (faces messages) event).id ∨
      event.parentMessageId = some (resolveTarget (faces messages) event).id := by
  rcases resolveTarget_cases messages event with
    ⟨parent, found, finds, given, _⟩ | ⟨parent, makes, given, _⟩ | ⟨makes, _⟩
  · rw [finds]
    exact .inr given
  · rw [makes]
    exact .inr given
  · rw [makes]
    exact .inl rfl

/-- The messages a start adds under an id. -/
def createdFaces (target : ToolCallTarget) (messages : List Message) (event : ToolCallStartEvent)
    (id : String) : List Message :=
  match target with
  | .existing _ => []
  | .created created =>
    if id = created then [bare (createdMessage messages created event.subagentRunId)] else []

/-- A call that is started once more gets the new name. -/
def restartCall (event : ToolCallStartEvent) (placement : Placement) : Placement :=
  (placement.1, (placement.2.rename event.toolCallName).applyEventMetadata event.toBaseEvent)

/-- The placements of a call after its start. -/
def startCall (event : ToolCallStartEvent) (target : ToolCallTarget) : List Placement -> List Placement
  | [] => [(target.id, newToolCall event)]
  | placement :: rest => restartCall event placement :: rest

theorem toolCallStart_of_some {state : ApplyState} {event : ToolCallStartEvent} {call : ToolCall}
    (search : findCall state.messages event.toolCallId = some call) :
    (toolCallStart state event).1.messages =
      updateToolCall event.toolCallId
        (fun call => (call.rename event.toolCallName).applyEventMetadata event.toBaseEvent)
        state.messages := by
  unfold toolCallStart
  cases state.runToolCallIds.contains event.toolCallId <;>
    simp only [search, Bool.false_eq_true, if_false, if_true, messages_emitIf]

theorem toolCallStart_of_none {state : ApplyState} {event : ToolCallStartEvent}
    (search : findCall state.messages event.toolCallId = none) :
    (toolCallStart state event).1.messages = attachToolCall state.messages event := by
  unfold toolCallStart
  cases state.runToolCallIds.contains event.toolCallId <;>
    simp only [search, Bool.false_eq_true, if_false, if_true, ApplyState.emit]

theorem faces_attachToolCall (event : ToolCallStartEvent) (id : String) :
    faces (attachToolCall messages event) id =
      faces messages id ++ createdFaces (resolveTarget (faces messages) event) messages event id := by
  unfold attachToolCall createdFaces
  rw [resolveOrCreateAssistantMessage_eq]
  cases resolveTarget (faces messages) event with
  | existing named =>
    dsimp only
    rw [List.append_nil]
    apply faces_of_bare
    intro message
    rfl
  | created named =>
    dsimp only
    rw [faces_append, faces_singleton]
    by_cases same : id = named
    · rw [if_pos same, if_pos (by exact same.symm)]
      rfl
    · rw [if_neg same, if_neg (by exact fun equal => same equal.symm)]

theorem placements_attachToolCall {messages : List Message} {event : ToolCallStartEvent}
    (fresh : placements messages event.toolCallId = []) (toolCallId : String) :
    placements (attachToolCall messages event) toolCallId =
      if toolCallId = event.toolCallId then
        [((resolveTarget (faces messages) event).id, newToolCall event)]
      else placements messages toolCallId := by
  have made : ({ id := event.toolCallId, function := { name := event.toolCallName, arguments := "" } } :
      ToolCall).applyEventMetadata event.toBaseEvent = newToolCall event := by
    unfold ToolCall.applyEventMetadata newToolCall
    rw [none_mergeMetadata]
  unfold attachToolCall
  dsimp only
  rw [made, resolveOrCreateAssistantMessage_eq]
  cases resolved : resolveTarget (faces messages) event with
  | existing id =>
    rcases exists_of_resolveTarget resolved with ⟨target, search, _⟩
    exact placements_pushCall search (newToolCall event) fresh toolCallId
  | created id =>
    have held : holdings ((createdMessage messages id event.subagentRunId).pushCall (newToolCall event)) =
        [(id, newToolCall event)] := rfl
    dsimp only
    rw [placements_append, placements_cons, held]
    by_cases same : toolCallId = event.toolCallId
    · subst same
      rw [fresh, if_pos rfl]
      have named : (newToolCall event).id = event.toolCallId := rfl
      simp [named, placements]
      rfl
    · have apart : (newToolCall event).id ≠ toolCallId := fun equal => same equal.symm
      rw [if_neg same]
      simp [apart, placements]

theorem faces_toolCallStart (event : ToolCallStartEvent) (id : String) :
    faces (toolCallStart state event).1.messages id =
      faces state.messages id ++
        if placements state.messages event.toolCallId = [] then
          createdFaces (resolveTarget (faces state.messages) event) state.messages event id
        else [] := by
  cases search : findCall state.messages event.toolCallId with
  | none =>
    rw [toolCallStart_of_none search, if_pos ((findCall_eq_none_iff _ _).mp search), faces_attachToolCall]
  | some call =>
    have taken : placements state.messages event.toolCallId ≠ [] := by
      intro empty
      rw [(findCall_eq_none_iff _ _).mpr empty] at search
      cases search
    rw [toolCallStart_of_some search, if_neg taken, List.append_nil]
    exact faces_updateToolCall _ _ _ _

theorem placements_toolCallStart (event : ToolCallStartEvent) (toolCallId : String) :
    placements (toolCallStart state event).1.messages toolCallId =
      if toolCallId = event.toolCallId then
        startCall event (resolveTarget (faces state.messages) event) (placements state.messages toolCallId)
      else placements state.messages toolCallId := by
  cases search : findCall state.messages event.toolCallId with
  | none =>
    have fresh := (findCall_eq_none_iff _ _).mp search
    rw [toolCallStart_of_none search, placements_attachToolCall fresh]
    split
    · rename_i same
      rw [same, fresh]
      rfl
    · rfl
  | some call =>
    have head := findCall_eq state.messages event.toolCallId
    have keeps : ∀ call : ToolCall,
        ((call.rename event.toolCallName).applyEventMetadata event.toBaseEvent).id = call.id := fun _ => rfl
    rw [search] at head
    rw [toolCallStart_of_some search, placements_updateToolCall keeps]
    split
    · rename_i same
      rw [← same] at head
      cases placed : placements state.messages toolCallId with
      | nil =>
        rw [placed] at head
        cases head
      | cons placement rest => rfl
    · rfl

/-! ## Run starts -/

theorem messages_runStarted (event : RunStartedEvent) :
    (runStarted state event).1.messages = appendMissing state.messages (Verify.echoed event) := by
  unfold runStarted Verify.echoed
  cases event.input <;> rfl

/-! ## Tool results -/

theorem insertIdx_eq_append {A : Type} (item : A) (items : List A) {index : Nat}
    (inside : index ≤ items.length) :
    items.insertIdx index item = items.take index ++ item :: items.drop index := by
  induction index generalizing items with
  | zero => rfl
  | succ index ih =>
    cases items with
    | nil => exact absurd inside (Nat.not_succ_le_zero index)
    | cons first rest =>
      rw [List.insertIdx_succ_cons, ih rest (Nat.le_of_succ_le_succ inside)]
      rfl

/-- A result is one message more, somewhere in the list. -/
theorem exists_split_placeToolResult (toolMessage : Message)
    (toolCallId : String) :
    ∃ before after,
      messages = before ++ after ∧
      placeToolResult messages toolMessage toolCallId = before ++ toolMessage :: after := by
  unfold placeToolResult
  cases search : messages.findIdx? (fun message => message.role = .assistant && message.hasCall toolCallId) with
  | none => exact ⟨messages, [], (List.append_nil messages).symm, rfl⟩
  | some ownerIndex =>
    have owned : ownerIndex < messages.length := (List.findIdx?_eq_some_iff_findIdx_eq.mp search).1
    have results := (List.takeWhile_sublist (fun message : Message => message.role = .tool)
      (l := messages.drop (ownerIndex + 1))).length_le
    rw [List.length_drop] at results
    refine ⟨_, _, (List.take_append_drop _ messages).symm, insertIdx_eq_append _ _ ?_⟩
    omega

theorem faces_toolCallResult_of_ne (event : ToolCallResultEvent) {id : String}
    (different : id ≠ event.messageId) :
    faces (toolCallResult state event).1.messages id = faces state.messages id := by
  rcases exists_split_placeToolResult state.messages (toolResultMessage event) event.toolCallId with
    ⟨before, after, whole, placed⟩
  have apart : (toolResultMessage event).id ≠ id := fun equal => different equal.symm
  unfold toolCallResult ApplyState.emit
  dsimp only
  rw [placed, whole, faces_append, faces_append, faces_cons, if_neg apart, List.nil_append]

theorem faces_toolCallResult_perm (event : ToolCallResultEvent) :
    (faces (toolCallResult state event).1.messages event.messageId).Perm
      (toolResultMessage event :: faces state.messages event.messageId) := by
  rcases exists_split_placeToolResult state.messages (toolResultMessage event) event.toolCallId with
    ⟨before, after, whole, placed⟩
  have named : (toolResultMessage event).id = event.messageId := rfl
  unfold toolCallResult ApplyState.emit
  dsimp only
  rw [placed, whole, faces_append, faces_append, faces_cons, if_pos named]
  exact List.perm_middle

theorem placements_toolCallResult (event : ToolCallResultEvent) (toolCallId : String) :
    placements (toolCallResult state event).1.messages toolCallId = placements state.messages toolCallId := by
  rcases exists_split_placeToolResult state.messages (toolResultMessage event) event.toolCallId with
    ⟨before, after, whole, placed⟩
  unfold toolCallResult ApplyState.emit
  dsimp only
  rw [placed, whole, placements_append, placements_append, placements_cons_of_none rfl]

/-! ## Tool calls under other events -/

section

variable (state : ApplyState) (toolCallId : String)

/-- The common shape of the handlers that write to a tool call they find. -/
theorem placements_found (named : String) (change : ToolCall -> ToolCall) (after : List Message)
    (keeps : ∀ call, (change call).id = call.id)
    (missing : findCall state.messages named = none -> after = state.messages)
    (found : ∀ call, findCall state.messages named = some call ->
      after = updateToolCall named change state.messages) :
    placements after toolCallId =
      if toolCallId = named then
        (placements state.messages toolCallId).modifyHead fun placement => (placement.1, change placement.2)
      else placements state.messages toolCallId := by
  cases search : findCall state.messages named with
  | none =>
    have empty := (findCall_eq_none_iff _ _).mp search
    rw [missing search]
    split
    · rename_i same
      rw [same, empty]
      rfl
    · rfl
  | some call => rw [found call search, placements_updateToolCall keeps]

theorem placements_toolCallArgs (event : ToolCallArgsEvent) :
    placements (toolCallArgs state event).1.messages toolCallId =
      if toolCallId = event.toolCallId then
        (placements state.messages toolCallId).modifyHead fun placement =>
          (placement.1, (placement.2.append event.delta).applyEventMetadata event.toBaseEvent)
      else placements state.messages toolCallId := by
  apply placements_found state toolCallId event.toolCallId
    (fun call => (call.append event.delta).applyEventMetadata event.toBaseEvent) _ (fun _ => rfl)
  · intro search
    simp only [toolCallArgs, search]
    rfl
  · intro call search
    simp only [toolCallArgs, search]
    rfl

theorem placements_toolCallEnd (event : ToolCallEndEvent) :
    placements (toolCallEnd state event).1.messages toolCallId =
      if toolCallId = event.toolCallId then
        (placements state.messages toolCallId).modifyHead fun placement =>
          (placement.1, placement.2.applyEventMetadata event.toBaseEvent)
      else placements state.messages toolCallId := by
  apply placements_found state toolCallId event.toolCallId
    (fun call => call.applyEventMetadata event.toBaseEvent) _ (fun _ => rfl)
  · intro search
    simp only [toolCallEnd, search]
    rfl
  · intro call search
    simp only [toolCallEnd, search, messages_emitIf]

theorem placements_appendMessage (named delta : String) (event : BaseEvent) :
    placements (state.appendMessage named delta event).1.messages toolCallId =
      placements state.messages toolCallId := by
  unfold ApplyState.appendMessage
  split
  · rfl
  · split
    · rfl
    · apply placements_updateMessage
      intro target _
      rfl

theorem placements_finishMessage (named : String) (event : BaseEvent) :
    placements (state.finishMessage named event).1.messages toolCallId =
      placements state.messages toolCallId := by
  unfold ApplyState.finishMessage
  split
  · rfl
  · split
    · rfl
    · rw [messages_emitIf]
      apply placements_updateMessage
      intro target _
      rfl

theorem placements_startMessage {fresh : Message} (plain : fresh.toolCalls = none) (event : BaseEvent) :
    placements (state.startMessage fresh event).1.messages toolCallId =
      placements state.messages toolCallId := by
  unfold ApplyState.startMessage
  split
  · unfold ApplyState.emit
    dsimp only
    rw [placements_append, placements_cons_of_none (by exact plain)]
    exact List.append_nil _
  · split
    · rfl
    · rw [messages_emitIf]
      apply placements_updateMessage
      intro target _
      rfl

/-- A snapshot written over a message takes the calls that hang on it along. -/
theorem placements_activitySnapshot (event : ActivitySnapshotEvent)
    (idle : ∀ target, findMessage state.messages event.messageId = some target ->
      target.role ≠ .activity -> event.replace.getD true = true -> holdings target = []) :
    placements (activitySnapshot state event).1.messages toolCallId =
      placements state.messages toolCallId := by
  unfold activitySnapshot
  cases search : findMessage state.messages event.messageId with
  | none =>
    simp only [ApplyState.emit]
    rw [placements_append, placements_cons_of_none rfl]
    exact List.append_nil _
  | some existing =>
    dsimp only
    split
    · apply placements_updateMessage
      intro target _
      split <;> rfl
    · rename_i streamed
      split
      · rename_i replaces
        apply placements_updateMessage
        intro target found
        rw [search] at found
        cases found
        rw [idle existing search streamed replaces]
        exact holdings_of_none rfl
      · rfl

theorem placements_activityDelta (applyPatch : ApplyPatch) (event : ActivityDeltaEvent) :
    placements (activityDelta applyPatch state event).1.messages toolCallId =
      placements state.messages toolCallId := by
  unfold activityDelta
  split
  · rfl
  · split
    · dsimp only
      split
      · apply placements_updateMessage
        intro target _
        rfl
      · rw [messages_emitIf]
        apply placements_updateMessage
        intro target _
        rfl
    · rfl

/-- A call without its encrypted value. -/
def unencrypted (placement : Placement) : Placement :=
  (placement.1, { placement.2 with encryptedValue := none })

theorem holdings_unencrypted (message : Message) (named value : String) :
    (holdings (message.updateCall named fun call => { call with encryptedValue := some value })).map
      unencrypted = (holdings message).map unencrypted := by
  rw [holdings_updateCall]
  apply updateFirst.map_of_same
  intro placement _
  rfl

/-- An encrypted value changes nothing else of any call. -/
theorem placements_reasoningEncryptedValue (event : ReasoningEncryptedValueEvent) :
    (placements (reasoningEncryptedValue state event).1.messages toolCallId).map unencrypted =
      (placements state.messages toolCallId).map unencrypted := by
  have visible : ∀ messages, (placements messages toolCallId).map unencrypted =
      (messages.flatMap fun message => (holdings message).map unencrypted).filter
        fun placement => placement.2.id = toolCallId := by
    intro messages
    rw [← List.map_flatMap, List.filter_map]
    rfl
  unfold reasoningEncryptedValue
  split
  · rw [messages_emitIf, visible, visible, setEncryptedCall, updateFirst.flatMap_of_same]
    intro message _
    exact holdings_unencrypted message event.entityId event.encryptedValue
  · split
    · rfl
    · split
      · rfl
      · apply congrArg (List.map unencrypted)
        apply placements_updateMessage
        intro target _
        rfl

end

end Apply
end AgUi
