import AgUi.Apply.CallUniqueness

namespace AgUi
namespace Apply

open Library Protocol

/-!
# Activities are out of reach of the streams

Nearly every handler looks for its message by bare id, and each that writes to
what it found turns away from an activity.  Whatever a stream reuses an
activity's id for, the activity keeps its content and is given no tool calls.
Only an activity event that names it, or a snapshot of the conversation, may
change it.

`activities` is what is protected: of each activity in the list everything but
the insides of its tool calls.
-/

/-- A message with no more than the ids of its tool calls. -/
abbrev Outline := Message × Option (List String)

def outline (message : Message) : Outline :=
  (bare message, message.toolCalls.map fun calls => calls.map ToolCall.id)

def Outline.isActivity (outlined : Outline) : Bool :=
  outlined.1.role = .activity

def Outline.id (outlined : Outline) : String :=
  outlined.1.id

/-- The activities of a list, in its order. -/
def activities (messages : List Message) : List Outline :=
  (messages.map outline).filter Outline.isActivity

/-! ## Edits of the list -/

theorem activities_append (first second : List Message) :
    activities (first ++ second) = activities first ++ activities second := by
  rw [activities, List.map_append, List.filter_append]
  rfl

theorem activities_cons_of_other {message : Message} (other : message.role ≠ .activity) (rest : List Message) :
    activities (message :: rest) = activities rest := by
  rw [activities, List.map_cons, List.filter_cons, if_neg]
  · rfl
  · exact fun activity => other (of_decide_eq_true activity)

theorem activities_singleton_of_other {message : Message} (other : message.role ≠ .activity) :
    activities [message] = [] :=
  activities_cons_of_other other []

/-- An edit that shows on no outline. -/
theorem activities_of_outline {test : Message -> Bool} {change : Message -> Message}
    (same : ∀ message, outline (change message) = outline message) (messages : List Message) :
    activities (updateFirst test change messages) = activities messages := by
  rw [activities, updateFirst.map_of_same outline (fun message _ => same message)]
  rfl

theorem outline_updateCall {toolCallId : String} {change : ToolCall -> ToolCall}
    (keeps : ∀ call, (change call).id = call.id) (message : Message) :
    outline (message.updateCall toolCallId change) = outline message := by
  unfold outline Message.updateCall
  cases message.toolCalls with
  | none => rfl
  | some calls =>
    have same : (updateFirst (fun call => call.id = toolCallId) change calls).map ToolCall.id =
        calls.map ToolCall.id :=
      updateFirst.map_of_same ToolCall.id (fun call _ => keeps call) calls
    exact congrArg (fun ids => (bare message, some ids)) same

theorem activities_updateToolCall {toolCallId : String} {change : ToolCall -> ToolCall}
    (keeps : ∀ call, (change call).id = call.id) (messages : List Message) :
    activities (updateToolCall toolCallId change messages) = activities messages :=
  activities_of_outline (outline_updateCall keeps) messages

/-- Writing to a message that is no activity. -/
theorem activities_updateMessage {messages : List Message} {id : String} {target : Message}
    {change : Message -> Message} (search : findMessage messages id = some target)
    (streamed : target.role ≠ .activity) (keeps : (change target).role ≠ .activity) :
    activities (updateMessage id change messages) = activities messages := by
  rcases @updateFirst.exists_split Message _ change messages target search with
    ⟨before, after, whole, changed, _, _⟩
  rw [updateMessage, changed]
  rw [whole, activities_append, activities_append, activities_cons_of_other keeps, activities_cons_of_other streamed]

/-- Writing to a message under another id. -/
theorem activities_elsewhere {messages : List Message} {id : String} {target : Message}
    {change : Message -> Message} (search : findMessage messages id = some target)
    (keeps : (change target).id = id) :
    (activities (updateMessage id change messages)).filter (fun outlined => outlined.id ≠ id) =
      (activities messages).filter fun outlined => outlined.id ≠ id := by
  rcases @updateFirst.exists_split Message _ change messages target search with
    ⟨before, after, whole, changed, named, _⟩
  have apart : ∀ message : Message, message.id = id ->
      (activities [message]).filter (fun outlined => outlined.id ≠ id) = [] := by
    intro message same
    apply List.filter_eq_nil_iff.mpr
    intro outlined member
    have listed := List.mem_singleton.mp (List.mem_filter.mp member).1
    rw [listed]
    have named : (outline message).id = id := same
    simp [named]
  have single : ∀ message, activities (message :: after) = activities [message] ++ activities after :=
    fun message => activities_append [message] after
  rw [updateMessage, changed]
  rw [whole, activities_append, activities_append, single, single, List.filter_append, List.filter_append,
    List.filter_append, List.filter_append, apart _ keeps, apart _ (of_decide_eq_true named)]

/-! ## Steps of the streams -/

section

variable (state : ApplyState)

theorem activities_startMessage {fresh : Message} (streamed : fresh.role ≠ .activity) (event : BaseEvent) :
    activities (state.startMessage fresh event).1.messages = activities state.messages := by
  unfold ApplyState.startMessage
  split
  · unfold ApplyState.emit
    dsimp only
    rw [activities_append, activities_singleton_of_other (by exact streamed), List.append_nil]
  · rename_i target search
    split
    · rfl
    · rename_i other
      rw [messages_emitIf]
      exact activities_updateMessage search other other

theorem activities_appendMessage (messageId delta : String) (event : BaseEvent) :
    activities (state.appendMessage messageId delta event).1.messages = activities state.messages := by
  unfold ApplyState.appendMessage
  split
  · rfl
  · rename_i target search
    split
    · rfl
    · rename_i other
      exact activities_updateMessage search other other

theorem activities_finishMessage (messageId : String) (event : BaseEvent) :
    activities (state.finishMessage messageId event).1.messages = activities state.messages := by
  unfold ApplyState.finishMessage
  split
  · rfl
  · rename_i target search
    split
    · rfl
    · rename_i other
      rw [messages_emitIf]
      exact activities_updateMessage search other other

theorem activities_attachToolCall (messages : List Message) (event : ToolCallStartEvent) :
    activities (attachToolCall messages event) = activities messages := by
  unfold attachToolCall
  rw [resolveOrCreateAssistantMessage_eq]
  cases resolved : resolveTarget (faces messages) event with
  | existing id =>
    rcases exists_of_resolveTarget resolved with ⟨target, search, assistant⟩
    have other : target.role ≠ .activity := by
      rw [assistant]
      decide
    exact activities_updateMessage search other other
  | created id =>
    dsimp only
    rw [activities_append, activities_singleton_of_other, List.append_nil]
    exact fun impossible => by cases impossible

theorem activities_toolCallStart (event : ToolCallStartEvent) :
    activities (toolCallStart state event).1.messages = activities state.messages := by
  cases search : findCall state.messages event.toolCallId with
  | none =>
    rw [toolCallStart_of_none search]
    exact activities_attachToolCall state.messages event
  | some call =>
    rw [toolCallStart_of_some search]
    apply activities_updateToolCall
    intro call
    rfl

theorem activities_toolCallResult (event : ToolCallResultEvent) :
    activities (toolCallResult state event).1.messages = activities state.messages := by
  rcases exists_split_placeToolResult state.messages (toolResultMessage event) event.toolCallId with
    ⟨before, after, whole, placed⟩
  unfold toolCallResult ApplyState.emit
  dsimp only
  rw [placed, whole, activities_append, activities_append, activities_cons_of_other]
  exact fun impossible => by cases impossible

theorem activities_reasoningEncryptedValue (event : ReasoningEncryptedValueEvent) :
    activities (reasoningEncryptedValue state event).1.messages = activities state.messages := by
  unfold reasoningEncryptedValue
  split
  · rw [messages_emitIf]
    apply activities_of_outline
    intro message
    apply outline_updateCall
    intro call
    rfl
  · split
    · rfl
    · rename_i target search
      split
      · rfl
      · rename_i other
        exact activities_updateMessage search other other

end

/-! ## Every step -/

/-- The activity an event names. -/
def namedActivity : Event -> Option String
  | .activitySnapshot event => some event.messageId
  | .activityDelta event => some event.messageId
  | _ => none

/-- What a step does to the activities of a list. -/
structure Guards (event : Event) (before after : List Message) : Prop where
  /-- Streams of any kind do nothing to them. -/
  streams : namedActivity event = none -> (∀ start, event ≠ .runStarted start) ->
    activities after = activities before
  /-- An activity event does nothing to those it does not name. -/
  named : ∀ id, namedActivity event = some id ->
    (activities after).filter (fun outlined => outlined.id ≠ id) =
      (activities before).filter fun outlined => outlined.id ≠ id
  /-- The input of a run may add some at the end. -/
  started : ∀ start, event = .runStarted start -> activities before <+: activities after

theorem activities_activitySnapshot (state : ApplyState) (event : ActivitySnapshotEvent) :
    (activities (activitySnapshot state event).1.messages).filter (fun outlined => outlined.id ≠ event.messageId) =
      (activities state.messages).filter fun outlined => outlined.id ≠ event.messageId := by
  unfold activitySnapshot
  cases search : findMessage state.messages event.messageId with
  | none =>
    dsimp only [ApplyState.emit]
    rw [activities_append, List.filter_append]
    have own : (activities [(activityMessage event).applyEventMetadata event.toBaseEvent]).filter
        (fun outlined => outlined.id ≠ event.messageId) = [] := by
      apply List.filter_eq_nil_iff.mpr
      intro outlined member
      rw [List.mem_singleton.mp (List.mem_filter.mp member).1]
      have named : (outline ((activityMessage event).applyEventMetadata event.toBaseEvent)).id =
          event.messageId := rfl
      simp [named]
    rw [own, List.append_nil]
  | some existing =>
    have same : existing.id = event.messageId := of_decide_eq_true (List.find?_eq_some_iff_append.mp search).1
    dsimp only
    split
    · apply activities_elsewhere search
      split
      · exact same
      · exact same
    · split
      · exact activities_elsewhere search rfl
      · rfl

theorem activities_activityDelta (applyPatch : ApplyPatch) (state : ApplyState) (event : ActivityDeltaEvent) :
    (activities (activityDelta applyPatch state event).1.messages).filter
        (fun outlined => outlined.id ≠ event.messageId) =
      (activities state.messages).filter fun outlined => outlined.id ≠ event.messageId := by
  unfold activityDelta
  cases search : findMessage state.messages event.messageId with
  | none => rfl
  | some existing =>
    have same : existing.id = event.messageId := of_decide_eq_true (List.find?_eq_some_iff_append.mp search).1
    dsimp only
    split
    · split
      · exact activities_elsewhere search same
      · rw [messages_emitIf]
        exact activities_elsewhere search same
    · rfl

theorem activities_runStarted (state : ApplyState) (event : RunStartedEvent) :
    activities state.messages <+: activities (runStarted state event).1.messages := by
  rw [messages_runStarted, appendMissing_eq, activities_append]
  exact List.prefix_append _ _

theorem reduce_guards (applyPatch : ApplyPatch) (state : ApplyState) (event : Event)
    (unsnapped : ∀ snapshot, event ≠ .messagesSnapshot snapshot) :
    Guards event state.messages (reduce applyPatch state event).1.messages := by
  have quiet : namedActivity event = none -> (∀ start, event ≠ .runStarted start) ->
      activities (reduce applyPatch state event).1.messages = activities state.messages ->
      Guards event state.messages (reduce applyPatch state event).1.messages := by
    intro unnamed unstarted same
    refine ⟨fun _ _ => same, ?_, ?_⟩
    · intro id named
      rw [unnamed] at named
      cases named
    · intro start started
      exact absurd started (unstarted start)
  cases event with
  | runStarted event =>
    refine ⟨fun _ impossible => absurd rfl (impossible event), ?_, ?_⟩
    · intro id impossible
      cases impossible
    · intro start _
      exact activities_runStarted state event
  | messagesSnapshot event => exact absurd rfl (unsnapped event)
  | activitySnapshot event =>
    refine ⟨(fun impossible => by cases impossible), ?_, (fun _ impossible => by cases impossible)⟩
    intro id named
    cases named
    exact activities_activitySnapshot state event
  | activityDelta event =>
    refine ⟨(fun impossible => by cases impossible), ?_, (fun _ impossible => by cases impossible)⟩
    intro id named
    cases named
    exact activities_activityDelta applyPatch state event
  | textMessageStart event =>
    refine quiet rfl (fun _ impossible => by cases impossible) (activities_startMessage state ?_ _)
    change (event.role.getD .assistant).toRole ≠ .activity
    cases event.role.getD .assistant with
    | developer | system | assistant | user => exact fun impossible => by cases impossible
  | reasoningMessageStart event =>
    refine quiet rfl (fun _ impossible => by cases impossible) (activities_startMessage state ?_ _)
    exact fun impossible => by cases impossible
  | textMessageContent event | reasoningMessageContent event =>
    exact quiet rfl (fun _ impossible => by cases impossible) (activities_appendMessage state _ _ _)
  | textMessageEnd event | reasoningMessageEnd event =>
    exact quiet rfl (fun _ impossible => by cases impossible) (activities_finishMessage state _ _)
  | toolCallStart event =>
    exact quiet rfl (fun _ impossible => by cases impossible) (activities_toolCallStart state event)
  | toolCallArgs event =>
    refine quiet rfl (fun _ impossible => by cases impossible) ?_
    rw [reduce, toolCallArgs]
    split
    · rfl
    · apply activities_updateToolCall
      intro call
      rfl
  | toolCallEnd event =>
    refine quiet rfl (fun _ impossible => by cases impossible) ?_
    rw [reduce, toolCallEnd]
    split
    · rfl
    · rw [messages_emitIf]
      apply activities_updateToolCall
      intro call
      rfl
  | toolCallResult event =>
    exact quiet rfl (fun _ impossible => by cases impossible) (activities_toolCallResult state event)
  | reasoningEncryptedValue event =>
    exact quiet rfl (fun _ impossible => by cases impossible) (activities_reasoningEncryptedValue state event)
  | stateDelta event =>
    refine quiet rfl (fun _ impossible => by cases impossible) ?_
    rw [reduce, stateDelta]
    split
    · rfl
    · rfl
  | _ => exact quiet rfl (fun _ impossible => by cases impossible) rfl

/-! ## Streams -/

/-- An activity that no activity event of a stream names. -/
def NeverNamed (id : String) (events : List Event) : Prop :=
  ∀ event ∈ events, namedActivity event ≠ some id

/-- The activities of one id, as far as they are protected. -/
def activitiesNamed (id : String) (messages : List Message) : List Outline :=
  (activities messages).filter fun outlined => outlined.id = id

theorem Guards.prefix_named {event : Event} {before after : List Message} (guards : Guards event before after)
    {id : String} (unnamed : namedActivity event ≠ some id) :
    activitiesNamed id before <+: activitiesNamed id after := by
  cases named : namedActivity event with
  | none =>
    by_cases starts : ∃ start, event = .runStarted start
    · rcases starts with ⟨start, rfl⟩
      exact (guards.started start rfl).filter _
    · have same : activitiesNamed id after = activitiesNamed id before := by
        rw [activitiesNamed, activitiesNamed, guards.streams named (not_exists.mp starts)]
      exact same ▸ List.prefix_refl _
  | some other =>
    have apart : id ≠ other := fun same => unnamed (named.trans (congrArg some same.symm))
    -- the activities of `id` are among those that are not of `other`
    have narrow : ∀ messages, activitiesNamed id messages =
        ((activities messages).filter fun outlined => outlined.id ≠ other).filter
          fun outlined => outlined.id = id := by
      intro messages
      rw [activitiesNamed, List.filter_filter]
      apply List.filter_congr
      intro outlined _
      by_cases same : outlined.id = id
      · simp [same, apart]
      · simp [same]
    have same : activitiesNamed id after = activitiesNamed id before := by
      rw [narrow, narrow, guards.named other named]
    exact same ▸ List.prefix_refl _

/-- Of whatever stream, whatever ids it reuses, no event but an activity event
and a snapshot does more to the activities than to add some; an activity event
leaves the others alone; and an activity that is never named keeps its content,
and never gets a tool call, over the whole stream. -/
theorem activities_guarded (applyPatch : ApplyPatch) (initial : ApplyState) (events : List Event) :
    (∀ past event future mutations state, events = past ++ event :: future ->
        Stage.Runs (defaultApplyEvents applyPatch) initial past mutations state ->
        (∀ snapshot, event ≠ .messagesSnapshot snapshot) ->
        Guards event state.messages (reduce applyPatch state event).1.messages) ∧
      ∀ id past future mutations state, events = past ++ future ->
        Stage.Runs (defaultApplyEvents applyPatch) initial past mutations state ->
        NeverNamed id past -> (∀ snapshot, .messagesSnapshot snapshot ∉ past) ->
        activitiesNamed id initial.messages <+: activitiesNamed id state.messages := by
  constructor
  · intro past event future mutations state _ _ unsnapped
    exact reduce_guards applyPatch state event unsnapped
  · intro id past future mutations state _ runs unnamed unsnapped
    refine runs.history (fun _ _ reached =>
      activitiesNamed id initial.messages <+: activitiesNamed id reached.messages) (List.prefix_refl _) ?_
    intro older emitted before event newer after output cut _ now taken
    rcases not_chunk_of_step taken with ⟨_, reduced⟩
    have listed : event ∈ past := by
      rw [cut]
      exact List.mem_append_right _ List.mem_cons_self
    have guards : Guards event before.messages after.messages := by
      have step := reduce_guards applyPatch before event (by
        rintro snapshot rfl
        exact unsnapped snapshot listed)
      rwa [← reduced] at step
    exact now.trans (guards.prefix_named (unnamed event listed))

/-- Every kind of message is started under the id of an activity, and so is a tool call. -/
def collidingStream : List Event :=
  [.runStarted { threadId := "t", runId := "r" },
   .textMessageStart { messageId := "p" },
   .textMessageContent { messageId := "p", delta := "overwritten" },
   .textMessageEnd { messageId := "p" },
   .reasoningMessageStart { messageId := "p" },
   .reasoningMessageContent { messageId := "p", delta := "overwritten" },
   .reasoningMessageEnd { messageId := "p" },
   .toolCallStart { toolCallId := "p", toolCallName := "search", parentMessageId := some "p" },
   .toolCallEnd { toolCallId := "p" },
   .toolCallResult { messageId := "p", toolCallId := "p", content := .text "found" },
   .reasoningEncryptedValue { subtype := .message, entityId := "p", encryptedValue := "sealed" },
   .activitySnapshot { messageId := "q", activityType := "PLAN", content := .object [] },
   .runFinished { threadId := "t", runId := "r" }]

def plannedState : ApplyState where
  messages :=
    [{ id := "p", role := .activity, content := some (.structured (.object [])), activityType := some "PLAN" }]

theorem activities_guarded_colliding :
    activitiesNamed "p" plannedState.messages <+:
      activitiesNamed "p" (replay (fun _ _ => none) plannedState collidingStream).messages := by
  rcases (exists_runs_iff (fun _ _ => none) plannedState _ collidingStream).mpr ⟨by decide, rfl⟩ with
    ⟨mutations, runs⟩
  refine (activities_guarded (fun _ _ => none) plannedState collidingStream).2 "p" collidingStream [] mutations _
    (List.append_nil _).symm runs ?_ ?_
  · unfold NeverNamed
    decide
  · intro snapshot member
    simp [collidingStream] at member

end Apply
end AgUi
