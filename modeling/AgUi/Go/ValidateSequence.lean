import AgUi.Verify.Acceptance

namespace AgUi
namespace Go

open Library Protocol Verify

/-!
# The sequence validator of the Go SDK

`ValidateSequence` keeps the ids of what is open, in one set for each kind, and
the ids of the runs.  The sets are kept across runs: an error or a new run
clears none of them.  Steps are kept by name, whoever they belong to.

The TypeScript verifier forgets what a run left open when the next one starts.
What it holds open is what has been started and not been ended since, in the
current run; what the Go validator holds is the same over the whole stream.
-/

/-! ## One event -/

def thinkingTypes : List String :=
  ["THINKING_START", "THINKING_END", "THINKING_TEXT_MESSAGE_START", "THINKING_TEXT_MESSAGE_CONTENT",
    "THINKING_TEXT_MESSAGE_END"]

def isValidEventType : EventType -> Bool
  | .other name => thinkingTypes.contains name
  | _ => true

/-- The subagent a lifecycle event names, as it is decoded. -/
def subagentRunID (tag : Tag) : String :=
  tag.toOption.getD ""

/-- The run an error names, `""` when it names none. -/
def errorRunID (event : RunErrorEvent) : String :=
  ((event.extra.get? "runId").bind Json.asString?).getD ""

/-- The texts an event must have, in the order they are looked at: the name of
the struct, the field, its value and the complaint. -/
def requiredTexts : Event -> List (String × String × String × String)
  | .runStarted e =>
    [("RunStartedEvent", "threadId", e.threadId, "field is required"),
      ("RunStartedEvent", "runId", e.runId, "field is required")]
  | .runFinished e =>
    [("RunFinishedEvent", "threadId", e.threadId, "field is required"),
      ("RunFinishedEvent", "runId", e.runId, "field is required")]
  | .runError e => [("RunErrorEvent", "message", e.message, "field is required")]
  | .stepStarted e => [("StepStartedEvent", "stepName", e.stepName, "field is required")]
  | .stepFinished e => [("StepFinishedEvent", "stepName", e.stepName, "field is required")]
  | .textMessageStart e => [("TextMessageStartEvent", "messageId", e.messageId, "field is required")]
  | .textMessageContent e =>
    [("TextMessageContentEvent", "messageId", e.messageId, "field is required"),
      ("TextMessageContentEvent", "delta", e.delta, "field must not be empty")]
  | .textMessageEnd e => [("TextMessageEndEvent", "messageId", e.messageId, "field is required")]
  | .toolCallStart e =>
    [("ToolCallStartEvent", "toolCallId", e.toolCallId, "field is required"),
      ("ToolCallStartEvent", "toolCallName", e.toolCallName, "field is required")]
  | .toolCallArgs e =>
    [("ToolCallArgsEvent", "toolCallId", e.toolCallId, "field is required"),
      ("ToolCallArgsEvent", "delta", e.delta, "field is required")]
  | .toolCallEnd e => [("ToolCallEndEvent", "toolCallId", e.toolCallId, "field is required")]
  | .toolCallResult e =>
    [("ToolCallResultEvent", "messageId", e.messageId, "field is required"),
      ("ToolCallResultEvent", "toolCallId", e.toolCallId, "field is required")]
  | .reasoningStart e => [("ReasoningStartEvent", "messageId", e.messageId, "field is required")]
  | .reasoningEnd e => [("ReasoningEndEvent", "messageId", e.messageId, "field is required")]
  | .reasoningMessageStart e => [("ReasoningMessageStartEvent", "messageId", e.messageId, "field is required")]
  | .reasoningMessageContent e =>
    [("ReasoningMessageContentEvent", "messageId", e.messageId, "field is required"),
      ("ReasoningMessageContentEvent", "delta", e.delta, "field must not be empty")]
  | .reasoningMessageEnd e => [("ReasoningMessageEndEvent", "messageId", e.messageId, "field is required")]
  | .reasoningEncryptedValue e =>
    [("ReasoningEncryptedValueEvent", "entityId", e.entityId, "field is required"),
      ("ReasoningEncryptedValueEvent", "encryptedValue", e.encryptedValue, "field is required")]
  | .subagentStarted e =>
    [("SubagentStartedEvent", "subagentRunId", subagentRunID e.subagentRunId, "field is required"),
      ("SubagentStartedEvent", "name", e.name.getD "", "field is required")]
  | .subagentFinished e =>
    [("SubagentFinishedEvent", "subagentRunId", subagentRunID e.subagentRunId, "field is required")]
  | .subagentError e =>
    [("SubagentErrorEvent", "subagentRunId", subagentRunID e.subagentRunId, "field is required"),
      ("SubagentErrorEvent", "message", e.message.getD "", "field is required")]
  | .activitySnapshot e =>
    [("ActivitySnapshotEvent", "messageId", e.messageId, "field is required"),
      ("ActivitySnapshotEvent", "activityType", e.activityType, "field is required")]
  | .activityDelta e =>
    [("ActivityDeltaEvent", "messageId", e.messageId, "field is required"),
      ("ActivityDeltaEvent", "activityType", e.activityType, "field is required")]
  | .custom e => [("CustomEvent", "name", e.name, "field is required")]
  | _ => []

/-- `Validate`: the error of an event on its own.  What is asked of payloads,
which play no part in a sequence, is a parameter. -/
def validate (payloadError : Event -> Option String) (event : Event) : Option String :=
  if isValidEventType event.type then
    match (requiredTexts event).find? fun required => required.2.2.1 = "" with
    | some (struct, field, _, complaint) => some (struct ++ " validation failed: " ++ field ++ " " ++ complaint)
    | none => payloadError event
  else some ("BaseEvent validation failed: invalid event type '" ++ event.type.name ++ "'")

/-! ## The sequence -/

/-- The kinds of item that are tracked. -/
inductive Tracked where
  | step
  | message
  | toolCall
  | reasoningMessage
  | subagent
deriving DecidableEq

/-- What is open, and which runs have started and finished. -/
structure Sequence where
  activeRuns : OrderedSet String := OrderedMap.empty
  activeMessages : OrderedSet String := OrderedMap.empty
  activeReasoningMessages : OrderedSet String := OrderedMap.empty
  activeToolCalls : OrderedSet String := OrderedMap.empty
  activeSteps : OrderedSet String := OrderedMap.empty
  activeSubagents : OrderedSet String := OrderedMap.empty
  finishedRuns : OrderedSet String := OrderedMap.empty

def Tracked.noun : Tracked -> String
  | .step => "step"
  | .message => "message"
  | .toolCall => "tool call"
  | .reasoningMessage => "reasoning message"
  | .subagent => "subagent"

namespace Sequence

def active (sequence : Sequence) : Tracked -> OrderedSet String
  | .step => sequence.activeSteps
  | .message => sequence.activeMessages
  | .toolCall => sequence.activeToolCalls
  | .reasoningMessage => sequence.activeReasoningMessages
  | .subagent => sequence.activeSubagents

def withActive (sequence : Sequence) (tracked : Tracked) (ids : OrderedSet String) : Sequence :=
  match tracked with
  | .step => { sequence with activeSteps := ids }
  | .message => { sequence with activeMessages := ids }
  | .toolCall => { sequence with activeToolCalls := ids }
  | .reasoningMessage => { sequence with activeReasoningMessages := ids }
  | .subagent => { sequence with activeSubagents := ids }

/-- A start of an item. -/
def start (sequence : Sequence) (tracked : Tracked) (id : String) : Except String Sequence :=
  if (sequence.active tracked).has id then .error (tracked.noun ++ " " ++ id ++ " already started")
  else .ok (sequence.withActive tracked ((sequence.active tracked).add id))

/-- Something said of an item that must have been started. -/
def use (sequence : Sequence) (tracked : Tracked) (verb id : String) : Except String Sequence :=
  if (sequence.active tracked).has id then .ok sequence
  else .error ("cannot " ++ verb ++ " " ++ tracked.noun ++ " " ++ id ++ " that was not started")

def drop (sequence : Sequence) (tracked : Tracked) (id : String) : Sequence :=
  sequence.withActive tracked ((sequence.active tracked).erase id)

/-- An end of an item. -/
def finish (sequence : Sequence) (tracked : Tracked) (verb id : String) : Except String Sequence :=
  if (sequence.active tracked).has id then .ok (sequence.drop tracked id)
  else .error ("cannot " ++ verb ++ " " ++ tracked.noun ++ " " ++ id ++ " that was not started")

def runStarted (sequence : Sequence) (runID : String) : Except String Sequence :=
  if sequence.activeRuns.has runID then .error ("run " ++ runID ++ " already started")
  else if sequence.finishedRuns.has runID then .error ("cannot restart finished run " ++ runID)
  else .ok { sequence with activeRuns := sequence.activeRuns.add runID }

def endRun (sequence : Sequence) (runID : String) : Sequence :=
  { sequence with
    activeRuns := sequence.activeRuns.erase runID
    finishedRuns := sequence.finishedRuns.add runID }

def runFinished (sequence : Sequence) (runID : String) : Except String Sequence :=
  if sequence.activeRuns.has runID then .ok (sequence.endRun runID)
  else .error ("cannot finish run " ++ runID ++ " that was not started")

/-- An error without a run id ends no run. -/
def runError (sequence : Sequence) (runID : String) : Except String Sequence :=
  if runID = "" then .ok sequence
  else if sequence.activeRuns.has runID then .ok (sequence.endRun runID)
  else .error ("cannot error run " ++ runID ++ " that was not started")

/-- The switch over the event type. -/
def step (sequence : Sequence) : Event -> Except String Sequence
  | .runStarted e => sequence.runStarted e.runId
  | .runFinished e => sequence.runFinished e.runId
  | .runError e => sequence.runError (errorRunID e)
  | .stepStarted e => sequence.start .step e.stepName
  | .stepFinished e => sequence.finish .step "finish" e.stepName
  | .textMessageStart e => sequence.start .message e.messageId
  | .textMessageContent e => sequence.use .message "add content to" e.messageId
  | .textMessageEnd e => sequence.finish .message "end" e.messageId
  | .toolCallStart e => sequence.start .toolCall e.toolCallId
  | .toolCallArgs e => sequence.use .toolCall "add args to" e.toolCallId
  | .toolCallEnd e => sequence.finish .toolCall "end" e.toolCallId
  | .reasoningMessageStart e => sequence.start .reasoningMessage e.messageId
  | .reasoningMessageContent e => sequence.use .reasoningMessage "add content to" e.messageId
  | .reasoningMessageEnd e => sequence.finish .reasoningMessage "end" e.messageId
  | .subagentStarted e => sequence.start .subagent (subagentRunID e.subagentRunId)
  | .subagentFinished e => sequence.finish .subagent "finish" (subagentRunID e.subagentRunId)
  -- a subagent can error without having been announced
  | .subagentError e => .ok (sequence.drop .subagent (subagentRunID e.subagentRunId))
  | .other e =>
    if thinkingTypes.contains e.type then .ok sequence
    else .error ("unknown event type in sequence: " ++ e.type)
  | _ => .ok sequence

end Sequence

/-- The error the events from `index` on meet, if any. -/
def validateFrom (payloadError : Event -> Option String) (sequence : Sequence) : Nat -> List Event -> Option String
  | _, [] => none
  | index, event :: rest =>
    match validate payloadError event with
    | some error => some ("event " ++ toString index ++ " validation failed: " ++ error)
    | none =>
      match sequence.step event with
      | .error error => some error
      | .ok sequence => validateFrom payloadError sequence (index + 1) rest

/-- The error of the first event that does not fit, if there is one. -/
def validateSequence (payloadError : Event -> Option String) (events : List Event) : Option String :=
  validateFrom payloadError {} 0 events

/-! ## What is open -/

/-- The item an id of a tracked kind stands for. -/
def Tracked.item : Tracked -> String -> Item
  | .step, name => .step name
  | .message, id => .entity .textMessage id
  | .toolCall, id => .entity .toolCall id
  | .reasoningMessage, id => .entity .reasoningMessage id
  | .subagent, id => .subagent id

/-- Started somewhere in the stream, in this run or an earlier one, and not ended since. -/
def Pending (past : List Event) (item : Item) : Prop :=
  Since (fun event => opens? event = some item) (fun event => closes? event = some item) past

/-- The event starts nothing that is pending. -/
def StartsAfresh (past : List Event) (event : Event) : Prop :=
  ∀ (tracked : Tracked) id, opens? event = some (tracked.item id) -> ¬ Pending past (tracked.item id)

theorem Tracked.item_injective {tracked other : Tracked} {id named : String}
    (same : tracked.item id = other.item named) :
    tracked = other ∧ id = named := by
  cases tracked <;> cases other <;> cases same <;> exact ⟨rfl, rfl⟩

theorem Tracked.item_eq_iff (tracked other : Tracked) (id named : String) :
    tracked.item id = other.item named ↔ tracked = other ∧ id = named :=
  ⟨Tracked.item_injective, fun both => by rw [both.1, both.2]⟩

theorem Tracked.item_ne_span (tracked : Tracked) (id span : String) :
    tracked.item id ≠ .entity .reasoningSpan span := by
  cases tracked <;> exact fun same => by cases same

namespace Sequence

variable {sequence after : Sequence}

theorem active_withActive (tracked other : Tracked) (ids : OrderedSet String) :
    (sequence.withActive tracked ids).active other = if other = tracked then ids else sequence.active other := by
  cases tracked <;> cases other <;> rfl

theorem runs_withActive (tracked : Tracked) (ids : OrderedSet String) :
    (sequence.withActive tracked ids).activeRuns = sequence.activeRuns ∧
      (sequence.withActive tracked ids).finishedRuns = sequence.finishedRuns := by
  cases tracked <;> exact ⟨rfl, rfl⟩

/-- A start adds its item. -/
theorem has_start {tracked : Tracked} {id : String} (started : sequence.start tracked id = .ok after)
    (other : Tracked) (named : String) :
    (after.active other).has named = true ↔
      tracked.item id = other.item named ∨ (sequence.active other).has named = true := by
  unfold start at started
  split at started
  · cases started
  · cases started
    rw [active_withActive, Tracked.item_eq_iff]
    by_cases same : other = tracked
    · subst same
      rw [if_pos rfl, OrderedSet.has_add, Bool.or_eq_true, decide_eq_true_eq]
      exact or_congr_left ⟨fun same => ⟨rfl, same.symm⟩, fun both => both.2.symm⟩
    · simp [same, Ne.symm same]

/-- An item that is dropped is gone. -/
theorem has_drop (tracked other : Tracked) (id named : String) :
    ((sequence.drop tracked id).active other).has named = true ↔
      (sequence.active other).has named = true ∧ ¬ tracked.item id = other.item named := by
  unfold drop
  rw [active_withActive, Tracked.item_eq_iff]
  by_cases same : other = tracked
  · subst same
    rw [if_pos rfl, OrderedMap.has_erase, Bool.and_eq_true, Bool.not_eq_true', decide_eq_false_iff_not, and_comm]
    exact and_congr_right' (not_congr ⟨fun same => ⟨rfl, same.symm⟩, fun both => both.2.symm⟩)
  · simp [same, Ne.symm same]

theorem has_finish {tracked : Tracked} {verb id : String} (finished : sequence.finish tracked verb id = .ok after)
    (other : Tracked) (named : String) :
    (after.active other).has named = true ↔
      (sequence.active other).has named = true ∧ ¬ tracked.item id = other.item named := by
  unfold finish at finished
  split at finished
  · cases finished
    exact has_drop tracked other id named
  · cases finished

theorem eq_of_use {tracked : Tracked} {verb id : String} (used : sequence.use tracked verb id = .ok after) :
    after = sequence := by
  unfold use at used
  split at used
  · cases used
    rfl
  · cases used

theorem active_runStarted {runID : String} (started : sequence.runStarted runID = .ok after) (tracked : Tracked) :
    after.active tracked = sequence.active tracked := by
  unfold runStarted at started
  split at started
  · cases started
  · split at started
    · cases started
    · cases started
      cases tracked <;> rfl

theorem active_runFinished {runID : String} (finished : sequence.runFinished runID = .ok after) (tracked : Tracked) :
    after.active tracked = sequence.active tracked := by
  unfold runFinished at finished
  split at finished
  · cases finished
    cases tracked <;> rfl
  · cases finished

theorem active_runError {runID : String} (errored : sequence.runError runID = .ok after) (tracked : Tracked) :
    after.active tracked = sequence.active tracked := by
  unfold runError at errored
  split at errored
  · cases errored
    rfl
  · split at errored
    · cases errored
      cases tracked <;> rfl
    · cases errored

end Sequence

/-- Every lifecycle event of a subagent names it. -/
def NamesSubagent (event : Event) : Prop :=
  event.isSubagentLifecycle = true -> event.subagentRunId.toOption = some (subagentRunID event.subagentRunId)

theorem namesSubagent_of_allows {record : Record} {event : Event} (allowed : Allows record event) :
    NamesSubagent event := by
  intro lifecycle
  have named : ∀ {tag : Tag} {id : String}, tag.toOption = some id -> tag.toOption = some (subagentRunID tag) := by
    intro tag id same
    rw [subagentRunID, same]
    rfl
  cases event with
  | subagentStarted e =>
    rcases (show SubagentStartAllowed record e from allowed.case).identified with ⟨id, same, _⟩
    exact named same
  | subagentFinished e =>
    rcases (show SubagentCloseAllowed record e.subagentRunId.toOption from allowed.case) with ⟨id, same, _⟩
    exact named same
  | subagentError e =>
    rcases (show e.message.isSome ∧ SubagentCloseAllowed record e.subagentRunId.toOption from allowed.case) with
      ⟨_, id, same, _⟩
    exact named same
  | _ => cases lifecycle

/-- What a step leaves open. -/
theorem Sequence.has_step {sequence after : Sequence} {event : Event} (named : NamesSubagent event)
    (stepped : sequence.step event = .ok after) (tracked : Tracked) (id : String) :
    (after.active tracked).has id = true ↔
      opens? event = some (tracked.item id) ∨
        ((sequence.active tracked).has id = true ∧ ¬ closes? event = some (tracked.item id)) := by
  have neutral : after.active tracked = sequence.active tracked -> opens? event = none -> closes? event = none ->
      ((after.active tracked).has id = true ↔ opens? event = some (tracked.item id) ∨
        ((sequence.active tracked).has id = true ∧ ¬ closes? event = some (tracked.item id))) := by
    intro same opens closes
    rw [same, opens, closes]
    simp
  have starting : ∀ {kind : Tracked} {name : String}, sequence.start kind name = .ok after ->
      opens? event = some (kind.item name) -> closes? event = none ->
      ((after.active tracked).has id = true ↔ opens? event = some (tracked.item id) ∨
        ((sequence.active tracked).has id = true ∧ ¬ closes? event = some (tracked.item id))) := by
    intro kind name started opens closes
    rw [has_start started, opens, closes]
    simp
  have ending : ∀ {kind : Tracked} {name : String},
      ((after.active tracked).has id = true ↔
        (sequence.active tracked).has id = true ∧ ¬ kind.item name = tracked.item id) ->
      opens? event = none -> closes? event = some (kind.item name) ->
      ((after.active tracked).has id = true ↔ opens? event = some (tracked.item id) ∨
        ((sequence.active tracked).has id = true ∧ ¬ closes? event = some (tracked.item id))) := by
    intro kind name ended opens closes
    rw [ended, opens, closes]
    simp
  cases event with
  | stepStarted e | textMessageStart e | toolCallStart e | reasoningMessageStart e => exact starting stepped rfl rfl
  | subagentStarted e =>
    exact starting stepped (congrArg (Option.map Item.subagent) (named rfl)) rfl
  | stepFinished e | textMessageEnd e | toolCallEnd e | reasoningMessageEnd e =>
    exact ending (has_finish stepped tracked id) rfl rfl
  | subagentFinished e =>
    exact ending (has_finish stepped tracked id) rfl (congrArg (Option.map Item.subagent) (named rfl))
  | subagentError e =>
    cases stepped
    exact ending (has_drop .subagent tracked _ id) rfl (congrArg (Option.map Item.subagent) (named rfl))
  | textMessageContent e | toolCallArgs e | reasoningMessageContent e =>
    exact neutral (congrArg (·.active tracked) (eq_of_use stepped)) rfl rfl
  | runStarted e => exact neutral (active_runStarted stepped tracked) rfl rfl
  | runFinished e => exact neutral (active_runFinished stepped tracked) rfl rfl
  | runError e => exact neutral (active_runError stepped tracked) rfl rfl
  | reasoningStart e | reasoningEnd e =>
    cases stepped
    have untracked := tracked.item_ne_span id e.messageId
    simp [opens?, closes?, Ne.symm untracked]
  | other e =>
    rw [step] at stepped
    split at stepped
    · cases stepped
      exact neutral rfl rfl rfl
    · cases stepped
  | _ =>
    cases stepped
    exact neutral rfl rfl rfl

/-! ## What the verifier holds open -/

/-- Open in the record, whoever it belongs to. -/
def Held (record : Record) : Item -> Prop
  | .entity bracket id => record (.opened bracket id) = true
  | .step name => ∃ owner : Owner, record (.step owner name) = true
  | .subagent id => record (.subagent id) = .active

/-- No two agents have a step of one name. -/
def OneOwner (record : Record) : Prop :=
  ∀ (first second : Owner) name, record (.step first name) = true -> record (.step second name) = true -> first = second

/-- What an event does to a step of an agent. -/
def stepEffect (owner : Owner) (name : String) : Event -> Option Bool
  | .stepStarted e => if e.subagentRunId.toOption = owner ∧ e.stepName = name then some true else none
  | .stepFinished e => if e.subagentRunId.toOption = owner ∧ e.stepName = name then some false else none
  | .runStarted _ => some false
  | _ => none

theorem step_next (record : Record) (event : Event) (owner : Owner) (name : String) :
    next record event (.step owner name) = (stepEffect owner name event).getD (record (.step owner name)) := by
  cases event with
  | textMessageStart e | toolCallStart e | reasoningStart e | reasoningMessageStart e =>
    simp [next, openNext, callNext, Record.claim_of_ne, Record.put_of_ne, stepEffect]
  | textMessageEnd e | toolCallEnd e | reasoningMessageEnd e | reasoningEnd e | toolCallResult e
  | runFinished e | runError e =>
    simp [next, closeNext, Record.put_of_ne, stepEffect]
  | stepStarted e | stepFinished e =>
    rw [next, Record.put_step, stepEffect]
    by_cases same : e.subagentRunId.toOption = owner ∧ e.stepName = name
    · simp [same.1, same.2]
    · rw [if_neg same, if_neg fun equal => same ⟨equal.1.symm, equal.2.symm⟩]
      rfl
  | subagentStarted e | subagentFinished e | subagentError e => simp [next, subagentNext_of_ne, stepEffect]
  | messagesSnapshot e => simp [next, Record.seedMessages_of_not_owner, stepEffect]
  | runStarted e =>
    simp [next, Record.seedMessages_of_not_owner, Record.put_of_ne, Record.blank, stepEffect]
  | activitySnapshot e => simp [next, activityNext_of_ne, stepEffect]
  | _ => rfl

/-- An item that is no step is held as the record of the parent agent has it. -/
theorem held_iff_isOpenIn (record : Record) {item : Item} (noStep : ∀ name, item ≠ .step name) :
    Held record item ↔ item.IsOpenIn record := by
  cases item with
  | entity bracket id | subagent id => exact Iff.rfl
  | step name => exact absurd rfl (noStep name)

/-- What is held after an event was started by it, or was held and is not ended by it. -/
theorem held_next {record : Record} {event : Event} (allowed : Allows record event) (oneOwner : OneOwner record)
    {item : Item} (held : Held (next record event) item) :
    opens? event = some item ∨ (Held record item ∧ ¬ closes? event = some item) := by
  by_cases noStep : ∀ name, item ≠ .step name
  · rw [held_iff_isOpenIn _ noStep, isOpenIn_next_of record item fun name same => absurd same (noStep name)] at held
    rw [held_iff_isOpenIn _ noStep]
    exact held.imp_right fun both => ⟨both.1, fun closes => both.2 (.inl closes)⟩
  · rcases not_forall_not.mp noStep with ⟨name, rfl⟩
    rcases held with ⟨owner, active⟩
    rw [step_next] at active
    cases event with
    | stepStarted e =>
      rw [stepEffect] at active
      split at active
      case isTrue same => exact .inl (by rw [opens?, same.2])
      case isFalse => exact .inr ⟨⟨owner, active⟩, fun closes => by cases closes⟩
    | stepFinished e =>
      rw [stepEffect] at active
      split at active
      case isTrue => cases active
      case isFalse other =>
        refine .inr ⟨⟨owner, active⟩, ?_⟩
        intro closes
        have same : e.stepName = name := by
          cases closes
          rfl
        have finishes : record (.step e.subagentRunId.toOption e.stepName) = true := allowed.case
        rw [same] at finishes
        exact other ⟨oneOwner _ _ name finishes active, same⟩
    | runStarted e => cases active
    | subagentFinished e | subagentError e =>
      refine .inr ⟨⟨owner, active⟩, ?_⟩
      rw [closes?]
      cases e.subagentRunId.toOption <;> exact fun closes => by cases closes
    | _ => exact .inr ⟨⟨owner, active⟩, fun closes => by cases closes⟩

/-- A step that is active after an event was started by it, or was active before. -/
theorem step_active_next {record : Record} {event : Event} {owner : Owner} {name : String}
    (active : next record event (.step owner name) = true) :
    (∃ e, event = .stepStarted e ∧ e.subagentRunId.toOption = owner ∧ e.stepName = name) ∨
      record (.step owner name) = true := by
  rw [step_next] at active
  cases event with
  | stepStarted e =>
    rw [stepEffect] at active
    split at active
    case isTrue same => exact .inl ⟨e, rfl, same⟩
    case isFalse => exact .inr active
  | stepFinished e =>
    rw [stepEffect] at active
    split at active
    case isTrue => cases active
    case isFalse => exact .inr active
  | runStarted e => cases active
  | _ => exact .inr active

/-- Steps keep to one agent where none is started that is held. -/
theorem oneOwner_next {record : Record} {event : Event} (oneOwner : OneOwner record)
    (fresh : ∀ name, opens? event = some (.step name) -> ¬ Held record (.step name)) :
    OneOwner (next record event) := by
  intro first second name one other
  rcases step_active_next one with ⟨e, rfl, same, named⟩ | firstHeld
  · rcases step_active_next other with ⟨e', equal, same', _⟩ | secondHeld
    · cases equal
      exact same.symm.trans same'
    · exact absurd ⟨second, secondHeld⟩ (fresh name (by rw [opens?, named]))
  · rcases step_active_next other with ⟨e, rfl, _, named⟩ | secondHeld
    · exact absurd ⟨first, firstHeld⟩ (fresh name (by rw [opens?, named]))
    · exact oneOwner first second name firstHeld secondHeld

/-! ## Runs -/

def startedRun? : Event -> Option String
  | .runStarted e => some e.runId
  | _ => none

/-- The runs a stream has started. -/
def startedRuns (past : List Event) : List String :=
  past.filterMap startedRun?

def runAfter (current : Option String) : Event -> Option String
  | .runStarted e => some e.runId
  | .runFinished _ | .runError _ => none
  | _ => current

/-- The run in progress. -/
def activeRun (past : List Event) : Option String :=
  past.foldl runAfter none

/-- An event that ends a run names the one in progress, if it names one. -/
def NamesActiveRun (past : List Event) : Event -> Prop
  | .runFinished e => e.runId ≠ "" -> activeRun past = some e.runId
  | .runError e => errorRunID e ≠ "" -> activeRun past = some (errorRunID e)
  | _ => True

namespace Sequence

variable {sequence after : Sequence}

theorem start_ok_iff (tracked : Tracked) (id : String) :
    (∃ after, sequence.start tracked id = .ok after) ↔ ¬ (sequence.active tracked).has id = true := by
  rw [start]
  split
  case isTrue held => exact iff_of_false (fun ⟨_, impossible⟩ => by cases impossible) (not_not_intro held)
  case isFalse free => exact iff_of_true ⟨_, rfl⟩ free

theorem use_ok {tracked : Tracked} {verb id : String} (held : (sequence.active tracked).has id = true) :
    ∃ after, sequence.use tracked verb id = .ok after :=
  ⟨sequence, by rw [use, if_pos held]⟩

theorem finish_ok {tracked : Tracked} {verb id : String} (held : (sequence.active tracked).has id = true) :
    ∃ after, sequence.finish tracked verb id = .ok after :=
  ⟨sequence.drop tracked id, by rw [finish, if_pos held]⟩

/-- A run that is on record was so before, or is started. -/
def Records (sequence : Sequence) (runID : String) : Prop :=
  sequence.activeRuns.has runID = true ∨ sequence.finishedRuns.has runID = true

theorem records_endRun {ended : String} (active : sequence.activeRuns.has ended = true) {runID : String}
    (recorded : (sequence.endRun ended).Records runID) : sequence.Records runID := by
  rcases recorded with still | finished
  · rw [endRun, OrderedMap.has_erase, Bool.and_eq_true] at still
    exact .inl still.2
  · rw [endRun, OrderedSet.has_add, Bool.or_eq_true, decide_eq_true_eq] at finished
    rcases finished with rfl | earlier
    · exact .inl active
    · exact .inr earlier

/-- What a step does to the runs. -/
theorem runs_step {event : Event} (stepped : sequence.step event = .ok after) :
    (∀ runID, after.Records runID -> startedRun? event = some runID ∨ sequence.Records runID) ∧
      (∀ current runID, (current = some runID -> sequence.activeRuns.has runID = true) ->
        runAfter current event = some runID -> after.activeRuns.has runID = true) := by
  have kept : after.activeRuns = sequence.activeRuns ∧ after.finishedRuns = sequence.finishedRuns ->
      (∀ current, runAfter current event = current) ->
      (∀ runID, after.Records runID -> startedRun? event = some runID ∨ sequence.Records runID) ∧
        (∀ current runID, (current = some runID -> sequence.activeRuns.has runID = true) ->
          runAfter current event = some runID -> after.activeRuns.has runID = true) := by
    rintro ⟨active, finished⟩ same
    constructor
    · intro runID recorded
      rw [Records, active, finished] at recorded
      exact .inr recorded
    · intro current runID before now
      rw [same] at now
      rw [active]
      exact before now
  have starting : ∀ {tracked : Tracked} {id : String}, sequence.start tracked id = .ok after ->
      after.activeRuns = sequence.activeRuns ∧ after.finishedRuns = sequence.finishedRuns := by
    intro tracked id started
    unfold start at started
    split at started
    · cases started
    · cases started
      exact runs_withActive tracked _
  have finishing : ∀ {tracked : Tracked} {verb id : String}, sequence.finish tracked verb id = .ok after ->
      after.activeRuns = sequence.activeRuns ∧ after.finishedRuns = sequence.finishedRuns := by
    intro tracked verb id finished
    unfold finish at finished
    split at finished
    · cases finished
      exact runs_withActive tracked _
    · cases finished
  cases event with
  | stepStarted e | textMessageStart e | toolCallStart e | reasoningMessageStart e | subagentStarted e =>
    exact kept (starting stepped) fun _ => rfl
  | stepFinished e | textMessageEnd e | toolCallEnd e | reasoningMessageEnd e | subagentFinished e =>
    exact kept (finishing stepped) fun _ => rfl
  | subagentError e =>
    cases stepped
    exact kept (runs_withActive .subagent _) fun _ => rfl
  | textMessageContent e | toolCallArgs e | reasoningMessageContent e =>
    rw [eq_of_use stepped] at kept ⊢
    exact kept ⟨rfl, rfl⟩ fun _ => rfl
  | runStarted e =>
    rw [step, runStarted] at stepped
    split at stepped
    · cases stepped
    · split at stepped
      · cases stepped
      · cases stepped
        constructor
        · rintro runID (active | finished)
          · rw [OrderedSet.has_add, Bool.or_eq_true, decide_eq_true_eq] at active
            rcases active with rfl | earlier
            · exact .inl rfl
            · exact .inr (.inl earlier)
          · exact .inr (.inr finished)
        · intro current runID _ now
          cases now
          rw [OrderedSet.has_add, decide_eq_true rfl, Bool.true_or]
  | runFinished e =>
    rw [step, runFinished] at stepped
    split at stepped
    case isTrue active =>
      cases stepped
      exact ⟨fun runID recorded => .inr (records_endRun active recorded),
        fun current runID _ impossible => by cases impossible⟩
    case isFalse => cases stepped
  | runError e =>
    rw [step, runError] at stepped
    split at stepped
    · cases stepped
      exact ⟨fun runID recorded => .inr recorded, fun current runID _ impossible => by cases impossible⟩
    · split at stepped
      case isTrue active =>
        cases stepped
        exact ⟨fun runID recorded => .inr (records_endRun active recorded),
          fun current runID _ impossible => by cases impossible⟩
      case isFalse => cases stepped
  | other e =>
    rw [step] at stepped
    split at stepped
    · cases stepped
      exact kept ⟨rfl, rfl⟩ fun _ => rfl
    · cases stepped
  | _ =>
    cases stepped
    exact kept ⟨rfl, rfl⟩ fun _ => rfl

end Sequence

/-! ## Both validators along a stream -/

/-- What the two validators keep of the events so far. -/
structure Follows (past : List Event) (record : Record) (sequence : Sequence) : Prop where
  active : ∀ tracked id, (sequence.active tracked).has id = true ↔ Pending past (tracked.item id)
  held : ∀ item, Held record item -> Pending past item
  oneOwner : OneOwner record
  runs : ∀ runID, sequence.Records runID -> runID ∈ startedRuns past
  current : ∀ runID, activeRun past = some runID -> sequence.activeRuns.has runID = true

theorem follows_initial : Follows [] Record.blank {} where
  active := by
    intro tracked id
    apply iff_of_false _ (not_since_nil _ _)
    cases tracked <;> exact Bool.false_ne_true
  held := by
    intro item held
    cases item with
    | entity bracket id => exact Bool.noConfusion (show false = true from held)
    | step name =>
      rcases held with ⟨owner, active⟩
      exact Bool.noConfusion (show false = true from active)
    | subagent id => exact SubagentStatus.noConfusion (show SubagentStatus.unknown = .active from held)
  oneOwner := fun first second name active => Bool.noConfusion (show false = true from active)
  runs := by
    rintro runID (impossible | impossible) <;> cases impossible
  current := fun runID impossible => by cases impossible

theorem startsAfresh_iff {past : List Event} {event : Event} {tracked : Tracked} {id : String}
    (opens : opens? event = some (tracked.item id)) : StartsAfresh past event ↔ ¬ Pending past (tracked.item id) := by
  constructor
  · exact fun afresh => afresh tracked id opens
  · intro free other named same
    rwa [← Option.some.inj (opens.symm.trans same)]

theorem startsAfresh_of_untracked {past : List Event} {event : Event}
    (untracked : ∀ tracked id, opens? event ≠ some (Tracked.item tracked id)) : StartsAfresh past event :=
  fun tracked id opens => absurd opens (untracked tracked id)

variable {payloadError : Event -> Option String}

theorem isValidEventType_of_validate {event : Event}
    (valid : validate payloadError event = none) : isValidEventType event.type = true := by
  by_contra other
  rw [validate, if_neg other] at valid
  cases valid

theorem required_of_validate {event : Event}
    (valid : validate payloadError event = none) {required : String × String × String × String}
    (member : required ∈ requiredTexts event) : required.2.2.1 ≠ "" := by
  rw [validate, if_pos (isValidEventType_of_validate valid)] at valid
  split at valid
  case h_1 => cases valid
  case h_2 missing => simpa using List.find?_eq_none.mp missing required member

/-- The verifier and the validator take one event in step. -/
theorem Follows.step {past : List Event} {record : Record} {sequence after : Sequence}
    (follows : Follows past record sequence) {event : Event} (allowed : Allows record event)
    (afresh : StartsAfresh past event) (stepped : sequence.step event = .ok after) :
    Follows (past ++ [event]) (next record event) after where
  active := by
    intro tracked id
    rw [Sequence.has_step (namesSubagent_of_allows allowed) stepped, Pending, since_snoc, follows.active]
    rfl
  held := by
    intro item held
    rw [Pending, since_snoc]
    exact (held_next allowed follows.oneOwner held).imp_right fun both => ⟨follows.held item both.1, both.2⟩
  oneOwner := by
    apply oneOwner_next follows.oneOwner
    intro name opens held
    exact afresh .step name opens (follows.held _ held)
  runs := by
    intro runID recorded
    rw [startedRuns, List.filterMap_append, List.mem_append]
    rcases (Sequence.runs_step stepped).1 runID recorded with started | earlier
    · exact .inr (by simp [started])
    · exact .inl (follows.runs runID earlier)
  current := by
    intro runID now
    rw [activeRun, List.foldl_append, List.foldl_cons, List.foldl_nil] at now
    exact (Sequence.runs_step stepped).2 _ runID (follows.current runID) now

/-- An event that the verifier allows is taken exactly when it starts nothing that is pending. -/
theorem Follows.step_ok_iff {past : List Event} {record : Record} {sequence : Sequence}
    (follows : Follows past record sequence) {event : Event}
    (valid : validate payloadError event = none) (allowed : Allows record event) (named : NamesActiveRun past event)
    (unused : ∀ runID, startedRun? event = some runID -> runID ∉ startedRuns past) :
    (∃ after, sequence.step event = .ok after) ↔ StartsAfresh past event := by
  have starting : ∀ (tracked : Tracked) {id : String}, sequence.step event = sequence.start tracked id ->
      opens? event = some (tracked.item id) ->
      ((∃ after, sequence.step event = .ok after) ↔ StartsAfresh past event) := by
    intro tracked id same opens
    rw [same, Sequence.start_ok_iff, follows.active, startsAfresh_iff opens]
  have taken : (∃ after, sequence.step event = .ok after) -> opens? event = none ->
      ((∃ after, sequence.step event = .ok after) ↔ StartsAfresh past event) := by
    intro ok opens
    exact iff_of_true ok (startsAfresh_of_untracked fun tracked id same => by rw [opens] at same; cases same)
  have holds : ∀ (tracked : Tracked) {id : String}, Held record (tracked.item id) ->
      (sequence.active tracked).has id = true :=
    fun tracked id held => (follows.active tracked id).mpr (follows.held _ held)
  have subagents := namesSubagent_of_allows allowed
  have ofClose : ∀ {tag : Tag}, tag.toOption = some (subagentRunID tag) ->
      SubagentCloseAllowed record tag.toOption -> Held record (.subagent (subagentRunID tag)) := by
    rintro tag identified ⟨id, same, active⟩
    rw [identified] at same
    cases same
    exact active
  cases event with
  | stepStarted e => exact starting .step rfl rfl
  | textMessageStart e => exact starting .message rfl rfl
  | toolCallStart e => exact starting .toolCall rfl rfl
  | reasoningMessageStart e => exact starting .reasoningMessage rfl rfl
  | subagentStarted e =>
    exact starting .subagent rfl (congrArg (Option.map Item.subagent) (subagents rfl))
  | stepFinished e =>
    exact taken (Sequence.finish_ok (holds .step ⟨_, show record (.step _ _) = true from allowed.case⟩)) rfl
  | textMessageEnd e =>
    exact taken (Sequence.finish_ok (holds .message (show ContinueAllowed record _ _ _ from allowed.case).1)) rfl
  | toolCallEnd e =>
    exact taken (Sequence.finish_ok (holds .toolCall (show ContinueAllowed record _ _ _ from allowed.case).1)) rfl
  | reasoningMessageEnd e =>
    exact taken
      (Sequence.finish_ok (holds .reasoningMessage (show ContinueAllowed record _ _ _ from allowed.case).1)) rfl
  | textMessageContent e =>
    exact taken (Sequence.use_ok (holds .message (show ContinueAllowed record _ _ _ from allowed.case).1)) rfl
  | toolCallArgs e =>
    exact taken (Sequence.use_ok (holds .toolCall (show ContinueAllowed record _ _ _ from allowed.case).1)) rfl
  | reasoningMessageContent e =>
    exact taken
      (Sequence.use_ok (holds .reasoningMessage (show ContinueAllowed record _ _ _ from allowed.case).1)) rfl
  | subagentFinished e =>
    exact taken (Sequence.finish_ok (holds .subagent (ofClose (subagents rfl) allowed.case))) rfl
  | runStarted e =>
    refine taken ⟨{ sequence with activeRuns := sequence.activeRuns.add e.runId }, ?_⟩ rfl
    have fresh := mt (follows.runs e.runId) (unused e.runId rfl)
    rw [Sequence.step, Sequence.runStarted, if_neg fun active => fresh (.inl active),
      if_neg fun finished => fresh (.inr finished)]
  | runFinished e =>
    have present : e.runId ≠ "" :=
      required_of_validate valid (List.mem_cons_of_mem ("RunFinishedEvent", "threadId", e.threadId, "field is required")
        (List.mem_cons_self (a := ("RunFinishedEvent", "runId", e.runId, "field is required"))))
    refine taken ⟨sequence.endRun e.runId, ?_⟩ rfl
    rw [Sequence.step, Sequence.runFinished, if_pos (follows.current _ (named present))]
  | runError e =>
    apply taken _ rfl
    rw [Sequence.step, Sequence.runError]
    by_cases anonymous : errorRunID e = ""
    · exact ⟨sequence, if_pos anonymous⟩
    · rw [if_neg anonymous, if_pos (follows.current _ (named anonymous))]
      exact ⟨_, rfl⟩
  | other e =>
    have thinking : thinkingTypes.contains e.type = true := isValidEventType_of_validate valid
    exact taken ⟨sequence, by rw [Sequence.step, if_pos thinking]⟩ rfl
  | reasoningStart e =>
    exact iff_of_true ⟨_, rfl⟩ (startsAfresh_of_untracked fun tracked id same =>
      tracked.item_ne_span id e.messageId (Option.some.inj same).symm)
  | _ => exact taken ⟨_, rfl⟩ rfl

theorem validateFrom_iff {past : List Event} {record : Record}
    {sequence : Sequence} (follows : Follows past record sequence) {rest : List Event}
    (valid : ∀ event ∈ rest, validate payloadError event = none) (admitted : Admits record rest)
    (distinct : (startedRuns (past ++ rest)).Nodup)
    (named : EverywhereOn (fun more => NamesActiveRun (past ++ more)) rest) (index : Nat) :
    validateFrom payloadError sequence index rest = none ↔
      EverywhereOn (fun more => StartsAfresh (past ++ more)) rest := by
  induction rest generalizing past record sequence index with
  | nil => exact iff_of_true rfl (everywhereOn_nil _)
  | cons event rest ih =>
    rw [everywhereOn_cons, List.append_nil] at named ⊢
    have here := valid event List.mem_cons_self
    have unused : ∀ runID, startedRun? event = some runID -> runID ∉ startedRuns past := by
      intro runID started earlier
      rw [startedRuns, List.filterMap_append, List.filterMap_cons_some started] at distinct
      exact (List.nodup_append.mp distinct).2.2 runID earlier runID List.mem_cons_self rfl
    have decides := follows.step_ok_iff here admitted.1 named.1 unused
    simp only [validateFrom, here]
    cases stepped : sequence.step event with
    | error error =>
      have refused : ¬ StartsAfresh past event := by
        rw [← decides, stepped]
        rintro ⟨_, impossible⟩
        cases impossible
      exact iff_of_false (fun impossible => by cases impossible) fun both => refused both.1
    | ok after =>
      have afresh := decides.mp ⟨after, stepped⟩
      have shifted : past ++ event :: rest = (past ++ [event]) ++ rest := by
        rw [List.append_assoc, List.singleton_append]
      rw [shifted] at distinct
      have later := ih (follows.step admitted.1 afresh stepped)
        (List.forall_mem_cons.mp valid).2 admitted.2 distinct
        (by simpa only [List.append_assoc, List.singleton_append] using named.2) (index + 1)
      rw [later]
      simp only [List.append_assoc, List.singleton_append, afresh, true_and]

/-- A stream that the verifier accepts is refused exactly where an event starts
what an earlier event started, in this run or in one that was left with it open. -/
theorem validateSequence_iff (payloadError : Event -> Option String) (events : List Event)
    (valid : ∀ event ∈ events, validate payloadError event = none)
    (accepted : Verify.accepted events = true) (distinct : (startedRuns events).Nodup)
    (named : EverywhereOn NamesActiveRun events) :
    validateSequence payloadError events = none ↔ EverywhereOn StartsAfresh events :=
  validateFrom_iff follows_initial valid ((accepted_iff_admits events).mp accepted) distinct named 0

instance (past : List Event) : (event : Event) -> Decidable (NamesActiveRun past event)
  | .runFinished e => inferInstanceAs (Decidable (e.runId ≠ "" -> activeRun past = some e.runId))
  | .runError e => inferInstanceAs (Decidable (errorRunID e ≠ "" -> activeRun past = some (errorRunID e)))
  | .textMessageStart _ | .textMessageContent _ | .textMessageEnd _ | .textMessageChunk _ | .toolCallStart _
  | .toolCallArgs _ | .toolCallEnd _ | .toolCallChunk _ | .toolCallResult _ | .stateSnapshot _ | .stateDelta _
  | .messagesSnapshot _ | .activitySnapshot _ | .activityDelta _ | .raw _ | .custom _ | .runStarted _
  | .stepStarted _ | .stepFinished _ | .reasoningStart _ | .reasoningMessageStart _ | .reasoningMessageContent _
  | .reasoningMessageEnd _ | .reasoningMessageChunk _ | .reasoningEnd _ | .reasoningEncryptedValue _
  | .subagentStarted _ | .subagentFinished _ | .subagentError _ | .other _ => isTrue trivial

/-- A run that is left with everything open, and one that finishes. -/
def abandonedItems : List Event :=
  [.runStarted { threadId := "t", runId := "r1" },
   .subagentStarted { subagentRunId := .value "s", name := some "worker" },
   .stepStarted { stepName := "plan", subagentRunId := .value "s" },
   .textMessageStart { messageId := "m1" },
   .toolCallStart { toolCallId := "c1", toolCallName := "search" },
   .runError { message := "lost", extra := OrderedMap.ofList [("runId", .string "r1")] },
   .runStarted { threadId := "t", runId := "r2" },
   .textMessageStart { messageId := "m2" },
   .textMessageContent { messageId := "m2", delta := "hi" },
   .textMessageEnd { messageId := "m2" },
   .runFinished { threadId := "t", runId := "r2" }]

theorem startsAfresh_abandonedItems : EverywhereOn StartsAfresh abandonedItems :=
  (validateSequence_iff (fun _ => none) abandonedItems (by decide +kernel) (by decide +kernel) (by decide +kernel)
    (by decide +kernel)).mp (by decide +kernel)

/-- The next run starts the message that the first one was in. -/
def reusedMessage : List Event :=
  [.runStarted { threadId := "t", runId := "r1" },
   .textMessageStart { messageId := "m" },
   .runError { message := "lost" },
   .runStarted { threadId := "t", runId := "r2" },
   .textMessageStart { messageId := "m" },
   .textMessageEnd { messageId := "m" },
   .runFinished { threadId := "t", runId := "r2" }]

/-- Two subagents are in steps of one name. -/
def sharedStep : List Event :=
  [.runStarted { threadId := "t", runId := "r" },
   .subagentStarted { subagentRunId := .value "s1", name := some "worker" },
   .subagentStarted { subagentRunId := .value "s2", name := some "worker" },
   .stepStarted { stepName := "plan", subagentRunId := .value "s1" },
   .stepStarted { stepName := "plan", subagentRunId := .value "s2" }]

/-- A run goes on with the message of the last one, and two subagents share a step name. -/
theorem valid_streams_refused :
    ((∀ event ∈ reusedMessage, validate (fun _ => none) event = none) ∧
      Verify.accepted reusedMessage = true ∧ (startedRuns reusedMessage).Nodup ∧
      EverywhereOn NamesActiveRun reusedMessage ∧
      validateSequence (fun _ => none) reusedMessage = some "message m already started") ∧
    ((∀ event ∈ sharedStep, validate (fun _ => none) event = none) ∧
      Verify.accepted sharedStep = true ∧ (startedRuns sharedStep).Nodup ∧
      EverywhereOn NamesActiveRun sharedStep ∧
      validateSequence (fun _ => none) sharedStep = some "step plan already started") := by
  decide +kernel

end Go
end AgUi
