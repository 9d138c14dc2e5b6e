import AgUi.Library.Building
import AgUi.DotnetClient.Converter

namespace AgUi
namespace DotnetClient

open Library Protocol Verify Building

/-!
# Nothing held back is lost

The buffer of held updates is a queue: what has been yielded, followed by what
is held, is what the events mapped to in the order they arrived.  The queue is
empty exactly when no completed call waits for its result, and which calls
wait can be read off the events alone.  What becomes of a held call is up to
the events that follow: the run may finish with an interrupt about it.
-/

/-! ## Which calls wait -/

/-- A completed call waits until its result arrives or the run finishes. -/
def awaitsNext (awaiting : OrderedSet String) : Event -> OrderedSet String
  | .toolCallEnd event => awaiting.add event.toolCallId
  | .toolCallResult event => awaiting.erase event.toolCallId
  | .runFinished _ => OrderedMap.empty
  | _ => awaiting

/-- The calls that have ended and are waited for, after the events. -/
def awaiting (events : List Event) : OrderedSet String :=
  events.foldl awaitsNext OrderedMap.empty

theorem awaiting_snoc (events : List Event) (event : Event) :
    awaiting (events ++ [event]) = awaitsNext (awaiting events) event := by
  unfold awaiting
  rw [List.foldl_append]
  rfl

/-! ## What an event maps to -/

/-- The event an update stands for, and what it shows. -/
abbrev Shown := Event × List AIContent

/-- What an update shows, and the event it shows it for. -/
def ChatResponseUpdate.shown (update : ChatResponseUpdate) : Shown :=
  (update.rawRepresentation, update.contents)

/-- The contents of an update that is made of one event. -/
def ownContents : Event -> Option (List AIContent)
  | .textMessageContent event => some [.text event.delta]
  | .reasoningMessageContent event => some [.textReasoning (some event.delta) none]
  | .reasoningEncryptedValue event => some [.textReasoning none (some event.encryptedValue)]
  | .toolCallResult event => some [.functionResult event.toolCallId (contentText event.content)]
  | .textMessageStart _ | .textMessageEnd _ | .toolCallStart _ | .toolCallArgs _ | .toolCallEnd _ => none
  | .runFinished _ | .runError _ => none
  | _ => some []

/-- One update for each usage entry of a terminal. -/
def usageContents (usage : Option (List TokenUsage)) : List (List AIContent) :=
  (usage.getD []).map fun entry => [.usage (toUsageDetails entry)]

/-- One update for the terminal, unless the run was interrupted for tool calls only. -/
def finishContents (event : RunFinishedEvent) : List (List AIContent) :=
  match event.outcome with
  | some (.interrupt interrupts) =>
    if interrupts.all isToolInterrupt then []
    else [(interrupts.filter fun interrupt => !isToolInterrupt interrupt).map ConverterState.interruptRequest]
  | _ => [[]]

/-- The name and the arguments that events give a call. -/
def toldNext (callId : String) (told : Option (String × String)) : Event -> Option (String × String)
  | .toolCallStart event => if event.toolCallId = callId then some (event.toolCallName, "") else told
  | .toolCallArgs event =>
    if event.toolCallId = callId then told.map fun call => (call.1, call.2 ++ event.delta) else told
  | _ => told

/-- The name and the arguments a call has been told with. -/
def told (callId : String) (past : List Event) : Option (String × String) :=
  past.foldl (toldNext callId) none

/-- The interrupts that ask for the approval of the call. -/
def approvalsOf (interrupts : List Interrupt) (callId : String) : List Interrupt :=
  interrupts.filter fun interrupt => isToolInterrupt interrupt && interrupt.toolCallId == some callId

/-- A call is shown as it is, or as the request to approve it that the last interrupt about it makes. -/
def callContents (interrupts : List Interrupt) (call : FunctionCallContent) : List AIContent :=
  match (approvalsOf interrupts call.callId).getLast? with
  | some interrupt => [.toolApprovalRequest interrupt.id call interrupt]
  | none => [.functionCall call]

def interruptsOf : Event -> List Interrupt
  | .runFinished event =>
    match event.outcome with
    | some (.interrupt interrupts) => interrupts
    | _ => []
  | _ => []

/-- The interrupts that the run finishes with while calls still wait. -/
def interruptsAhead (waiting : OrderedSet String) : List Event -> List Interrupt
  | [] => []
  | event :: rest =>
    if (awaitsNext waiting event).size = 0 then interruptsOf event
    else interruptsAhead (awaitsNext waiting event) rest

section Shown

variable (deserialize : String -> Except Thrown (Option Arguments))

/-- The call that an end completes.  The end is accepted only if its arguments can be read. -/
def completedCall (past : List Event) (event : ToolCallEndEvent) : FunctionCallContent where
  callId := event.toolCallId
  name := ((told event.toolCallId past).map Prod.fst).getD ""
  arguments := ((told event.toolCallId past).bind fun call =>
    (ToolCallBuilder.deserializeArguments deserialize call.2).toOption).join

/-- What an event maps to between what came before and what is to come. -/
def shownAt (past : List Event) (event : Event) (future : List Event) : List Shown :=
  (match event with
    | .toolCallEnd ended =>
      [callContents (interruptsAhead (awaiting (past ++ [event])) future) (completedCall deserialize past ended)]
    | .runFinished finished => finishContents finished ++ usageContents finished.usage
    | .runError failed => [.error failed.message failed.code] :: usageContents failed.usage
    | other => (ownContents other).toList).map (event, ·)

/-- What a part of the stream maps to. -/
def shownIn (past : List Event) : List Event -> List Event -> List Shown
  | [], _ => []
  | event :: part, future => shownAt deserialize past event (part ++ future) ++ shownIn (past ++ [event]) part future

theorem shownIn_append (past early late future : List Event) :
    shownIn deserialize past (early ++ late) future =
      shownIn deserialize past early (late ++ future) ++ shownIn deserialize (past ++ early) late future := by
  induction early generalizing past with
  | nil => rw [List.nil_append, List.append_nil, shownIn, List.nil_append]
  | cons event rest ih =>
    rw [List.cons_append, shownIn, shownIn, ih, List.append_assoc, List.append_assoc, List.append_assoc,
      List.singleton_append]

theorem shownIn_singleton (past : List Event) (event : Event) (future : List Event) :
    shownIn deserialize past [event] future = shownAt deserialize past event future := by
  rw [shownIn, shownIn, List.append_nil, List.nil_append]

theorem shownAt_of_ownContents {event : Event} {contents : List AIContent} (own : ownContents event = some contents)
    (past future : List Event) : shownAt deserialize past event future = [(event, contents)] := by
  unfold shownAt
  cases event with
  | textMessageStart event | textMessageEnd event | toolCallStart event | toolCallArgs event | toolCallEnd event
  | runFinished event | runError event => cases own
  | _ =>
    cases own
    rfl

end Shown

/-! ## Approvals -/

section Approvals

open ToolCallBuilder

theorem mem_interruptById {interrupts : List Interrupt} {callId : String} {interrupt : Interrupt}
    (found : (interruptById interrupts).get? callId = some interrupt) :
    interrupt ∈ interrupts ∧ isToolInterrupt interrupt = true ∧ interrupt.toolCallId = some callId := by
  rcases List.mem_filterMap.mp (OrderedMap.mem_of_get?_ofList found) with ⟨listed, member, paired⟩
  rcases Option.map_eq_some_iff.mp paired with ⟨toolCallId, named, same⟩
  cases same
  exact ⟨(List.mem_filter.mp member).1, (List.mem_filter.mp member).2, named⟩

/-- The last interrupt about a call counts. -/
theorem get?_interruptById (interrupts : List Interrupt) (callId : String) :
    (interruptById interrupts).get? callId = (approvalsOf interrupts callId).getLast? := by
  unfold interruptById approvalsOf OrderedMap.ofList
  induction interrupts using List.reverseRecOn with
  | nil => rfl
  | append_singleton earlier interrupt ih =>
    rw [List.filter_append, List.filter_append, List.filterMap_append, List.foldl_append]
    cases tool : isToolInterrupt interrupt with
    | false => simpa [tool] using ih
    | true =>
      cases about : interrupt.toolCallId with
      | none => simpa [tool, about] using ih
      | some toolCallId =>
        by_cases same : toolCallId = callId
        · simp [tool, about, same]
        · simpa [tool, about, same, Ne.symm same] using ih

theorem approvalOf_of_no_call (interruptById : OrderedMap String Interrupt) {update : ChatResponseUpdate}
    (noCall : Not (∃ call, update.contents = [AIContent.functionCall call])) :
    approvalOf interruptById update = update := by
  unfold approvalOf
  split
  next call contents => exact absurd ⟨call, contents⟩ noCall
  next => rfl

theorem approvalOf_of_ownContents (interruptById : OrderedMap String Interrupt) {update : ChatResponseUpdate}
    {event : Event} (own : ownContents event = some update.contents) : approvalOf interruptById update = update := by
  apply approvalOf_of_no_call
  rintro ⟨call, contents⟩
  rw [contents] at own
  cases event <;> cases own

theorem shown_approvalOf (interrupts : List Interrupt) {update : ChatResponseUpdate} {call : FunctionCallContent}
    (contents : update.contents = [.functionCall call]) :
    (approvalOf (interruptById interrupts) update).shown =
      (update.rawRepresentation, callContents interrupts call) := by
  unfold approvalOf callContents
  rw [contents]
  dsimp only
  rw [get?_interruptById]
  cases (approvalsOf interrupts call.callId).getLast? with
  | none => exact congrArg (update.rawRepresentation, ·) contents
  | some interrupt => rfl

theorem approvalOf_none (update : ChatResponseUpdate) : approvalOf (interruptById []) update = update := by
  unfold approvalOf
  split <;> rfl

end Approvals

/-! ## One event -/

theorem eq_empty_of_size {ids : OrderedSet String} (none : ids.size = 0) : ids = OrderedMap.empty :=
  OrderedMap.ext (List.length_eq_zero_iff.mp none)

/-- The queue is empty exactly when no call waits. -/
structure ToolCallBuilder.Sound (builder : ToolCallBuilder) : Prop where
  idle : builder.buffer = [] ↔ builder.pendingToolCallIds.size = 0

theorem ToolCallBuilder.isBuffering_eq_false_iff (builder : ToolCallBuilder) :
    builder.isBuffering = false ↔ builder.pendingToolCallIds.size = 0 := by
  unfold isBuffering
  rw [bne_eq_false_iff_eq]

/-- An open call has the name and the arguments the events gave it. -/
def Knows (past : List Event) (builder : ToolCallBuilder) : Prop :=
  ∀ callId call, builder.activeToolCalls.get? callId = some call -> told callId past = some (call.name, call.arguments)

theorem told_snoc (callId : String) (past : List Event) (event : Event) :
    told callId (past ++ [event]) = toldNext callId (told callId past) event := by
  rw [told, List.foldl_append]
  rfl

theorem Knows.keep {past : List Event} {event : Event} {before after : ToolCallBuilder} (knows : Knows past before)
    (same : after.activeToolCalls = before.activeToolCalls)
    (quiet : ∀ callId told, toldNext callId told event = told) : Knows (past ++ [event]) after := by
  intro callId call found
  rw [told_snoc, quiet]
  exact knows callId call (same ▸ found)

/-- What is held, as the rest of the stream will let it go. -/
def settled (builder : ToolCallBuilder) (future : List Event) : List Shown :=
  builder.buffer.map fun update => (ToolCallBuilder.approvalOf
    (ToolCallBuilder.interruptById (interruptsAhead builder.pendingToolCallIds future)) update).shown

theorem settled_of_empty {builder : ToolCallBuilder} (empty : builder.buffer = []) (future : List Event) :
    settled builder future = [] := by
  rw [settled, empty, List.map_nil]

/-- An event that lets nothing go. -/
theorem settled_cons {builder : ToolCallBuilder} (sound : builder.Sound) {event : Event}
    (stays : awaitsNext builder.pendingToolCallIds event = builder.pendingToolCallIds) (future : List Event) :
    settled builder (event :: future) = settled builder future := by
  by_cases empty : builder.buffer = []
  · rw [settled_of_empty empty, settled_of_empty empty]
  · unfold settled
    rw [interruptsAhead, stays, if_neg fun none => empty (sound.idle.mpr none)]

/-- What a builder and the yielded updates have to do with the event between. -/
structure Handles (deserialize : String -> Except Thrown (Option Arguments)) (past : List Event) (event : Event)
    (before after : ToolCallBuilder) (updates : List ChatResponseUpdate) : Prop where
  order : ∀ future, settled before (event :: future) ++ shownAt deserialize past event future =
    updates.map ChatResponseUpdate.shown ++ settled after future
  waiting : after.pendingToolCallIds = awaitsNext before.pendingToolCallIds event
  sound : after.Sound

namespace Handles

variable {deserialize : String -> Except Thrown (Option Arguments)} {past : List Event} {event : Event}
  {before : ToolCallBuilder}

/-- An event without an update of its own. -/
theorem silent {after : ToolCallBuilder} (sound : before.Sound)
    (none : ∀ future, shownAt deserialize past event future = [])
    (same : after.buffer = before.buffer) (waiting : after.pendingToolCallIds = before.pendingToolCallIds)
    (stays : awaitsNext before.pendingToolCallIds event = before.pendingToolCallIds) :
    Handles deserialize past event before after [] where
  order := by
    intro future
    rw [none, List.append_nil, settled_cons sound stays, settled, settled, same, waiting]
    rfl
  waiting := waiting.trans stays.symm
  sound := by
    constructor
    rw [same, waiting]
    exact sound.idle

/-- An event whose update is yielded, or held behind the calls that wait. -/
theorem emit {state : ConverterState} {update : ChatResponseUpdate} (sound : state.toolCallBuilder.Sound)
    (raw : update.rawRepresentation = event) (own : ownContents event = some update.contents)
    (stays : awaitsNext state.toolCallBuilder.pendingToolCallIds event = state.toolCallBuilder.pendingToolCallIds) :
    Handles deserialize past event state.toolCallBuilder (state.emit update).1.toolCallBuilder
      (state.emit update).2 := by
  have single := shownAt_of_ownContents deserialize own past
  unfold ConverterState.emit
  split
  · rename_i buffering
    have stamped : ownContents event =
        some (Attribution.stampOwner update state.attribution.owners).contents := own
    constructor
    · intro future
      rw [single, settled_cons sound stays, settled, settled, ToolCallBuilder.bufferUpdate, List.map_append,
        List.map_singleton, approvalOf_of_ownContents _ stamped, ← raw]
      rfl
    · exact stays.symm
    · constructor
      constructor
      · intro empty
        exact absurd empty (List.append_ne_nil_of_right_ne_nil _ (List.cons_ne_nil _ _))
      · intro none
        have passing := (ToolCallBuilder.isBuffering_eq_false_iff state.toolCallBuilder).mpr none
        rw [passing] at buffering
        cases buffering
  · rename_i passing
    have none := (ToolCallBuilder.isBuffering_eq_false_iff _).mp (Bool.eq_false_iff.mpr passing)
    constructor
    · intro future
      rw [single, settled_of_empty (sound.idle.mpr none), settled_of_empty (sound.idle.mpr none), ← raw]
      rfl
    · exact stays.symm
    · exact sound

/-- An ended call joins the queue. -/
theorem endToolCall {ended : ToolCallEndEvent} {after : ToolCallBuilder}
    (knows : Knows past before) (waits : before.pendingToolCallIds = awaiting past)
    (done : before.endToolCall deserialize ended = .ok after) :
    Handles deserialize past (.toolCallEnd ended) before after [] := by
  unfold ToolCallBuilder.endToolCall at done
  split at done
  · cases done
  · rename_i call found
    split at done
    · cases done
    · rename_i arguments read
      cases done
      have waiting : (before.pendingToolCallIds.add ended.toolCallId).size ≠ 0 := by
        intro none
        have lost := (OrderedMap.size_eq_zero_iff _).mp none ended.toolCallId
        rw [OrderedSet.has_add, decide_eq_true rfl, Bool.true_or] at lost
        cases lost
      have completed : completedCall deserialize past ended =
          { callId := ended.toolCallId, name := call.name, arguments } := by
        rw [completedCall, knows _ _ found, Option.bind_some, read]
        rfl
      constructor
      · intro future
        rw [settled, settled, interruptsAhead, show awaitsNext before.pendingToolCallIds (.toolCallEnd ended) =
          before.pendingToolCallIds.add ended.toolCallId from rfl, if_neg waiting, List.map_append,
          List.map_singleton, shown_approvalOf _ rfl, List.map_nil, List.nil_append, shownAt, completed,
          awaiting_snoc, ← waits]
        rfl
      · rfl
      · constructor
        constructor
        · intro empty
          exact absurd empty (List.append_ne_nil_of_right_ne_nil _ (List.cons_ne_nil _ _))
        · exact fun none => absurd none waiting

/-- A result joins the queue, and frees it when no other call waits. -/
theorem addResult {result : ToolCallResultEvent} {update : ChatResponseUpdate}
    (raw : update.rawRepresentation = .toolCallResult result)
    (own : ownContents (.toolCallResult result) = some update.contents) :
    Handles deserialize past (.toolCallResult result) before (before.addResult result.toolCallId update).1
      (before.addResult result.toolCallId update).2 := by
  have single := shownAt_of_ownContents deserialize own past
  unfold ToolCallBuilder.addResult
  by_cases released : (OrderedMap.erase before.pendingToolCallIds result.toolCallId).size = 0
  · simp only [if_pos released]
    constructor
    · intro future
      rw [single, settled, interruptsAhead, show awaitsNext before.pendingToolCallIds (.toolCallResult result) =
        OrderedMap.erase before.pendingToolCallIds result.toolCallId from rfl, if_pos released,
        show interruptsOf (.toolCallResult result) = [] from rfl]
      simp only [approvalOf_none, List.map_append, List.map_singleton, ChatResponseUpdate.shown, raw]
      exact (List.append_nil _).symm
    · rfl
    · exact ⟨fun _ => released, fun _ => rfl⟩
  · simp only [if_neg released]
    constructor
    · intro future
      rw [single, settled, settled, interruptsAhead, show awaitsNext before.pendingToolCallIds
        (.toolCallResult result) = OrderedMap.erase before.pendingToolCallIds result.toolCallId from rfl,
        if_neg released, List.map_append, List.map_singleton, approvalOf_of_ownContents _ own, ← raw]
      rfl
    · rfl
    · constructor
      constructor
      · intro empty
        exact absurd empty (List.append_ne_nil_of_right_ne_nil _ (List.cons_ne_nil _ _))
      · exact fun none => absurd none released

/-- A result is yielded at once when no call waits. -/
theorem result {state : ConverterState} (sound : state.toolCallBuilder.Sound) (result : ToolCallResultEvent) :
    Handles deserialize past (.toolCallResult result) state.toolCallBuilder
      (state.toolCallResultCase result).1.toolCallBuilder (state.toolCallResultCase result).2 := by
  unfold ConverterState.toolCallResultCase
  by_cases buffering : state.toolCallBuilder.isBuffering = true
  · simp only [if_pos buffering]
    exact addResult rfl rfl
  · have none := (ToolCallBuilder.isBuffering_eq_false_iff _).mp (Bool.eq_false_iff.mpr buffering)
    simp only [if_neg buffering]
    constructor
    · intro future
      rw [settled_of_empty (sound.idle.mpr none), settled_of_empty (sound.idle.mpr none)]
      rfl
    · rw [eq_empty_of_size none]
      rfl
    · exact sound

end Handles

/-! ## The terminals -/

theorem shown_usageUpdates (state : ConverterState) (event : Event) (usage : Option (List TokenUsage)) :
    (state.usageUpdates event usage).map ChatResponseUpdate.shown = (usageContents usage).map (event, ·) := by
  unfold ConverterState.usageUpdates usageContents
  rw [List.map_map, List.map_map]
  rfl

theorem mem_usageUpdates {state : ConverterState} {event : Event} {usage : Option (List TokenUsage)}
    {update : ChatResponseUpdate} (member : update ∈ state.usageUpdates event usage) :
    update.rawRepresentation = event ∧
      ∃ entry ∈ usage.getD [], update.contents = [.usage (toUsageDetails entry)] := by
  rcases List.mem_map.mp member with ⟨entry, listed, rfl⟩
  exact ⟨rfl, entry, listed, rfl⟩

/-- A flush empties the queue: it yields what was held, in order. -/
structure Flushes (event : Event) (before after : ToolCallBuilder) (updates : List ChatResponseUpdate) : Prop where
  order : updates.map ChatResponseUpdate.shown = before.buffer.map fun update =>
    (ToolCallBuilder.approvalOf (ToolCallBuilder.interruptById (interruptsOf event)) update).shown
  emptied : after.buffer = []
  none : after.pendingToolCallIds = OrderedMap.empty

theorem flushes_flushAsToolCalls {builder : ToolCallBuilder} (sound : builder.Sound) {event : Event}
    (plain : interruptsOf event = []) :
    Flushes event builder builder.flushAsToolCalls.1 builder.flushAsToolCalls.2 := by
  unfold ToolCallBuilder.flushAsToolCalls
  split
  · rename_i empty
    have emptied := List.isEmpty_iff.mp empty
    refine ⟨?_, emptied, eq_empty_of_size (sound.idle.mp emptied)⟩
    rw [emptied]
    rfl
  · refine ⟨?_, rfl, rfl⟩
    simp only [plain, approvalOf_none]

theorem flushes_flushWithInterrupts {builder : ToolCallBuilder} (sound : builder.Sound) (event : Event) :
    Flushes event builder (builder.flushWithInterrupts (interruptsOf event)).1
      (builder.flushWithInterrupts (interruptsOf event)).2 := by
  unfold ToolCallBuilder.flushWithInterrupts
  split
  · rename_i empty
    have emptied := List.isEmpty_iff.mp empty
    refine ⟨?_, emptied, eq_empty_of_size (sound.idle.mp emptied)⟩
    rw [emptied]
    rfl
  · exact ⟨List.map_map, rfl, rfl⟩

/-- A flush before the updates of a `RUN_FINISHED`. -/
theorem Flushes.handles {deserialize : String -> Except Thrown (Option Arguments)} {past : List Event}
    {event : RunFinishedEvent} {before after : ToolCallBuilder} {updates own : List ChatResponseUpdate}
    (flushes : Flushes (.runFinished event) before after updates)
    (count : own.map ChatResponseUpdate.shown =
      (finishContents event ++ usageContents event.usage).map (Event.runFinished event, ·)) :
    Handles deserialize past (.runFinished event) before after (updates ++ own) where
  order := by
    intro future
    rw [settled_of_empty flushes.emptied, List.append_nil, List.map_append, flushes.order, count]
    rfl
  waiting := flushes.none
  sound := by
    constructor
    rw [flushes.emptied, flushes.none]
    exact ⟨fun _ => rfl, fun _ => rfl⟩

theorem isToolInterrupt_all_iff (interrupts : List Interrupt) :
    ((interrupts.filter fun interrupt => !isToolInterrupt interrupt).map ConverterState.interruptRequest).isEmpty =
      interrupts.all isToolInterrupt := by
  rw [List.isEmpty_map]
  induction interrupts with
  | nil => rfl
  | cons interrupt rest ih =>
    rw [List.filter_cons, List.all_cons]
    cases tool : isToolInterrupt interrupt
    · rfl
    · exact ih

/-- A `RUN_FINISHED` that passes lets go what is held, then come its own updates. -/
theorem runFinishedCase_ok {state : ConverterState} {event : RunFinishedEvent}
    {result : ConverterState × List ChatResponseUpdate} (done : state.runFinishedCase event = .ok result) :
    ∃ flushed own, result = ({ state with runFinished := true, toolCallBuilder := flushed.1 },
        flushed.2 ++ (own ++ state.usageUpdates (.runFinished event) event.usage)) ∧
      (∃ pending, flushed.1 = { state.toolCallBuilder with buffer := [], pendingToolCallIds := pending }) ∧
      ((∃ interrupts, event.outcome = some (.interrupt interrupts) ∧
          flushed = state.toolCallBuilder.flushWithInterrupts interrupts ∧
          own = state.interruptUpdates event interrupts) ∨
        (∀ interrupts, event.outcome ≠ some (.interrupt interrupts)) ∧
          flushed = state.toolCallBuilder.flushAsToolCalls ∧
          own = [{ state.bareUpdate (.runFinished event) with finishReason := some .stop }]) := by
  unfold ConverterState.runFinishedCase at done
  split at done
  · cases done
  · rcases outcome_bind_ok_iff.mp done with ⟨_, _, rest⟩
    rcases outcome_bind_ok_iff.mp rest with ⟨_, _, last⟩
    dsimp only at last
    split at last <;> cases last <;> rw [List.append_assoc]
    next interrupts outcome =>
      refine ⟨_, _, rfl, ?_, .inl ⟨interrupts, outcome, rfl, rfl⟩⟩
      unfold ToolCallBuilder.flushWithInterrupts
      split
      next empty => exact ⟨_, by rw [← List.isEmpty_iff.mp empty]⟩
      next => exact ⟨_, rfl⟩
    next plain =>
      refine ⟨_, _, rfl, ?_, .inr ⟨plain, rfl, rfl⟩⟩
      unfold ToolCallBuilder.flushAsToolCalls
      split
      next empty => exact ⟨_, by rw [← List.isEmpty_iff.mp empty]⟩
      next => exact ⟨_, rfl⟩

/-- A `RUN_FINISHED` lets everything go and then stands for itself. -/
theorem handles_runFinished {deserialize : String -> Except Thrown (Option Arguments)} {past : List Event}
    {state after : ConverterState} {event : RunFinishedEvent} {updates : List ChatResponseUpdate}
    (sound : state.toolCallBuilder.Sound) (done : state.runFinishedCase event = .ok (after, updates)) :
    Handles deserialize past (.runFinished event) state.toolCallBuilder after.toolCallBuilder updates := by
  rcases runFinishedCase_ok done with
    ⟨_, _, same, _, ⟨interrupts, outcome, rfl, rfl⟩ | ⟨outcome, rfl, rfl⟩⟩ <;> cases same
  · have ahead : interruptsOf (.runFinished event) = interrupts := by
      simp only [interruptsOf, outcome]
    have flushes := flushes_flushWithInterrupts sound (.runFinished event)
    rw [ahead] at flushes
    refine flushes.handles ?_
    rw [List.map_append, List.map_append, shown_usageUpdates]
    congr 1
    unfold ConverterState.interruptUpdates finishContents
    simp only [isToolInterrupt_all_iff, outcome]
    split <;> rfl
  · have none : interruptsOf (.runFinished event) = [] := by
      unfold interruptsOf
      dsimp only
      split
      · rename_i interrupts interrupted
        exact absurd interrupted (outcome interrupts)
      · rfl
    have terminal : finishContents event = [[]] := by
      unfold finishContents
      split
      · rename_i interrupts interrupted
        exact absurd interrupted (outcome interrupts)
      · rfl
    refine (flushes_flushAsToolCalls sound none).handles ?_
    rw [List.map_append, List.map_append, shown_usageUpdates, terminal]
    rfl

/-- A `RUN_ERROR` yields what it maps to and leaves the queue as it is. -/
theorem handles_runError {deserialize : String -> Except Thrown (Option Arguments)} {past : List Event}
    {state : ConverterState} (sound : state.toolCallBuilder.Sound) (event : RunErrorEvent)
    (calm : state.toolCallBuilder.pendingToolCallIds.size = 0) :
    Handles deserialize past (.runError event) state.toolCallBuilder (state.runErrorCase event).1.toolCallBuilder
      (state.runErrorCase event).2 where
  order := by
    intro future
    unfold ConverterState.runErrorCase
    rw [settled_of_empty (sound.idle.mpr calm), settled_of_empty (sound.idle.mpr calm), List.map_cons,
      shown_usageUpdates]
    exact (List.append_nil _).symm
  waiting := rfl
  sound := sound

/-! ## The switch -/

/-- The events whose updates overtake what is held. -/
def Overtakes : Event -> Prop
  | .runStarted _ | .runError _ => True
  | _ => False

/-- The events a run begins or ends with. -/
def Boundary : Event -> Prop
  | .runStarted _ | .runFinished _ | .runError _ => True
  | _ => False

/-- What the switch can do with an event. -/
inductive Processes (deserialize : String -> Except Thrown (Option Arguments)) (state : ConverterState) :
    Event -> ConverterState × List ChatResponseUpdate -> Prop where
  | runStarted (event : RunStartedEvent) : Processes deserialize state (.runStarted event) (state.runStartedCase event)
  | runError (event : RunErrorEvent) : Processes deserialize state (.runError event) (state.runErrorCase event)
  | runFinished {event : RunFinishedEvent} {result : ConverterState × List ChatResponseUpdate}
      (done : state.runFinishedCase event = .ok result) : Processes deserialize state (.runFinished event) result
  | builds {event : Event} (inside : ¬ Boundary event) (texts : TextMessageBuilder) {calls : ToolCallBuilder}
      (buffer : calls.buffer = state.toolCallBuilder.buffer)
      (pending : calls.pendingToolCallIds = state.toolCallBuilder.pendingToolCallIds)
      (none : ∀ past future, shownAt deserialize past event future = [])
      (stays : awaitsNext state.toolCallBuilder.pendingToolCallIds event = state.toolCallBuilder.pendingToolCallIds)
      (knows : ∀ past, Knows past state.toolCallBuilder -> Knows (past ++ [event]) calls) :
      Processes deserialize state event ({ state with textMessageBuilder := texts, toolCallBuilder := calls }, [])
  | ends {event : ToolCallEndEvent} {calls : ToolCallBuilder}
      (done : state.toolCallBuilder.endToolCall deserialize event = .ok calls) :
      Processes deserialize state (.toolCallEnd event) ({ state with toolCallBuilder := calls }, [])
  | result (event : ToolCallResultEvent) :
      Processes deserialize state (.toolCallResult event) (state.toolCallResultCase event)
  | emits {event : Event} (inside : ¬ Boundary event) (steps : OrderedSet (Owner × String))
    {update : ChatResponseUpdate}
      (raw : update.rawRepresentation = event) (own : ownContents event = some update.contents)
      (stays : awaitsNext state.toolCallBuilder.pendingToolCallIds event = state.toolCallBuilder.pendingToolCallIds) :
      Processes deserialize state event ({ state with activeSteps := steps }.emit update)

section Switch

variable {deserialize : String -> Except Thrown (Option Arguments)} {state : ConverterState} {inferred : Option String}
  {event : Event} {result : ConverterState × List ChatResponseUpdate}

theorem stepStarted_emits {event : StepStartedEvent} (done : state.stepStartedCase event = .ok result) :
    ∃ steps, result = { state with activeSteps := steps }.emit (state.bareUpdate (.stepStarted event)) := by
  unfold ConverterState.stepStartedCase at done
  by_cases active : state.activeSteps.has (event.subagentRunId.toOption, event.stepName) = true
  · simp only [if_pos active] at done
    cases done
  · simp only [if_neg active] at done
    exact ⟨_, (Except.ok.inj done).symm⟩

theorem stepFinished_emits {event : StepFinishedEvent} (done : state.stepFinishedCase event = .ok result) :
    ∃ steps, result = { state with activeSteps := steps }.emit (state.bareUpdate (.stepFinished event)) := by
  unfold ConverterState.stepFinishedCase at done
  by_cases active : state.activeSteps.has (event.subagentRunId.toOption, event.stepName) = true
  · simp only [if_pos active] at done
    exact ⟨_, (Except.ok.inj done).symm⟩
  · simp only [if_neg active] at done
    split at done <;> cases done

theorem processes_processEvent (done : state.processEvent deserialize inferred event = .ok result) :
    Processes deserialize state event result := by
  cases event with
  | runStarted event =>
    rw [← Except.ok.inj done]
    exact .runStarted event
  | runFinished event => exact .runFinished done
  | runError event =>
    rw [← Except.ok.inj done]
    exact .runError event
  | textMessageStart event | textMessageEnd event =>
    rcases outcome_bind_ok_iff.mp done with ⟨builder, -, last⟩
    rw [← Except.ok.inj last]
    exact .builds id builder rfl rfl (fun _ _ => rfl) rfl fun _ knows => knows.keep rfl fun _ _ => rfl
  | textMessageContent event =>
    rcases outcome_bind_ok_iff.mp done with ⟨update, emitted, last⟩
    rw [← Except.ok.inj last]
    unfold TextMessageBuilder.emitTextUpdate at emitted
    split at emitted
    · cases emitted
    · cases emitted
      exact .emits id state.activeSteps rfl rfl rfl
  | toolCallStart event =>
    rcases outcome_bind_ok_iff.mp done with ⟨builder, started, last⟩
    rw [← Except.ok.inj last]
    unfold ToolCallBuilder.startToolCall at started
    split at started
    · cases started
    · cases started
      refine .builds id state.textMessageBuilder rfl rfl (fun _ _ => rfl) rfl ?_
      intro past knows callId call found
      rw [told_snoc, toldNext]
      rw [OrderedMap.get?_set] at found
      split at found
      · rename_i same
        cases found
        rw [if_pos same.symm]
      · rename_i other
        rw [if_neg (Ne.symm other)]
        exact knows callId call found
  | toolCallArgs event =>
    rcases outcome_bind_ok_iff.mp done with ⟨builder, appended, last⟩
    rw [← Except.ok.inj last]
    unfold ToolCallBuilder.appendArgs at appended
    split at appended
    · cases appended
    · rename_i call open?
      cases appended
      refine .builds id state.textMessageBuilder rfl rfl (fun _ _ => rfl) rfl ?_
      intro past knows callId longer found
      rw [told_snoc, toldNext]
      rw [OrderedMap.get?_set] at found
      split at found
      · rename_i same
        cases found
        rw [if_pos same.symm, knows callId call (same ▸ open?)]
        rfl
      · rename_i other
        rw [if_neg (Ne.symm other)]
        exact knows callId longer found
  | toolCallEnd event =>
    rcases outcome_bind_ok_iff.mp done with ⟨builder, ended, last⟩
    rw [← Except.ok.inj last]
    exact .ends ended
  | toolCallResult event =>
    rw [← Except.ok.inj done]
    exact .result event
  | stepStarted event =>
    rcases stepStarted_emits done with ⟨steps, rfl⟩
    exact .emits id steps rfl rfl rfl
  | stepFinished event =>
    rcases stepFinished_emits done with ⟨steps, rfl⟩
    exact .emits id steps rfl rfl rfl
  | _ =>
    rw [← Except.ok.inj done]
    exact .emits id state.activeSteps rfl rfl rfl

theorem handles_runStarted {past : List Event} (sound : state.toolCallBuilder.Sound) (event : RunStartedEvent)
    (calm : state.toolCallBuilder.pendingToolCallIds.size = 0) :
    Handles deserialize past (.runStarted event) state.toolCallBuilder (state.runStartedCase event).1.toolCallBuilder
      (state.runStartedCase event).2 where
  order := by
    intro future
    have empty := sound.idle.mpr calm
    have still : (state.runStartedCase event).1.toolCallBuilder.buffer = [] := empty
    rw [settled_of_empty empty, settled_of_empty still]
    rfl
  waiting := rfl
  sound := ⟨sound.idle⟩

theorem Processes.handles {past : List Event} (processes : Processes deserialize state event result)
    (sound : state.toolCallBuilder.Sound) (knows : Knows past state.toolCallBuilder)
    (waits : state.toolCallBuilder.pendingToolCallIds = awaiting past)
    (calm : Overtakes event -> state.toolCallBuilder.pendingToolCallIds.size = 0) :
    Handles deserialize past event state.toolCallBuilder result.1.toolCallBuilder result.2 := by
  cases processes with
  | runStarted event => exact handles_runStarted sound event (calm trivial)
  | runError event => exact handles_runError sound event (calm trivial)
  | runFinished done => exact handles_runFinished sound done
  | builds inside texts buffer pending none stays _ => exact Handles.silent sound (none past) buffer pending stays
  | ends done => exact Handles.endToolCall knows waits done
  | result event => exact Handles.result sound event
  | emits inside steps raw own stays =>
    have stepped : { state with activeSteps := steps }.toolCallBuilder.Sound := sound
    exact Handles.emit stepped raw own stays

theorem toldNext_of_ownContents {contents : List AIContent} (own : ownContents event = some contents)
    (callId : String) (told : Option (String × String)) : toldNext callId told event = told := by
  cases event with
  | toolCallStart event | toolCallArgs event => cases own
  | _ => rfl

theorem Processes.knows {past : List Event} (processes : Processes deserialize state event result)
    (knows : Knows past state.toolCallBuilder) : Knows (past ++ [event]) result.1.toolCallBuilder := by
  cases processes with
  | runStarted event | runError event => exact knows.keep rfl fun _ _ => rfl
  | runFinished done =>
    rcases runFinishedCase_ok done with ⟨_, _, rfl, ⟨_, emptied⟩, _⟩
    refine knows.keep ?_ fun _ _ => rfl
    dsimp only
    rw [emptied]
  | builds inside texts buffer pending none stays learns => exact learns past knows
  | ends done =>
    unfold ToolCallBuilder.endToolCall at done
    split at done
    · cases done
    · split at done
      · cases done
      · cases done
        intro callId call found
        rw [told_snoc]
        exact knows callId call (OrderedMap.get?_of_erase _ found)
  | result event =>
    refine knows.keep ?_ fun _ _ => rfl
    unfold ConverterState.toolCallResultCase ToolCallBuilder.addResult
    dsimp only
    split
    · split <;> rfl
    · rfl
  | emits inside steps raw own stays =>
    refine knows.keep ?_ (toldNext_of_ownContents own)
    unfold ConverterState.emit
    split <;> rfl

end Switch

end DotnetClient
end AgUi
