import Mathlib.Data.List.Count
import AgUi.DotnetClient.Conservation

namespace AgUi
namespace DotnetClient

open Library Protocol Verify Building

/-!
# The interrupts of a finished run

A run may finish with interrupts, each of which is to reach the caller once:
as the request to approve a tool call, or as a request of its own.  A request
for approval takes the place of a held call, and nothing else asks for it, so
an interrupt is lost when its call is not held, and asked again when the call
is held twice.
-/

/-! ## What is asked -/

/-- The interrupt a content asks the caller about, and the call it is about. -/
def asks : AIContent -> List (String × Option String)
  | .toolApprovalRequest requestId call _ => [(requestId, some call.callId)]
  | .interruptRequest request => [(request.id, request.toolCallId)]
  | _ => []

/-- What the updates ask the caller, each with the call it is about. -/
def asked (updates : List ChatResponseUpdate) : List (String × Option String) :=
  updates.flatMap fun update => update.contents.flatMap asks

/-- Each interrupt is asked once, and nothing else is. -/
def EachAskedOnce (interrupts : List Interrupt) (updates : List ChatResponseUpdate) : Prop :=
  (asked updates).Perm (interrupts.map fun interrupt => (interrupt.id, interrupt.toolCallId))

/-- The call a held update completes. -/
def heldCall (update : ChatResponseUpdate) : Option String :=
  match update.contents with
  | [.functionCall call] => some call.callId
  | _ => none

def heldCalls (builder : ToolCallBuilder) : List String :=
  builder.buffer.filterMap heldCall

/-- A call that is to be approved is held as often as it is named, by
interrupts of one id. -/
def HeldAsNamed (interrupts : List Interrupt) (builder : ToolCallBuilder) : Prop :=
  ∀ callId first, first ∈ approvalsOf interrupts callId ->
    (heldCalls builder).count callId = (approvalsOf interrupts callId).length ∧
      ∀ other ∈ approvalsOf interrupts callId, other.id = first.id

/-! ## Held updates ask nothing -/

/-- Nothing that is held asks for anything. -/
def Quiet (builder : ToolCallBuilder) : Prop :=
  ∀ update ∈ builder.buffer, update.contents.flatMap asks = []

section Quiet

variable {state : ConverterState}

theorem quiet_concat {builder : ToolCallBuilder} (quiet : Quiet builder) {update : ChatResponseUpdate}
    (silent : update.contents.flatMap asks = []) {held : ChatResponseUpdate}
    (member : held ∈ builder.buffer ++ [update]) :
    held.contents.flatMap asks = [] := by
  rcases List.mem_append.mp member with earlier | last
  · exact quiet held earlier
  · rw [List.mem_singleton.mp last]
    exact silent

theorem quiet_emit (quiet : Quiet state.toolCallBuilder) {update : ChatResponseUpdate}
    (silent : update.contents.flatMap asks = []) : Quiet (state.emit update).1.toolCallBuilder := by
  unfold ConverterState.emit
  split
  · have stamped : (Attribution.stampOwner update state.attribution.owners).contents.flatMap asks = [] := silent
    exact fun held member => quiet_concat quiet stamped member
  · exact quiet

theorem quiet_addResult {builder : ToolCallBuilder} (quiet : Quiet builder) (toolCallId : String)
    {update : ChatResponseUpdate} (silent : update.contents.flatMap asks = []) :
    Quiet (builder.addResult toolCallId update).1 := by
  unfold ToolCallBuilder.addResult
  dsimp only
  split
  · exact fun held member => absurd member List.not_mem_nil
  · exact fun held member => quiet_concat quiet silent member

theorem quiet_result (quiet : Quiet state.toolCallBuilder) (event : ToolCallResultEvent) :
    Quiet (state.toolCallResultCase event).1.toolCallBuilder := by
  unfold ConverterState.toolCallResultCase
  dsimp only
  split
  · exact quiet_addResult quiet event.toolCallId rfl
  · exact quiet

theorem quiet_runFinished {event : RunFinishedEvent}
    {result : ConverterState × List ChatResponseUpdate} (done : state.runFinishedCase event = .ok result) :
    Quiet result.1.toolCallBuilder := by
  rcases runFinishedCase_ok done with ⟨_, _, rfl, ⟨_, emptied⟩, _⟩
  rw [emptied]
  exact fun held member => absurd member List.not_mem_nil

theorem asks_of_ownContents {event : Event} {contents : List AIContent} (own : ownContents event = some contents) :
    contents.flatMap asks = [] := by
  cases event <;> cases own <;> rfl

theorem quiet_processEvent {deserialize : String -> Except Thrown (Option Arguments)} {inferred : Option String}
    {event : Event} {result : ConverterState × List ChatResponseUpdate} (quiet : Quiet state.toolCallBuilder)
    (done : state.processEvent deserialize inferred event = .ok result) : Quiet result.1.toolCallBuilder := by
  cases event with
  | runStarted event | runError event =>
    rw [← Except.ok.inj done]
    exact quiet
  | runFinished event => exact quiet_runFinished done
  | toolCallEnd event =>
    rcases outcome_bind_ok_iff.mp done with ⟨builder, ended, last⟩
    rw [← Except.ok.inj last]
    unfold ToolCallBuilder.endToolCall at ended
    split at ended
    · cases ended
    · split at ended
      · cases ended
      · cases ended
        exact fun held member => quiet_concat quiet rfl member
  | toolCallResult event =>
    rw [← Except.ok.inj done]
    exact quiet_result quiet event
  | _ =>
    cases processes_processEvent done with
    | builds inside texts buffer pending none stays knows => exact fun held member => quiet held (buffer ▸ member)
    | emits inside steps raw own stays =>
      have steady : Quiet ({ state with activeSteps := steps } : ConverterState).toolCallBuilder := quiet
      exact quiet_emit steady (asks_of_ownContents own)

end Quiet

/-- The gate keeps the builder, or empties it for a new run. -/
theorem quiet_gate {state next : ConverterState} {event : Event} (quiet : Quiet state.toolCallBuilder)
    (done : state.gate event = .ok next) : Quiet next.toolCallBuilder := by
  rcases (gate_ok done).2 with ⟨rfl, _⟩ | ⟨rfl, _⟩ | ⟨rfl, _⟩ | ⟨rfl, _⟩
  · exact quiet
  · exact quiet
  · exact fun held member => absurd member List.not_mem_nil
  · exact quiet

theorem quiet_step {deserialize : String -> Except Thrown (Option Arguments)} {state next : ConverterState}
    {event : Event} {output : List ChatResponseUpdate} (quiet : Quiet state.toolCallBuilder)
    (step : asChatResponseUpdates deserialize state event = .ok (next, output)) : Quiet next.toolCallBuilder := by
  rcases outcome_bind_ok_iff.mp step with ⟨gated, gating, rest⟩
  rcases outcome_bind_ok_iff.mp rest with ⟨checked, _, more⟩
  rcases outcome_bind_ok_iff.mp more with ⟨result, processing, last⟩
  cases last
  have gatedQuiet : Quiet gated.toolCallBuilder := quiet_gate quiet gating
  have ready : Quiet ({ gated with attribution := checked.1 } : ConverterState).toolCallBuilder := gatedQuiet
  exact quiet_processEvent ready processing

theorem quiet_run {deserialize : String -> Except Thrown (Option Arguments)} {events : List Event}
    {updates : List ChatResponseUpdate} {final : ConverterState}
    (runs : Stage.Runs (asChatResponseUpdates deserialize) {} events updates final) : Quiet final.toolCallBuilder := by
  refine runs.history (fun _ _ state => Quiet state.toolCallBuilder) ?_ ?_
  · exact fun held member => absurd member List.not_mem_nil
  · intro _ _ _ _ _ _ _ _ _ quiet step
    exact quiet_step quiet step

/-! ## What the flush asks -/

/-- The pair a held call is asked as, if an interrupt names the call. -/
def askedFor (interrupts : List Interrupt) (callId : String) : Option (String × Option String) :=
  ((ToolCallBuilder.interruptById interrupts).get? callId).map fun interrupt => (interrupt.id, some callId)

theorem heldCall_of_no_call {update : ChatResponseUpdate}
    (noCall : Not (∃ call, update.contents = [AIContent.functionCall call])) : heldCall update = none := by
  unfold heldCall
  split
  next call contents => exact absurd ⟨call, contents⟩ noCall
  next => rfl

variable (interrupts : List Interrupt)

theorem asks_approvalOf {update : ChatResponseUpdate}
    (silent : update.contents.flatMap asks = []) :
    (ToolCallBuilder.approvalOf (ToolCallBuilder.interruptById interrupts) update).contents.flatMap asks =
      ((heldCall update).bind (askedFor interrupts)).toList := by
  by_cases aCall : ∃ call, update.contents = [AIContent.functionCall call]
  case neg =>
    rw [heldCall_of_no_call aCall, approvalOf_of_no_call _ aCall]
    exact silent
  case pos =>
    rcases aCall with ⟨call, contents⟩
    have held : heldCall update = some call.callId := by
      unfold heldCall
      rw [contents]
    rw [held, Option.bind_some]
    unfold ToolCallBuilder.approvalOf askedFor
    rw [contents]
    dsimp only
    cases found : (ToolCallBuilder.interruptById interrupts).get? call.callId with
    | none => exact silent
    | some interrupt => rfl

theorem asked_flushed {updates : List ChatResponseUpdate}
    (silent : ∀ update ∈ updates, update.contents.flatMap asks = []) :
    asked (updates.map (ToolCallBuilder.approvalOf (ToolCallBuilder.interruptById interrupts))) =
      (updates.filterMap heldCall).filterMap (askedFor interrupts) := by
  induction updates with
  | nil => rfl
  | cons update rest ih =>
    have first := asks_approvalOf interrupts (silent update List.mem_cons_self)
    have later := ih (List.forall_mem_cons.mp silent).2
    unfold asked at later ⊢
    rw [List.map_cons, List.flatMap_cons, first, later]
    cases held : heldCall update with
    | none =>
      rw [List.filterMap_cons_none held]
      rfl
    | some callId =>
      rw [List.filterMap_cons_some held, Option.bind_some]
      cases pair : askedFor interrupts callId with
      | none =>
        rw [List.filterMap_cons_none pair]
        rfl
      | some pair' =>
        rw [List.filterMap_cons_some pair]
        rfl

theorem asked_flushWithInterrupts {builder : ToolCallBuilder} (quiet : Quiet builder) :
    asked (builder.flushWithInterrupts interrupts).2 = (heldCalls builder).filterMap (askedFor interrupts) := by
  unfold ToolCallBuilder.flushWithInterrupts
  split
  next empty =>
    unfold heldCalls
    rw [List.isEmpty_iff.mp empty]
    rfl
  next => exact asked_flushed interrupts quiet

theorem asked_append (first second : List ChatResponseUpdate) : asked (first ++ second) = asked first ++ asked second :=
  List.flatMap_append

def pairOf (interrupt : Interrupt) : String × Option String :=
  (interrupt.id, interrupt.toolCallId)

theorem asked_interruptUpdates (state : ConverterState) (event : RunFinishedEvent) (interrupts : List Interrupt) :
    asked (state.interruptUpdates event interrupts) =
      (interrupts.filter fun interrupt => !isToolInterrupt interrupt).map pairOf := by
  unfold ConverterState.interruptUpdates
  dsimp only
  split
  next empty =>
    rw [List.isEmpty_iff, List.map_eq_nil_iff] at empty
    rw [empty]
    rfl
  next =>
    unfold asked
    rw [List.flatMap_singleton]
    change (List.map _ _).flatMap asks = _
    rw [List.flatMap_map, List.map_eq_flatMap]
    rfl

theorem asked_usageUpdates (state : ConverterState) (event : Event) (usage : Option (List TokenUsage)) :
    asked (state.usageUpdates event usage) = [] := by
  unfold asked
  rw [List.flatMap_eq_nil_iff]
  intro update member
  rcases mem_usageUpdates member with ⟨_, entry, _, contents⟩
  rw [contents]
  rfl

theorem asked_attributed (owners : OrderedMap EntityKey Owner) (updates : List ChatResponseUpdate) :
    asked (updates.map (Attribution.attributed owners)) = asked updates := by
  unfold asked
  rw [List.flatMap_map]
  congr 1
  funext update
  unfold Attribution.attributed
  split <;> rfl

/-- What a finished run asks: held calls that are named, and what is not about a tool. -/
theorem asked_runFinished {deserialize : String -> Except Thrown (Option Arguments)} {state next : ConverterState}
    {event : RunFinishedEvent} {interrupts : List Interrupt} {output : List ChatResponseUpdate}
    (quiet : Quiet state.toolCallBuilder) (outcome : event.outcome = some (.interrupt interrupts))
    (step : asChatResponseUpdates deserialize state (.runFinished event) = .ok (next, output)) :
    asked output = (heldCalls state.toolCallBuilder).filterMap (askedFor interrupts) ++
      (interrupts.filter fun interrupt => !isToolInterrupt interrupt).map pairOf := by
  rcases outcome_bind_ok_iff.mp step with ⟨gated, gating, rest⟩
  rcases outcome_bind_ok_iff.mp rest with ⟨checked, _, more⟩
  rcases outcome_bind_ok_iff.mp more with ⟨result, processing, last⟩
  cases last
  have same : gated.toolCallBuilder = state.toolCallBuilder := by
    rcases (gate_ok gating).2 with ⟨rfl, _⟩ | ⟨rfl, _⟩ | ⟨_, _, started, _⟩ | ⟨rfl, _⟩
    · rfl
    · rfl
    · cases started
    · rfl
  change ConverterState.runFinishedCase _ event = _ at processing
  rcases runFinishedCase_ok processing with ⟨_, _, same', _, ⟨_, outcome', rfl, rfl⟩ | ⟨plain, _⟩⟩
  · cases outcome.symm.trans outcome'
    rw [same', asked_attributed, asked_append, asked_append, asked_usageUpdates, List.append_nil,
      asked_interruptUpdates]
    congr 1
    rw [← same] at quiet ⊢
    exact asked_flushWithInterrupts interrupts quiet
  · exact absurd outcome (plain interrupts)

/-! ## Asked once -/

theorem mem_approvalsOf {interrupts : List Interrupt} {callId : String} {interrupt : Interrupt} :
    interrupt ∈ approvalsOf interrupts callId ↔
      interrupt ∈ interrupts ∧ isToolInterrupt interrupt = true ∧ interrupt.toolCallId = some callId := by
  rw [approvalsOf, List.mem_filter, Bool.and_eq_true, beq_iff_eq]

theorem mem_approvalsOf_of_get? {interrupts : List Interrupt} {callId : String} {interrupt : Interrupt}
    (found : (ToolCallBuilder.interruptById interrupts).get? callId = some interrupt) :
    interrupt ∈ approvalsOf interrupts callId :=
  mem_approvalsOf.mpr (mem_interruptById found)

/-- A call that is named stands in the map for one of the interrupts that name it. -/
theorem exists_get?_of_approvalsOf {interrupts : List Interrupt} {callId : String} {interrupt : Interrupt}
    (named : interrupt ∈ approvalsOf interrupts callId) :
    ∃ found, (ToolCallBuilder.interruptById interrupts).get? callId = some found := by
  rcases mem_approvalsOf.mp named with ⟨member, tool, about⟩
  rw [← OrderedMap.has_eq_true_iff, ToolCallBuilder.interruptById, OrderedMap.has_ofList_iff]
  refine List.mem_map.mpr ⟨(callId, interrupt), List.mem_filterMap.mpr ⟨interrupt, ?_, ?_⟩, rfl⟩
  · exact List.mem_filter.mpr ⟨member, tool⟩
  · rw [about]
    rfl

/-- How often the held calls are asked with this id for this call. -/
theorem count_askedFor (calls : List String) (id callId : String) :
    (calls.filterMap (askedFor interrupts)).count (id, some callId) =
      if askedFor interrupts callId = some (id, some callId) then calls.count callId else 0 := by
  induction calls with
  | nil =>
    split <;> rfl
  | cons call rest ih =>
    have only : ∀ pair, askedFor interrupts call = some pair -> pair.2 = some call := by
      intro pair found
      rcases Option.map_eq_some_iff.mp found with ⟨interrupt, _, rfl⟩
      rfl
    cases asking : askedFor interrupts call with
    | none =>
      rw [List.filterMap_cons_none asking, ih]
      split
      next names =>
        have apart : call ≠ callId := fun same => by
          rw [same, names] at asking
          cases asking
        rw [List.count_cons_of_ne apart]
      next => rfl
    | some pair =>
      rw [List.filterMap_cons_some asking]
      by_cases same : call = callId
      · rw [same] at asking ⊢
        rw [asking] at ih ⊢
        rw [List.count_cons_self]
        by_cases own : pair = (id, some callId)
        · rw [own] at ih ⊢
          rw [if_pos rfl] at ih ⊢
          rw [List.count_cons_self, ih]
        · have apart : some pair ≠ some (id, some callId) := fun equal => own (Option.some.inj equal)
          rw [if_neg apart] at ih ⊢
          rw [List.count_cons_of_ne own, ih]
      · have apart : pair ≠ (id, some callId) := by
          intro own
          have about := only pair asking
          rw [own] at about
          exact same (Option.some.inj about).symm
        rw [List.count_cons_of_ne apart, List.count_cons_of_ne same, ih]

theorem not_mem_askedFor {interrupts : List Interrupt} {calls : List String} {id : String} :
    (id, none) ∉ calls.filterMap (askedFor interrupts) := by
  intro member
  rcases List.mem_filterMap.mp member with ⟨call, _, found⟩
  rcases Option.map_eq_some_iff.mp found with ⟨interrupt, _, same⟩
  cases same

/-- How many interrupts are to be asked with this id for this call. -/
theorem count_pairOf (id callId : String) :
    ((interrupts.filter isToolInterrupt).map pairOf).count (id, some callId) =
      (approvalsOf interrupts callId).countP fun interrupt => interrupt.id = id := by
  rw [List.count, List.countP_map, List.countP_filter, approvalsOf, List.countP_filter]
  apply List.countP_congr
  intro interrupt _
  simp only [Function.comp_apply, pairOf, Bool.and_eq_true, beq_iff_eq, Prod.mk.injEq, decide_eq_true_eq]
  constructor
  · rintro ⟨⟨named, about⟩, tool⟩
    exact ⟨named, tool, about⟩
  · rintro ⟨named, tool, about⟩
    exact ⟨⟨named, about⟩, tool⟩

theorem not_mem_toolPairs {interrupts : List Interrupt} {id : String} :
    (id, none) ∉ (interrupts.filter isToolInterrupt).map pairOf := by
  intro member
  rcases List.mem_map.mp member with ⟨interrupt, listed, same⟩
  have tool := (List.mem_filter.mp listed).2
  rw [isToolInterrupt, Bool.and_eq_true, show interrupt.toolCallId = none from congrArg Prod.snd same] at tool
  cases tool.2

/-- The held calls are asked as the interrupts say exactly if they are held as they are named. -/
theorem perm_askedFor_iff (builder : ToolCallBuilder) :
    ((heldCalls builder).filterMap (askedFor interrupts)).Perm ((interrupts.filter isToolInterrupt).map pairOf) ↔
      HeldAsNamed interrupts builder := by
  rw [List.perm_iff_count]
  constructor
  · intro same callId first named
    rcases exists_get?_of_approvalsOf named with ⟨found, got⟩
    have asking : askedFor interrupts callId = some (found.id, some callId) := by
      rw [askedFor, got]
      rfl
    have all : ∀ other ∈ approvalsOf interrupts callId, other.id = found.id := by
      intro other member
      have count := same (other.id, some callId)
      rw [count_askedFor, count_pairOf] at count
      by_contra apart
      rw [asking, if_neg fun pair => apart (congrArg Prod.fst (Option.some.inj pair)).symm] at count
      have none := List.countP_eq_zero.mp count.symm other member
      exact none (decide_eq_true rfl)
    constructor
    · have count := same (found.id, some callId)
      rw [count_askedFor, count_pairOf, asking, if_pos rfl] at count
      rw [count, List.countP_eq_length]
      exact fun other member => decide_eq_true (all other member)
    · intro other member
      rw [all other member, all first named]
  · intro held pair
    rcases pair with ⟨id, about⟩
    cases about with
    | none => rw [List.count_eq_zero_of_not_mem not_mem_askedFor, List.count_eq_zero_of_not_mem not_mem_toolPairs]
    | some callId =>
      rw [count_askedFor, count_pairOf]
      cases got : (ToolCallBuilder.interruptById interrupts).get? callId with
      | none =>
        have nobody : approvalsOf interrupts callId = [] := by
          rw [List.eq_nil_iff_forall_not_mem]
          intro interrupt named
          rcases exists_get?_of_approvalsOf named with ⟨found, impossible⟩
          rw [got] at impossible
          cases impossible
        rw [askedFor, got, nobody]
        rfl
      | some found =>
        have named := mem_approvalsOf_of_get? got
        rcases held callId found named with ⟨count, all⟩
        rw [askedFor, got, Option.map_some]
        by_cases own : id = found.id
        · rw [own, if_pos rfl, count, eq_comm, List.countP_eq_length]
          exact fun other member => decide_eq_true (all other member)
        · rw [if_neg fun pair => own (congrArg Prod.fst (Option.some.inj pair)).symm, eq_comm, List.countP_eq_zero]
          intro other member equal
          exact own ((of_decide_eq_true equal).symm.trans (all other member))

theorem pairs_perm :
    (interrupts.map pairOf).Perm ((interrupts.filter isToolInterrupt).map pairOf ++
      (interrupts.filter fun interrupt => !isToolInterrupt interrupt).map pairOf) := by
  rw [← List.map_append]
  exact (List.filter_append_perm isToolInterrupt interrupts).symm.map pairOf

/-- The interrupts of a run that finishes are each asked once exactly if every call that is to be approved is
held as it is named when the run finishes. -/
theorem interrupts_askedOnce_iff (deserialize : String -> Except Thrown (Option Arguments)) {past : List Event}
    {yielded output : List ChatResponseUpdate} {state next : ConverterState} {event : RunFinishedEvent}
    {interrupts : List Interrupt} (runs : Stage.Runs (asChatResponseUpdates deserialize) {} past yielded state)
    (outcome : event.outcome = some (.interrupt interrupts))
    (step : asChatResponseUpdates deserialize state (.runFinished event) = .ok (next, output)) :
    EachAskedOnce interrupts output ↔ HeldAsNamed interrupts state.toolCallBuilder := by
  rw [EachAskedOnce, asked_runFinished (quiet_run runs) outcome step, ← perm_askedFor_iff]
  constructor
  · exact fun same => (List.perm_append_right_iff _).mp (same.trans (pairs_perm interrupts))
  · exact fun same => ((List.perm_append_right_iff _).mpr same).trans (pairs_perm interrupts).symm

namespace Sample

def ask : Interrupt :=
  { id := "ask", reason := "tool_call", toolCallId := some "call" }

/-- Where the converter stands when a call has ended. -/
def waiting : ConverterState :=
  ((asChatResponseUpdates deserialize).run {} (begin ++ [call])).2.toOption.getD {}

def answer : ConverterState × List ChatResponseUpdate :=
  (asChatResponseUpdates deserialize waiting interrupted).toOption.getD ({}, [])

end Sample

open Sample in
theorem interrupts_askedOnce_iff_waiting :
    EachAskedOnce [ask] answer.2 ↔ HeldAsNamed [ask] waiting.toolCallBuilder := by
  have runs : Stage.Runs (asChatResponseUpdates deserialize) {} (begin ++ [call])
      ((asChatResponseUpdates deserialize).run {} (begin ++ [call])).1 waiting := by
    rw [Stage.runs_iff_run]
    rfl
  have step : asChatResponseUpdates deserialize waiting interrupted = .ok (answer.1, answer.2) := rfl
  exact interrupts_askedOnce_iff deserialize runs rfl step

open Sample in
/-- The call is answered, and so no longer held, when the run finishes with an interrupt about it. -/
theorem interrupt_lost :
    (asChatResponseUpdates deserialize).accepts {} (begin ++ [call, result, interrupted]) = true ∧
    ¬ EachAskedOnce [ask] ((asChatResponseUpdates deserialize).run {} (begin ++ [call, result, interrupted])).1 := by
  refine ⟨by decide +kernel, fun same => ?_⟩
  have nothing :
      (asked ((asChatResponseUpdates deserialize).run {} (begin ++ [call, result, interrupted])).1).length = 0 := by
    decide +kernel
  rw [same.length_eq] at nothing
  cases nothing

end DotnetClient
end AgUi
