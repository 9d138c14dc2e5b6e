import AgUi.Middleware.RunNext
import AgUi.Verify.Comparison
import AgUi.Verify.RunIsolation

namespace AgUi
namespace Middleware

open Library Protocol Chunks Verify

/-!
# Filtering tool calls

The middleware hides the calls of tools its configuration blocks.  It keeps
the ids of blocked calls from their START until their RESULT or the next run,
and drops what names one of them.

Looking back, an event belongs to a blocked call if the latest START of its id
in the current run named a blocked tool.  The two agree where a RESULT is the
last event of its call and an id is not taken up for an allowed tool while a
blocked call of that id has no RESULT.
-/

/-! ## The middleware -/

inductive FilterToolCallsConfig where
  | allowedToolCalls (names : List String)
  | disallowedToolCalls (names : List String)

/-- The constructor takes exactly one of the two lists. -/
def FilterToolCallsConfig.make (allowed disallowed : Option (List String)) : Except String FilterToolCallsConfig :=
  match allowed, disallowed with
  | some _, some _ => .error "Cannot specify both allowedToolCalls and disallowedToolCalls"
  | none, none => .error "Must specify either allowedToolCalls or disallowedToolCalls"
  | some names, none => .ok (.allowedToolCalls names)
  | none, some names => .ok (.disallowedToolCalls names)

def FilterToolCallsConfig.shouldFilterTool : FilterToolCallsConfig -> String -> Bool
  | .allowedToolCalls names, toolName => !names.contains toolName
  | .disallowedToolCalls names, toolName => names.contains toolName

/-- One event: the blocked ids after it, and whether it passes. -/
def filterEvent (config : FilterToolCallsConfig) (blockedToolCallIds : OrderedSet String) :
    Event -> OrderedSet String × Bool
  | .runStarted _ => (OrderedMap.empty, true)
  | .toolCallStart e =>
    if config.shouldFilterTool e.toolCallName then (blockedToolCallIds.add e.toolCallId, false)
    else (blockedToolCallIds, true)
  | .toolCallArgs e => (blockedToolCallIds, !blockedToolCallIds.has e.toolCallId)
  | .toolCallEnd e => (blockedToolCallIds, !blockedToolCallIds.has e.toolCallId)
  | .toolCallResult e =>
    if blockedToolCallIds.has e.toolCallId then (blockedToolCallIds.erase e.toolCallId, false)
    else (blockedToolCallIds, true)
  | _ => (blockedToolCallIds, true)

def filterEvents (config : FilterToolCallsConfig) (blockedToolCallIds : OrderedSet String) :
    List Event -> List Event
  | [] => []
  | event :: rest =>
    let filtered := filterEvent config blockedToolCallIds event
    if filtered.2 then event :: filterEvents config filtered.1 rest else filterEvents config filtered.1 rest

/-- What the middleware hands on of the agent behind it, and how that ends. -/
def filterToolCalls (config : FilterToolCallsConfig) (suppressed : Bool) (events : List Event) :
    List Event × Except ChunkError TransformState :=
  (filterEvents config OrderedMap.empty (runNext suppressed events).1, (runNext suppressed events).2)

/-! ## Looking back -/

/-- The call an event is about. -/
def callOf? : Event -> Option String
  | .toolCallStart e => some e.toolCallId
  | .toolCallArgs e => some e.toolCallId
  | .toolCallEnd e => some e.toolCallId
  | .toolCallResult e => some e.toolCallId
  | _ => none

/-- A call of an id ends with the next START of the id, or the next run. -/
def startsAnew (id : String) : Event -> Bool
  | .toolCallStart e => e.toolCallId == id
  | .runStarted _ => true
  | _ => false

def namesBlocked (config : FilterToolCallsConfig) : Event -> Bool
  | .toolCallStart e => config.shouldFilterTool e.toolCallName
  | _ => false

/-- The latest START of the id in the current run named a blocked tool. -/
def isBlocked (config : FilterToolCallsConfig) (past : List Event) (id : String) : Bool :=
  (past.reverse.find? (startsAnew id)).any (namesBlocked config)

/-- The event belongs to a call whose START named a blocked tool. -/
def belongsToBlocked (config : FilterToolCallsConfig) (past : List Event) (event : Event) : Bool :=
  (callOf? event).any (isBlocked config (past ++ [event]))

/-- The events, without those that belong to a blocked call. -/
def withoutBlocked (config : FilterToolCallsConfig) (past : List Event) : List Event -> List Event
  | [] => []
  | event :: rest =>
    if belongsToBlocked config past event then withoutBlocked config (past ++ [event]) rest
    else event :: withoutBlocked config (past ++ [event]) rest

def isResultOf (id : String) : Event -> Bool
  | .toolCallResult e => e.toolCallId == id
  | _ => false

/-- The latest call of the id in the current run has its result. -/
def Answered (past : List Event) (id : String) : Prop :=
  Since (fun event => isResultOf id event = true) (fun event => startsAnew id event = true) past

/-- Nothing of a blocked call comes after its result, and the id of a blocked
call is not taken up for an allowed tool before its result. -/
structure InOrder (config : FilterToolCallsConfig) (past : List Event) (event : Event) : Prop where
  resultLast : ∀ id, callOf? event = some id -> startsAnew id event = false ->
    isBlocked config past id = true -> ¬ Answered past id
  idFree : ∀ id, callOf? event = some id -> startsAnew id event = true -> namesBlocked config event = false ->
    isBlocked config past id = true -> Answered past id

variable (config : FilterToolCallsConfig)

theorem inOrder_iff (past : List Event) (event : Event) :
    InOrder config past event ↔ ∀ id ∈ callOf? event, isBlocked config past id = true ->
      (startsAnew id event = false -> ¬ Answered past id) ∧
        (startsAnew id event = true -> namesBlocked config event = false -> Answered past id) :=
  ⟨fun inOrder id about blocked => ⟨fun later => inOrder.resultLast id about later blocked,
      fun anew allowed => inOrder.idFree id about anew allowed blocked⟩,
    fun both => ⟨fun id about later blocked => (both id about blocked).1 later,
      fun id about anew allowed blocked => (both id about blocked).2 anew allowed⟩⟩

instance (past : List Event) (id : String) : Decidable (Answered past id) :=
  inferInstanceAs (Decidable (Since _ _ past))

instance (config : FilterToolCallsConfig) (past : List Event) (event : Event) :
    Decidable (InOrder config past event) :=
  decidable_of_iff _ (inOrder_iff config past event).symm

theorem isBlocked_snoc (past : List Event) (event : Event) (id : String) :
    isBlocked config (past ++ [event]) id =
      if startsAnew id event then namesBlocked config event else isBlocked config past id := by
  rw [isBlocked, List.reverse_append, List.reverse_singleton, List.singleton_append, List.find?_cons]
  cases startsAnew id event <;> rfl

theorem answered_snoc (past : List Event) (event : Event) (id : String) :
    Answered (past ++ [event]) id ↔
      isResultOf id event = true ∨ (Answered past id ∧ ¬ startsAnew id event = true) :=
  since_snoc _ _ past event

/-! ## The filter drops what belongs to blocked calls -/

/-- The blocked ids are those of blocked calls without a result. -/
def TracksBlocked (config : FilterToolCallsConfig) (past : List Event) (blocked : OrderedSet String) : Prop :=
  ∀ id, blocked.has id = true ↔ isBlocked config past id = true ∧ ¬ Answered past id

theorem tracksBlocked_nil : TracksBlocked config [] OrderedMap.empty :=
  fun _ => iff_of_false Bool.false_ne_true fun impossible => Bool.false_ne_true impossible.1

variable {blocked : OrderedSet String}

/-- What one event has to do to keep the blocked ids in step. -/
theorem tracksBlocked_snoc {config : FilterToolCallsConfig} {past : List Event} {event : Event}
    (step : ∀ id, blocked.has id = true ↔
      (if startsAnew id event then namesBlocked config event else isBlocked config past id) = true ∧
        ¬ (isResultOf id event = true ∨ (Answered past id ∧ ¬ startsAnew id event = true))) :
    TracksBlocked config (past ++ [event]) blocked := by
  intro id
  rw [step id, isBlocked_snoc, answered_snoc]

/-- Neither the start of a call, nor a result, nor the start of a run. -/
theorem tracksBlocked_idle {config : FilterToolCallsConfig} {past : List Event}
    (tracks : TracksBlocked config past blocked) {event : Event}
    (idle : ∀ id, startsAnew id event = false ∧ isResultOf id event = false) :
    TracksBlocked config (past ++ [event]) blocked := by
  apply tracksBlocked_snoc
  intro id
  rw [tracks id, (idle id).1, (idle id).2]
  simp

theorem belongsToBlocked_start (past : List Event) (e : ToolCallStartEvent) :
    belongsToBlocked config past (.toolCallStart e) = config.shouldFilterTool e.toolCallName := by
  rw [belongsToBlocked, callOf?, Option.any_some, isBlocked_snoc, startsAnew, beq_self_eq_true, if_pos rfl]
  rfl

theorem belongsToBlocked_later (past : List Event) {event : Event} (id : String)
    (about : callOf? event = some id) (later : startsAnew id event = false) :
    belongsToBlocked config past event = isBlocked config past id := by
  rw [belongsToBlocked, about, Option.any_some, isBlocked_snoc, later]
  rfl

/-- Of a call that is not over, the filter knows whether it is blocked. -/
theorem has_eq_isBlocked {config : FilterToolCallsConfig} {past : List Event}
    (tracks : TracksBlocked config past blocked) {event : Event} (inOrder : InOrder config past event) (id : String)
    (about : callOf? event = some id) (later : startsAnew id event = false) :
    blocked.has id = isBlocked config past id := by
  rw [Bool.eq_iff_iff, tracks id]
  exact ⟨And.left, fun held => ⟨held, inOrder.resultLast id about later held⟩⟩

theorem filterEvent_correct {config : FilterToolCallsConfig} {past : List Event}
    (tracks : TracksBlocked config past blocked) {event : Event} (inOrder : InOrder config past event) :
    (filterEvent config blocked event).2 = !belongsToBlocked config past event ∧
      TracksBlocked config (past ++ [event]) (filterEvent config blocked event).1 := by
  cases event with
  | runStarted e =>
    refine ⟨rfl, tracksBlocked_snoc fun id => iff_of_false Bool.false_ne_true ?_⟩
    exact fun impossible => Bool.false_ne_true impossible.1
  | toolCallStart e =>
    rw [belongsToBlocked_start, filterEvent]
    cases filters : config.shouldFilterTool e.toolCallName with
    | true =>
      refine ⟨rfl, tracksBlocked_snoc fun id => ?_⟩
      rw [if_pos rfl, OrderedSet.has_add, Bool.or_eq_true, tracks id]
      by_cases same : e.toolCallId = id
      · simp [startsAnew, namesBlocked, isResultOf, same, filters]
      · simp [startsAnew, isResultOf, same, Ne.symm same]
    | false =>
      refine ⟨rfl, tracksBlocked_snoc fun id => ?_⟩
      rw [if_neg Bool.false_ne_true, tracks id]
      by_cases same : e.toolCallId = id
      · have free := inOrder.idFree id (congrArg some same) (by simp [startsAnew, same]) filters
        simpa [startsAnew, namesBlocked, same, filters] using free
      · simp [startsAnew, isResultOf, same]
  | toolCallArgs e | toolCallEnd e =>
    rw [belongsToBlocked_later config past e.toolCallId rfl rfl,
      ← has_eq_isBlocked tracks inOrder e.toolCallId rfl rfl]
    exact ⟨rfl, tracksBlocked_idle tracks fun _ => ⟨rfl, rfl⟩⟩
  | toolCallResult e =>
    rw [belongsToBlocked_later config past e.toolCallId rfl rfl,
      ← has_eq_isBlocked tracks inOrder e.toolCallId rfl rfl, filterEvent]
    cases held : blocked.has e.toolCallId with
    | true =>
      refine ⟨rfl, tracksBlocked_snoc fun id => ?_⟩
      rw [if_pos rfl, OrderedMap.has_erase]
      by_cases same : e.toolCallId = id
      · simp [isResultOf, same]
      · simp [startsAnew, isResultOf, same, Ne.symm same, tracks id]
    | false =>
      refine ⟨rfl, tracksBlocked_snoc fun id => ?_⟩
      rw [if_neg Bool.false_ne_true]
      by_cases same : e.toolCallId = id
      · subst same
        simp [isResultOf, held]
      · simp [startsAnew, isResultOf, same, tracks id]
  | _ => exact ⟨rfl, tracksBlocked_idle tracks fun _ => ⟨rfl, rfl⟩⟩

theorem filterEvents_eq {config : FilterToolCallsConfig} (past events : List Event)
    (tracks : TracksBlocked config past blocked)
    (inOrder : EverywhereOn (fun more => InOrder config (past ++ more)) events) :
    filterEvents config blocked events = withoutBlocked config past events := by
  induction events generalizing past blocked with
  | nil => rfl
  | cons event rest ih =>
    rw [everywhereOn_cons, List.append_nil] at inOrder
    have step := filterEvent_correct tracks inOrder.1
    have later := ih (past ++ [event]) step.2 (by
      simpa only [List.append_assoc, List.singleton_append] using inOrder.2)
    rw [filterEvents, withoutBlocked]
    simp only [step.1, later]
    cases belongsToBlocked config past event <;> rfl

/-! ## What is left is valid -/

theorem withoutBlocked_snoc (past events : List Event) (newest : Event) :
    withoutBlocked config past (events ++ [newest]) =
      withoutBlocked config past events ++
        if belongsToBlocked config (past ++ events) newest then [] else [newest] := by
  induction events generalizing past with
  | nil =>
    rw [List.nil_append, withoutBlocked, withoutBlocked, List.append_nil, List.nil_append]
    cases belongsToBlocked config past newest <;> rfl
  | cons event rest ih =>
    rw [List.cons_append, withoutBlocked, withoutBlocked, ih, List.append_assoc,
      List.singleton_append]
    cases belongsToBlocked config past event <;> rfl

/-- The record of what is left after some past. -/
def recordLeft (config : FilterToolCallsConfig) (past : List Event) : Record :=
  advance Record.blank (withoutBlocked config [] past)

/-- Wherever an event that is left is compared with an owner, what is left
has put the same owner on record, or none. -/
def OwnersLeft (config : FilterToolCallsConfig) (past : List Event) (event : Event) : Prop :=
  belongsToBlocked config past event = false ->
    OwnersSurvive (advance Record.blank past) (recordLeft config past) event

theorem recordLeft_snoc (past : List Event) (event : Event) :
    recordLeft config (past ++ [event]) =
      if belongsToBlocked config past event then recordLeft config past
      else next (recordLeft config past) event := by
  rw [recordLeft, withoutBlocked_snoc, List.nil_append]
  cases belongsToBlocked config past event with
  | true => rw [if_pos rfl, if_pos rfl, List.append_nil, recordLeft]
  | false => rw [if_neg Bool.false_ne_true, if_neg Bool.false_ne_true, advance_snoc, recordLeft]

/-- The two records differ in owners, and in the calls that are blocked. -/
structure DifferInBlocked (config : FilterToolCallsConfig) (past : List Event) (record left : Record) : Prop where
  calls : ∀ id, left (.opened .toolCall id) = (record (.opened .toolCall id) && !isBlocked config past id)
  others : ∀ key, (∀ bucket id, key ≠ .owner bucket id) -> (∀ id, key ≠ .opened .toolCall id) ->
    left key = record key

namespace DifferInBlocked

variable {config : FilterToolCallsConfig} {past : List Event} {record left : Record}
  (differ : DifferInBlocked config past record left)
include differ

theorem lesser : Lesser record left where
  phase := differ.others .phase (fun _ _ => Key.noConfusion) fun _ => Key.noConfusion
  opened := by
    intro bracket id opened
    by_cases call : bracket = .toolCall
    · subst call
      rw [differ.calls, Bool.and_eq_true] at opened
      exact opened.1
    · rwa [differ.others _ (fun _ _ => Key.noConfusion) fun id same => call (by cases same; rfl)] at opened
  step := fun owner name => differ.others _ (fun _ _ => Key.noConfusion) fun _ => Key.noConfusion
  subagent := fun id => differ.others _ (fun _ _ => Key.noConfusion) fun _ => Key.noConfusion

theorem stillOpen {event : Event} (allowed : Allows record event)
    (stays : belongsToBlocked config past event = false) : StillOpen left event := by
  intro bracket id names
  have opened := opened_of_allows allowed names
  by_cases call : bracket = .toolCall
  · subst call
    have about : callOf? event = some id ∧ startsAnew id event = false := by
      rcases names with names | names <;> cases event with
      | toolCallArgs e | toolCallEnd e => cases names <;> exact ⟨rfl, rfl⟩
      | subagentFinished e | subagentError e => simp [continues?, closes?] at names
      | _ => cases names
    rw [belongsToBlocked_later config past _ about.1 about.2] at stays
    rw [differ.calls, opened, stays]
    rfl
  · rw [differ.others _ (fun _ _ => Key.noConfusion) fun id same => call (by cases same; rfl)]
    exact opened

/-- An event of a blocked call changes nothing of what is left. -/
theorem removed {event : Event} (allowed : Allows record event) (belongs : belongsToBlocked config past event = true) :
    DifferInBlocked config (past ++ [event]) (next record event) left := by
  cases event with
  | toolCallStart e =>
    rw [belongsToBlocked_start] at belongs
    refine ⟨fun id => ?_, fun key notOwner notCall => ?_⟩
    · have closed : record (.opened .toolCall e.toolCallId) = false := allowed.case.closed
      rw [isBlocked_snoc, differ.calls]
      by_cases same : id = e.toolCallId
      · subst same
        simp [startsAnew, namesBlocked, belongs, closed]
      · simp [next, callNext, Record.claim_of_ne, startsAnew, same, Ne.symm same]
    · rw [differ.others key notOwner notCall, next, callNext, Record.claim_of_ne _ _ _ _ (notOwner _ _),
        Record.put_of_ne _ _ (notCall _)]
  | toolCallEnd e =>
    rw [belongsToBlocked_later config past e.toolCallId rfl rfl] at belongs
    refine ⟨fun id => ?_, fun key notOwner notCall => ?_⟩
    · rw [isBlocked_snoc, differ.calls]
      by_cases same : id = e.toolCallId
      · subst same
        simp [startsAnew, belongs, next, closeNext]
      · simp [startsAnew, next, closeNext, same]
    · rw [differ.others key notOwner notCall, next, closeNext, Record.put_of_ne _ _ (notCall _)]
  | toolCallArgs e =>
    refine ⟨fun id => ?_, differ.others⟩
    rw [isBlocked_snoc, differ.calls]
    rfl
  | toolCallResult e =>
    refine ⟨fun id => ?_, fun key notOwner notCall => ?_⟩
    · rw [isBlocked_snoc, differ.calls]
      simp [startsAnew, next, Record.put_of_ne]
    · rw [differ.others key notOwner notCall, next, Record.put_of_ne _ _ (notOwner _ _)]
  | _ => cases belongs

theorem kept {event : Event} (stays : belongsToBlocked config past event = false) :
    DifferInBlocked config (past ++ [event]) (next record event) (next left event) where
  others := fun key notOwner notCall => next_local notOwner (differ.others key notOwner notCall) event
  calls := by
    intro id
    rw [isBlocked_snoc, Bool.eq_iff_iff, Bool.and_eq_true, opened_after, opened_after, differ.calls, Bool.and_eq_true]
    cases event with
    | toolCallStart e =>
      rw [belongsToBlocked_start] at stays
      by_cases same : e.toolCallId = id
      · simp [opens?, startsAnew, namesBlocked, same, stays]
      · simp [opens?, closes?, Event.type, startsAnew, same]
    | runStarted e => simp [opens?, closes?, Event.type, startsAnew]
    | subagentStarted e | subagentFinished e | subagentError e =>
      simp [opens?, closes?, Event.type, startsAnew]
    | toolCallEnd e =>
      by_cases same : e.toolCallId = id <;> simp [opens?, closes?, Event.type, startsAnew, same]
    | _ => simp [opens?, closes?, Event.type, startsAnew]

end DifferInBlocked

theorem differInBlocked_blank :
    DifferInBlocked config [] Record.blank Record.blank where
  calls := fun _ => rfl
  others := fun _ _ _ => rfl

theorem admits_withoutBlocked {config : FilterToolCallsConfig} (past events : List Event)
    (differ : DifferInBlocked config past (advance Record.blank past) (recordLeft config past))
    (admitted : Admits (advance Record.blank past) events)
    (owners : EverywhereOn (fun more => OwnersLeft config (past ++ more)) events) :
    Admits (recordLeft config past) (withoutBlocked config past events) := by
  induction events generalizing past with
  | nil => exact trivial
  | cons event rest ih =>
    rw [everywhereOn_cons, List.append_nil] at owners
    rw [Admits, ← advance_snoc] at admitted
    have later := ih (past ++ [event]) (by
      rw [advance_snoc, recordLeft_snoc]
      cases belongs : belongsToBlocked config past event with
      | true => exact differ.removed admitted.1 belongs
      | false => exact differ.kept belongs) admitted.2 (by
        simpa only [List.append_assoc, List.singleton_append] using owners.2)
    rw [recordLeft_snoc] at later
    rw [withoutBlocked]
    cases belongs : belongsToBlocked config past event with
    | true =>
      rw [belongs, if_pos rfl] at later
      exact later
    | false =>
      rw [belongs, if_neg Bool.false_ne_true] at later
      exact ⟨differ.lesser.allows admitted.1 (differ.stillOpen admitted.1 belongs) (owners.1 belongs), later⟩

/-! ## Where nobody names a subagent -/

theorem knowsLess_left (past : List Event) :
    KnowsLess (advance Record.blank past) (recordLeft config past) := by
  induction past using List.reverseRecOn with
  | nil => exact fun _ _ known => known
  | append_singleton past event ih =>
    rw [advance_snoc, recordLeft_snoc]
    cases belongs : belongsToBlocked config past event with
    | false => exact ih.next event
    | true =>
      intro bucket id known
      have before := ih bucket id known
      cases event with
      | toolCallStart e =>
        rw [next, callNext, claim_ne_none, Record.put_of_ne _ _ Key.noConfusion]
        exact .inr before
      | toolCallEnd e =>
        rw [next, closeNext, Record.put_of_ne _ _ Key.noConfusion]
        exact before
      | toolCallResult e =>
        rw [next, put_ne_none]
        exact .inr before
      | toolCallArgs e => exact before
      | _ => cases belongs

theorem ownedByParent_advance {events : List Event}
    (unattributed : ∀ event ∈ events, Unattributed event) :
    OwnedByParent (advance Record.blank events) := by
  induction events using List.reverseRecOn with
  | nil => exact ownedByParent_blank
  | append_singleton past event ih =>
    rw [advance_snoc]
    exact ownedByParent_next
      (ih (List.forall_mem_append.mp unattributed).1)
      (unattributed event (List.mem_append_right _ List.mem_cons_self))

theorem mem_of_mem_withoutBlocked {config : FilterToolCallsConfig} {past events : List Event} {event : Event}
    (member : event ∈ withoutBlocked config past events) : event ∈ events := by
  induction events generalizing past with
  | nil => exact member
  | cons first rest ih =>
    rw [withoutBlocked] at member
    split at member
    · exact List.mem_cons_of_mem _ (ih member)
    · rcases List.mem_cons.mp member with rfl | later
      · exact List.mem_cons_self
      · exact List.mem_cons_of_mem _ (ih later)

theorem ownersLeft_of_unattributed {events : List Event}
    (unattributed : ∀ event ∈ events, Unattributed event) :
    EverywhereOn (OwnersLeft config) events := by
  rintro past event future rfl _
  have before : ∀ other ∈ past, Unattributed other :=
    (List.forall_mem_append.mp unattributed).1
  apply ownersSurvive_of_parent (ownedByParent_advance before) _ (knowsLess_left config past)
  · exact unattributed event (List.mem_append_right _ List.mem_cons_self)
  · exact ownedByParent_advance fun other member => before other (mem_of_mem_withoutBlocked member)

/-- The filter drops exactly what belongs to blocked calls, and what is left
is valid. -/
theorem filterToolCalls_correct (config : FilterToolCallsConfig) (suppressed : Bool) (events : List Event)
    (chunkFree : ∀ event ∈ events, event.isChunk = false) (valid : accepted events = true)
    (inOrder : EverywhereOn (InOrder config) events) :
    (filterToolCalls config suppressed events).1 = withoutBlocked config [] events ∧
      (EverywhereOn (OwnersLeft config) events ∨ (∀ event ∈ events, Unattributed event) ->
        accepted (filterToolCalls config suppressed events).1 = true) := by
  have exact : (filterToolCalls config suppressed events).1 = withoutBlocked config [] events := by
    rw [filterToolCalls, runNext_of_chunkFree suppressed chunkFree]
    exact filterEvents_eq [] events (tracksBlocked_nil config) inOrder
  refine ⟨exact, fun owners => ?_⟩
  have left : EverywhereOn (OwnersLeft config) events := owners.elim id (ownersLeft_of_unattributed config)
  rw [exact, accepted_iff_admits]
  exact admits_withoutBlocked [] events (differInBlocked_blank config) ((accepted_iff_admits events).mp valid) left

/-- A blocked and an allowed call side by side; the blocked id is used again,
first for a blocked and then for an allowed call. -/
def reusedIds : List Event :=
  [.runStarted { threadId := "t", runId := "r" },
   .toolCallStart { toolCallId := "c", toolCallName := "delete" },
   .toolCallStart { toolCallId := "d", toolCallName := "search" },
   .toolCallArgs { toolCallId := "c", delta := "\x7b\x7d" },
   .toolCallEnd { toolCallId := "c" },
   .toolCallStart { toolCallId := "c", toolCallName := "delete" },
   .toolCallEnd { toolCallId := "c" },
   .toolCallResult { messageId := "m", toolCallId := "c", content := .text "done" },
   .toolCallStart { toolCallId := "c", toolCallName := "search" },
   .toolCallEnd { toolCallId := "d" },
   .toolCallEnd { toolCallId := "c" },
   .runFinished { threadId := "t", runId := "r" }]

/-- An id that a blocked call has left is used again. -/
theorem filterToolCalls_correct_reused :
    (filterToolCalls (.disallowedToolCalls ["delete"]) false reusedIds).1 =
        withoutBlocked (.disallowedToolCalls ["delete"]) [] reusedIds ∧
      accepted (filterToolCalls (.disallowedToolCalls ["delete"]) false reusedIds).1 = true := by
  have correct := filterToolCalls_correct (.disallowedToolCalls ["delete"]) false reusedIds (by decide) (by decide)
    (by decide)
  refine ⟨correct.1, correct.2 (.inr ?_)⟩
  intro event member
  simp only [reusedIds, List.mem_cons, List.not_mem_nil, or_false] at member
  rcases member with rfl | rfl | rfl | rfl | rfl | rfl | rfl | rfl | rfl | rfl | rfl | rfl <;>
    constructor <;> simp [Event.subagentRunId, Nullable.toOption, carried, echoed]

/-- The result of a blocked call comes in the next run. -/
def resultInNextRun : List Event :=
  [.runStarted { threadId := "t", runId := "r" },
   .toolCallStart { toolCallId := "c", toolCallName := "delete" },
   .toolCallEnd { toolCallId := "c" },
   .runFinished { threadId := "t", runId := "r" },
   .runStarted { threadId := "t", runId := "s" },
   .toolCallResult { messageId := "m", toolCallId := "c", content := .text "done" },
   .runFinished { threadId := "t", runId := "s" }]

/-- A blocked call has its result before its END. -/
def resultBeforeEnd : List Event :=
  [.runStarted { threadId := "t", runId := "r" },
   .toolCallStart { toolCallId := "c", toolCallName := "delete" },
   .toolCallResult { messageId := "m", toolCallId := "c", content := .text "done" },
   .toolCallEnd { toolCallId := "c" },
   .runFinished { threadId := "t", runId := "r" }]

/-- The id of a blocked call without a result is used for an allowed one. -/
def takenUpUnanswered : List Event :=
  [.runStarted { threadId := "t", runId := "r" },
   .toolCallStart { toolCallId := "c", toolCallName := "delete" },
   .toolCallEnd { toolCallId := "c" },
   .toolCallStart { toolCallId := "c", toolCallName := "search" },
   .toolCallEnd { toolCallId := "c" },
   .runFinished { threadId := "t", runId := "r" }]

/-- A blocked call of a subagent is the reason why what comes after it under
the same id is the subagent's. -/
def ownedByRemoved : List Event :=
  [.runStarted { threadId := "t", runId := "r" },
   .toolCallStart { toolCallId := "c", toolCallName := "delete", subagentRunId := .value "s" },
   .toolCallEnd { toolCallId := "c" },
   .toolCallResult { messageId := "m", toolCallId := "c", content := .text "done" },
   .toolCallStart { toolCallId := "c", toolCallName := "search" },
   .toolCallArgs { toolCallId := "c", delta := "", subagentRunId := .value "s" },
   .toolCallEnd { toolCallId := "c" },
   .runFinished { threadId := "t", runId := "r" }]

def passes (events : List Event) : List Event :=
  (filterToolCalls (.disallowedToolCalls ["delete"]) false events).1

/-- A result that passes, and three valid streams that come out invalid. -/
theorem filterToolCalls_refuted :
    (accepted resultInNextRun = true ∧
      (passes resultInNextRun).map Event.type =
        [.runStarted, .runFinished, .runStarted, .toolCallResult, .runFinished]) ∧
    (accepted resultBeforeEnd = true ∧ accepted (passes resultBeforeEnd) = false) ∧
    (accepted takenUpUnanswered = true ∧ accepted (passes takenUpUnanswered) = false) ∧
    (accepted ownedByRemoved = true ∧ accepted (passes ownedByRemoved) = false) := by
  decide

end Middleware
end AgUi
