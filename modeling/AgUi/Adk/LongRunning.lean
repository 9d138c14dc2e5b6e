import AgUi.Protocol.Event

namespace AgUi
namespace Adk

open Library Protocol

/-!
# Long-running calls

The runner delivers a long-running call several times, as a chunk, as an
aggregate and as the persisted event, and may give it another id each time.
The translator shows it once.  An id it has emitted is left out.  Of the
others it counts the calls of one name within an event, and takes the n-th of
them for the n-th call it has already shown under that name.
-/

/-! ## Events of the runner -/

/-- A function call as the Google ADK has it in the part of an event. -/
structure FunctionCall where
  id : Option String
  name : String
  args : Option (OrderedMap String Json) := none
  willContinue : Option Bool := none

structure Part where
  functionCall : Option FunctionCall := none

/-- An event; one without content is one without parts. -/
structure AdkEvent where
  parts : List Part
  longRunningToolIds : List String
  isPartial : Bool := false

/-- A function call whose id the event lists as long-running. -/
structure LongRunningCall where
  id : String
  name : String
  args : Option (OrderedMap String Json) := none

namespace AdkEvent

def functionCalls (event : AdkEvent) : List FunctionCall :=
  event.parts.filterMap Part.functionCall

/-- The call, where its id is listed as a long running one. -/
def longRunning? (event : AdkEvent) (call : FunctionCall) : Option LongRunningCall :=
  match call.id with
  | none => none
  | some id =>
    if event.longRunningToolIds.contains id then some { id, name := call.name, args := call.args } else none

def longRunningCalls (event : AdkEvent) : List LongRunningCall :=
  event.functionCalls.filterMap event.longRunning?

/-- The long-running calls of one tool, in order. -/
def callsNamed (event : AdkEvent) (name : String) : List LongRunningCall :=
  event.longRunningCalls.filter fun call => call.name = name

/-- A long-running call that is still being put together. -/
def isPreview (event : AdkEvent) (call : FunctionCall) : Bool :=
  (event.longRunning? call).isSome && (call.willContinue == some true || (event.isPartial && call.args.isNone))

end AdkEvent

/-! ## The translator -/

def requestConfirmationToolName : String := "adk_request_confirmation"

/-- `_as_mapping`. -/
def asMapping : Json -> Option (List (String × Json))
  | .object members => some members
  | _ => none

/-- The entry a mapping becomes under `key`, `null` where it is none. -/
def mappingMember (args : OrderedMap String Json) (key : String) : Option (List (String × Json)) :=
  (args.get? key).bind asMapping

/-- The hint of a confirmation, unless it is empty. -/
def confirmationMessage (toolConfirmation : Option (List (String × Json))) : Option String :=
  match (toolConfirmation.bind fun members => members.lookup "hint").bind Json.asString? with
  | some "" => none
  | hint => hint

/-- The interrupt that asks the user for a confirmation. -/
def confirmationInterrupt (call : LongRunningCall) : Interrupt :=
  let args := call.args.getD OrderedMap.empty
  let originalCall := mappingMember args "originalFunctionCall"
  let toolConfirmation := mappingMember args "toolConfirmation"
  let orNull := fun mapping : Option (List (String × Json)) => (mapping.map Json.object).getD Json.null
  { id := call.id
    reason := "confirmation"
    toolCallId := some call.id
    message := confirmationMessage toolConfirmation
    metadata := some (OrderedMap.ofList [("adk", .object
      [("originalFunctionCall", orNull originalCall), ("toolConfirmation", orNull toolConfirmation)])]) }

/-- What the translator keeps of a run for its tool calls. -/
structure EventTranslator where
  clientEmittedToolCallIds : List String
  emittedToolCallIds : List String := []
  activeToolCalls : OrderedMap String String := OrderedMap.empty
  longRunningToolIds : List String := []
  lroEmittedIdsByName : OrderedMap String (List String) := OrderedMap.empty
  pendingInterrupts : List Interrupt := []

namespace EventTranslator

/-- The ids shown under a name, in the order of the calls. -/
def ledger (translator : EventTranslator) (name : String) : List String :=
  (translator.lroEmittedIdsByName.get? name).getD []

/-- Enter a call that is shown. -/
def enter (translator : EventTranslator) (call : LongRunningCall) : EventTranslator :=
  { translator with
    longRunningToolIds := translator.longRunningToolIds ++ [call.id]
    pendingInterrupts :=
      if call.name = requestConfirmationToolName then translator.pendingInterrupts ++ [confirmationInterrupt call]
      else translator.pendingInterrupts
    lroEmittedIdsByName :=
      translator.lroEmittedIdsByName.set call.name (translator.ledger call.name ++ [call.id])
    emittedToolCallIds := call.id :: translator.emittedToolCallIds
    activeToolCalls := translator.activeToolCalls.erase call.id }

end EventTranslator

/-- How arguments are written, `serialize_tool_args`. -/
abbrev Serializer := OrderedMap String Json -> String

/-- The arguments of a call, where it has any. -/
def argsEvents (serializeToolArgs : Serializer) (call : LongRunningCall) : List Event :=
  match call.args with
  | none => []
  | some args =>
    if args.entries.isEmpty then []
    else [.toolCallArgs { toolCallId := call.id, delta := serializeToolArgs args }]

/-- The events that show a call. -/
def block (serializeToolArgs : Serializer) (call : LongRunningCall) : List Event :=
  .toolCallStart { toolCallId := call.id, toolCallName := call.name } ::
    (argsEvents serializeToolArgs call ++ [.toolCallEnd { toolCallId := call.id }])

/-- The translator on its way through the parts of an event. -/
structure Walk where
  translator : EventTranslator
  seenInEvent : OrderedMap String Nat := OrderedMap.empty
  emitted : List Event := []

namespace Walk

/-- How many calls of a name have been counted in this event. -/
def seen (walk : Walk) (name : String) : Nat :=
  (walk.seenInEvent.get? name).getD 0

/-- One long-running call. -/
def take (serializeToolArgs : Serializer) (walk : Walk) (call : LongRunningCall) : Walk :=
  if walk.translator.emittedToolCallIds.contains call.id then walk
  else
    let position := walk.seen call.name + 1
    let counted := { walk with seenInEvent := walk.seenInEvent.set call.name position }
    -- the call of this position has been shown, under another id
    if position ≤ (walk.translator.ledger call.name).length then counted
    else if walk.translator.clientEmittedToolCallIds.contains call.id then counted
    else
      { counted with
        translator := walk.translator.enter call
        emitted := walk.emitted ++ block serializeToolArgs call }

/-- One function call of the event. -/
def call (serializeToolArgs : Serializer) (event : AdkEvent) (walk : Walk) (functionCall : FunctionCall) : Walk :=
  match event.longRunning? functionCall with
  | none => walk
  | some longRunning => walk.take serializeToolArgs longRunning

end Walk

/-- An event with a preview is put off as a whole. -/
def translateLroFunctionCalls (serializeToolArgs : Serializer) (translator : EventTranslator) (event : AdkEvent) :
    EventTranslator × List Event :=
  if event.functionCalls.any event.isPreview then (translator, [])
  else
    let walk := event.functionCalls.foldl (Walk.call serializeToolArgs event) { translator }
    (walk.translator, walk.emitted)

/-! ## What one call does -/

variable {serializeToolArgs : Serializer}

theorem EventTranslator.ledger_enter (translator : EventTranslator) (call : LongRunningCall) (name : String) :
    (translator.enter call).ledger name =
      if name = call.name then translator.ledger name ++ [call.id] else translator.ledger name := by
  unfold ledger enter
  rw [OrderedMap.get?_set]
  split
  · rename_i same
    subst same
    rfl
  · rfl

namespace Walk

variable {walk : Walk} {call : LongRunningCall}

/-- Count a call of a name. -/
def count (walk : Walk) (name : String) : Walk :=
  { walk with seenInEvent := walk.seenInEvent.set name (walk.seen name + 1) }

/-- Show a call. -/
def shown (serializeToolArgs : Serializer) (walk : Walk) (call : LongRunningCall) : Walk :=
  { walk.count call.name with
    translator := walk.translator.enter call
    emitted := walk.emitted ++ block serializeToolArgs call }

theorem seen_count (name other : String) :
    (walk.count name).seen other = if other = name then walk.seen other + 1 else walk.seen other := by
  unfold seen count
  rw [OrderedMap.get?_set]
  split
  · rename_i same
    subst same
    rfl
  · rfl

theorem take_of_emitted (emitted : call.id ∈ walk.translator.emittedToolCallIds) :
    walk.take serializeToolArgs call = walk :=
  if_pos (List.contains_iff_mem.mpr emitted)

theorem take_of_replay (unseen : call.id ∉ walk.translator.emittedToolCallIds)
    (replay : walk.seen call.name + 1 ≤ (walk.translator.ledger call.name).length) :
    walk.take serializeToolArgs call = walk.count call.name := by
  unfold take
  rw [if_neg (mt List.contains_iff_mem.mp unseen)]
  exact if_pos replay

theorem take_of_beyond (unseen : call.id ∉ walk.translator.emittedToolCallIds)
    (unproxied : call.id ∉ walk.translator.clientEmittedToolCallIds)
    (beyond : (walk.translator.ledger call.name).length ≤ walk.seen call.name) :
    walk.take serializeToolArgs call = walk.shown serializeToolArgs call := by
  unfold take
  rw [if_neg (mt List.contains_iff_mem.mp unseen)]
  have notReplay : ¬ walk.seen call.name + 1 ≤ (walk.translator.ledger call.name).length :=
    Nat.not_le.mpr (Nat.lt_succ_of_le beyond)
  dsimp only
  rw [if_neg notReplay, if_neg (mt List.contains_iff_mem.mp unproxied)]
  rfl

end Walk

/-! ## What an event does -/

/-- The calls of a name whose ids have not been emitted. -/
def unemitted (translator : EventTranslator) (name : String) (calls : List LongRunningCall) : List LongRunningCall :=
  calls.filter fun call => call.name = name ∧ call.id ∉ translator.emittedToolCallIds

/-- The calls shown on the way from one point to another are those beyond the
ledger, name by name, and are entered in it. -/
structure Shows (serializeToolArgs : Serializer) (calls shown : List LongRunningCall) (before after : Walk) : Prop where
  emitted : after.emitted = before.emitted ++ shown.flatMap (block serializeToolArgs)
  named : ∀ name, shown.filter (fun call => call.name = name) =
    (unemitted before.translator name calls).drop ((before.translator.ledger name).length - before.seen name)
  ledger : ∀ name, after.translator.ledger name = before.translator.ledger name ++
    (shown.filter fun call => call.name = name).map LongRunningCall.id
  client : after.translator.clientEmittedToolCallIds = before.translator.clientEmittedToolCallIds

section Unemitted

variable {translator : EventTranslator} {call : LongRunningCall} {calls : List LongRunningCall}

theorem unemitted_of_emitted (emitted : call.id ∈ translator.emittedToolCallIds) (name : String) :
    unemitted translator name (call :: calls) = unemitted translator name calls :=
  List.filter_cons_of_neg (by simp [emitted])

theorem unemitted_cons (unseen : call.id ∉ translator.emittedToolCallIds) (name : String) :
    unemitted translator name (call :: calls) =
      if call.name = name then call :: unemitted translator name calls else unemitted translator name calls := by
  unfold unemitted
  split
  · rename_i same
    exact List.filter_cons_of_pos (by simp [unseen, same])
  · rename_i different
    exact List.filter_cons_of_neg (by simp [different])

/-- Showing a call leaves the calls with other ids as they were. -/
theorem unemitted_enter (other : ∀ next ∈ calls, next.id ≠ call.id) (name : String) :
    unemitted (translator.enter call) name calls = unemitted translator name calls := by
  apply List.filter_congr
  intro next member
  simp [EventTranslator.enter, other next member]

end Unemitted

theorem exists_shows (serializeToolArgs : Serializer) (calls : List LongRunningCall) (before : Walk)
    (distinct : (calls.map LongRunningCall.id).Nodup)
    (unproxied : ∀ call ∈ calls, call.id ∉ before.translator.clientEmittedToolCallIds)
    (counted : ∀ name, before.seen name ≤ (before.translator.ledger name).length) :
    ∃ shown, Shows serializeToolArgs calls shown before
      (calls.foldl (Walk.take serializeToolArgs) before) := by
  induction calls generalizing before with
  | nil =>
    refine ⟨[], ?_, ?_, ?_, rfl⟩
    · exact (List.append_nil _).symm
    · intro name
      exact List.drop_nil.symm
    · intro name
      exact (List.append_nil _).symm
  | cons call rest ih =>
    have restDistinct := (List.nodup_cons.mp distinct).2
    have restUnproxied := fun next member => unproxied next (List.mem_cons_of_mem call member)
    have otherIds : ∀ next ∈ rest, next.id ≠ call.id := fun next member same =>
      (List.nodup_cons.mp distinct).1 (same ▸ List.mem_map_of_mem member)
    rw [List.foldl_cons]
    by_cases emitted : call.id ∈ before.translator.emittedToolCallIds
    · rw [Walk.take_of_emitted emitted]
      rcases ih before restDistinct restUnproxied counted with ⟨shown, shows⟩
      refine ⟨shown, shows.emitted, ?_, shows.ledger, shows.client⟩
      intro name
      rw [unemitted_of_emitted emitted, shows.named name]
    · by_cases replay : before.seen call.name + 1 ≤ (before.translator.ledger call.name).length
      · rw [Walk.take_of_replay emitted replay]
        have stillCounted : ∀ name, (before.count call.name).seen name ≤
            ((before.count call.name).translator.ledger name).length := by
          intro name
          rw [Walk.seen_count]
          split
          · rename_i same
            rw [same]
            exact replay
          · exact counted name
        rcases ih (before.count call.name) restDistinct restUnproxied stillCounted with
          ⟨shown, shows⟩
        refine ⟨shown, shows.emitted, ?_, shows.ledger, shows.client⟩
        intro name
        rw [shows.named name, unemitted_cons emitted, Walk.seen_count]
        by_cases same : call.name = name
        · subst same
          have room : (before.translator.ledger call.name).length - before.seen call.name =
              (before.translator.ledger call.name).length - (before.seen call.name + 1) + 1 := by omega
          rw [if_pos rfl, if_pos rfl, room, List.drop_succ_cons]
          rfl
        · rw [if_neg (Ne.symm same), if_neg same]
          rfl
      · have beyond : (before.translator.ledger call.name).length ≤ before.seen call.name := by omega
        rw [Walk.take_of_beyond emitted (unproxied call List.mem_cons_self) beyond]
        have stillCounted : ∀ name, (before.shown serializeToolArgs call).seen name ≤
            ((before.shown serializeToolArgs call).translator.ledger name).length := by
          intro name
          change (before.count call.name).seen name ≤ ((before.translator.enter call).ledger name).length
          rw [Walk.seen_count, EventTranslator.ledger_enter]
          have already := counted name
          split
          · rw [List.length_append]
            exact Nat.add_le_add_right already 1
          · exact already
        rcases ih (before.shown serializeToolArgs call) restDistinct restUnproxied stillCounted with
          ⟨shown, shows⟩
        have named := shows.named
        have ledger := shows.ledger
        change ∀ name, _ = (unemitted (before.translator.enter call) name rest).drop
          (((before.translator.enter call).ledger name).length - (before.count call.name).seen name) at named
        change ∀ name, _ = (before.translator.enter call).ledger name ++ _ at ledger
        refine ⟨call :: shown, ?_, ?_, ?_, shows.client⟩
        · rw [shows.emitted, List.flatMap_cons, ← List.append_assoc]
          rfl
        · intro name
          rw [List.filter_cons, named name, unemitted_enter otherIds, unemitted_cons emitted,
            EventTranslator.ledger_enter, Walk.seen_count]
          by_cases same : call.name = name
          · subst same
            have noRoom : (before.translator.ledger call.name).length - before.seen call.name = 0 := by omega
            simp [noRoom]
          · simp [same, Ne.symm same]
        · intro name
          rw [ledger name, EventTranslator.ledger_enter, List.filter_cons]
          by_cases same : call.name = name
          · subst same
            simp
          · simp [same, Ne.symm same]

theorem foldl_call (event : AdkEvent) (before : Walk) :
    event.functionCalls.foldl (Walk.call serializeToolArgs event) before =
      event.longRunningCalls.foldl (Walk.take serializeToolArgs) before := by
  unfold AdkEvent.longRunningCalls
  rw [List.foldl_filterMap]
  congr 1
  funext walk functionCall
  unfold Walk.call
  cases event.longRunning? functionCall <;> rfl

theorem unemitted_eq (translator : EventTranslator) (event : AdkEvent) (name : String) :
    unemitted translator name event.longRunningCalls =
      (event.callsNamed name).filter fun call => call.id ∉ translator.emittedToolCallIds := by
  unfold unemitted AdkEvent.callsNamed
  rw [List.filter_filter]
  apply List.filter_congr
  intro call _
  rw [Bool.decide_and, Bool.and_comm]

/-- An event of complete calls shows, of each name, the calls beyond the ledger
among those whose ids have not been emitted. -/
theorem translateLroFunctionCalls_shows (serializeToolArgs : Serializer) (translator : EventTranslator)
    (event : AdkEvent)
    (complete : ∀ call ∈ event.functionCalls, event.isPreview call = false)
    (unproxied : ∀ call ∈ event.longRunningCalls, call.id ∉ translator.clientEmittedToolCallIds)
    (distinct : (event.longRunningCalls.map LongRunningCall.id).Nodup) :
    ∃ shown : List LongRunningCall, ∃ after,
      translateLroFunctionCalls serializeToolArgs translator event = (after, shown.flatMap (block serializeToolArgs)) ∧
      after.clientEmittedToolCallIds = translator.clientEmittedToolCallIds ∧
      ∀ name,
        shown.filter (fun call => call.name = name) =
          ((event.callsNamed name).filter fun call => call.id ∉ translator.emittedToolCallIds).drop
            (translator.ledger name).length ∧
        after.ledger name =
          translator.ledger name ++ (shown.filter fun call => call.name = name).map LongRunningCall.id := by
  have notPutOff : ¬ event.functionCalls.any event.isPreview = true := by
    rw [List.any_eq_true]
    rintro ⟨call, member, preview⟩
    rw [complete call member] at preview
    cases preview
  rcases exists_shows serializeToolArgs event.longRunningCalls { translator } distinct unproxied
    (fun name => Nat.zero_le _) with ⟨shown, shows⟩
  refine ⟨shown, _, ?_, shows.client, ?_⟩
  · unfold translateLroFunctionCalls
    rw [if_neg notPutOff]
    dsimp only
    rw [foldl_call, shows.emitted]
    rfl
  · intro name
    refine ⟨?_, shows.ledger name⟩
    rw [shows.named name, unemitted_eq]
    rfl

/-! ## Runs -/

/-- The deliveries of the logical calls of one tool, after one more event. -/
def record : List (List LongRunningCall) -> List LongRunningCall -> List (List LongRunningCall)
  | deliveries, [] => deliveries
  | [], call :: calls => [call] :: record [] calls
  | earlier :: deliveries, call :: calls => (earlier ++ [call]) :: record deliveries calls

/-- A run so far: the translator, what the runner has delivered of each logical
call, and what the translator has shown. -/
structure Run where
  translator : EventTranslator
  delivered : String -> List (List LongRunningCall)
  log : List Event

/-- What happens in a run: an event, or a call of another kind that the
translator emits elsewhere. -/
inductive Happening where
  | event (event : AdkEvent)
  | emittedElsewhere (id : String)

namespace Run

/-- A run with a new translator. -/
def start (clientEmittedToolCallIds : List String) : Run where
  translator := { clientEmittedToolCallIds }
  delivered := fun _ => []
  log := []

/-- One happening of a run, with what it has delivered and told so far. -/
def step (serializeToolArgs : Serializer) (run : Run) : Happening -> Run
  | .event event =>
    { translator := (translateLroFunctionCalls serializeToolArgs run.translator event).1
      delivered := fun name => record (run.delivered name) (event.callsNamed name)
      log := run.log ++ (translateLroFunctionCalls serializeToolArgs run.translator event).2 }
  | .emittedElsewhere id =>
    { run with
      translator :=
        { run.translator with emittedToolCallIds := id :: run.translator.emittedToolCallIds } }

def after (serializeToolArgs : Serializer) (run : Run) (happenings : List Happening) : Run :=
  happenings.foldl (step serializeToolArgs) run

/-- An id no call of the run has had. -/
structure Fresh (run : Run) (id : String) : Prop where
  unemitted : id ∉ run.translator.emittedToolCallIds
  undelivered : ∀ name deliveries, deliveries ∈ run.delivered name ->
    ∀ call ∈ deliveries, call.id ≠ id

/-- An event of complete calls, none of them a client proxy's, that has all
earlier calls of a name, each under an earlier id of its own or a fresh one, and
after them new calls; or has none of that name. -/
structure Delivers (run : Run) (event : AdkEvent) : Prop where
  complete : ∀ call ∈ event.functionCalls, event.isPreview call = false
  unproxied : ∀ call ∈ event.longRunningCalls, call.id ∉ run.translator.clientEmittedToolCallIds
  distinct : (event.longRunningCalls.map LongRunningCall.id).Nodup
  whole : ∀ name, event.callsNamed name ≠ [] -> (run.delivered name).length ≤ (event.callsNamed name).length
  earlier : ∀ name (place : Nat) call deliveries, (event.callsNamed name)[place]? = some call ->
    (run.delivered name)[place]? = some deliveries -> call.id ∈ deliveries.map LongRunningCall.id ∨ run.Fresh call.id
  new : ∀ name call, call ∈ (event.callsNamed name).drop (run.delivered name).length -> run.Fresh call.id

/-- What may happen in a run. -/
def Allows (run : Run) : Happening -> Prop
  | .event event => run.Delivers event
  | .emittedElsewhere id => run.Fresh id

/-- Each logical call is shown once, as it was delivered, and the ledger has its id. -/
def Exact (serializeToolArgs : Serializer) (run : Run) : Prop :=
  ∃ shown : List LongRunningCall, run.log = shown.flatMap (block serializeToolArgs) ∧ ∀ name,
    List.Forall₂ (· ∈ ·) (shown.filter fun call => call.name = name) (run.delivered name) ∧
    run.translator.ledger name = (shown.filter fun call => call.name = name).map LongRunningCall.id

/-- An event that brings a new call of a name repeats no earlier call of that
name under an id that has been emitted. -/
def Steady (run : Run) : Happening -> Prop
  | .event event => ∀ name, (run.delivered name).length < (event.callsNamed name).length ->
      ∀ call ∈ (event.callsNamed name).take (run.delivered name).length,
        call.id ∉ run.translator.emittedToolCallIds
  | .emittedElsewhere _ => True

/-- A property of what happens, all along a run. -/
def Along (serializeToolArgs : Serializer) (property : Run -> Happening -> Prop) : Run -> List Happening -> Prop
  | _, [] => True
  | run, happening :: rest =>
    property run happening ∧ Along serializeToolArgs property (run.step serializeToolArgs happening) rest

/-- A property of every state of a run. -/
def Throughout (serializeToolArgs : Serializer) (property : Run -> Prop) : Run -> List Happening -> Prop
  | run, [] => property run
  | run, happening :: rest =>
    property run ∧ Throughout serializeToolArgs property (run.step serializeToolArgs happening) rest

end Run

theorem record_nil (deliveries : List (List LongRunningCall)) : record deliveries [] = deliveries := by
  cases deliveries <;> rfl

theorem length_record (deliveries : List (List LongRunningCall)) (calls : List LongRunningCall) :
    (record deliveries calls).length = max deliveries.length calls.length := by
  induction deliveries generalizing calls with
  | nil =>
    induction calls with
    | nil => rfl
    | cons call calls ih =>
      rw [record, List.length_cons, ih]
      simp
  | cons earlier deliveries ih =>
    cases calls with
    | nil =>
      rw [record_nil]
      simp
    | cons call calls =>
      rw [record, List.length_cons, ih, List.length_cons, List.length_cons, Nat.succ_max_succ]

/-- Calls shown once stay so when the new calls of an event are shown after them. -/
theorem forall₂_record {shown : List LongRunningCall} {deliveries : List (List LongRunningCall)}
    (each : List.Forall₂ (· ∈ ·) shown deliveries) (calls : List LongRunningCall) :
    List.Forall₂ (· ∈ ·) (shown ++ calls.drop deliveries.length) (record deliveries calls) := by
  induction each generalizing calls with
  | nil =>
    rw [List.length_nil, List.drop_zero, List.nil_append]
    induction calls with
    | nil => exact .nil
    | cons call calls ih =>
      exact .cons (List.mem_singleton_self call) ih
  | @cons first earlier shown deliveries member each ih =>
    cases calls with
    | nil =>
      rw [List.drop_nil, List.append_nil, record_nil]
      exact .cons member each
    | cons call calls =>
      rw [List.length_cons, List.drop_succ_cons, List.cons_append, record]
      exact .cons (List.mem_append_left [call] member) (ih calls)

namespace Run

variable {run : Run}

theorem Exact.length_ledger (exact : run.Exact serializeToolArgs) (name : String) :
    (run.translator.ledger name).length = (run.delivered name).length := by
  rcases exact with ⟨shown, _, named⟩
  rw [(named name).2, List.length_map]
  exact (named name).1.length_eq

/-- After an exact start an event leaves the run exact just when it is steady. -/
theorem exact_step_event {event : AdkEvent} (exact : run.Exact serializeToolArgs) (delivers : run.Delivers event) :
    (run.step serializeToolArgs (.event event)).Exact serializeToolArgs ↔ run.Steady (.event event) := by
  have lengths := exact.length_ledger
  rcases translateLroFunctionCalls_shows serializeToolArgs run.translator event
    delivers.complete delivers.unproxied delivers.distinct with ⟨more, after, translated, _, named⟩
  have translator : (run.step serializeToolArgs (.event event)).translator = after :=
    congrArg Prod.fst translated
  constructor
  · intro exactAfter name brings call member
    have ledger := exactAfter.length_ledger name
    rw [translator, (named name).2, (named name).1, List.length_append, List.length_map, List.length_drop,
      lengths name] at ledger
    change _ = (record (run.delivered name) (event.callsNamed name)).length at ledger
    rw [length_record, max_eq_right (Nat.le_of_lt brings)] at ledger
    have all : ((event.callsNamed name).filter fun call =>
        call.id ∉ run.translator.emittedToolCallIds).length = (event.callsNamed name).length := by
      omega
    have kept := List.length_filter_eq_length_iff.mp all call (List.mem_of_mem_take member)
    exact of_decide_eq_true kept
  · intro steady
    have beyond : ∀ name, more.filter (fun call => call.name = name) =
        (event.callsNamed name).drop (run.delivered name).length := by
      intro name
      rw [(named name).1, lengths name]
      by_cases brings : (run.delivered name).length < (event.callsNamed name).length
      · have unseen : ∀ call ∈ event.callsNamed name,
            call.id ∉ run.translator.emittedToolCallIds := by
          intro call member
          rw [← List.take_append_drop (run.delivered name).length (event.callsNamed name), List.mem_append] at member
          rcases member with repeated | new
          · exact steady name brings call repeated
          · exact (delivers.new name call new).unemitted
        rw [List.filter_eq_self.mpr fun call member => decide_eq_true (unseen call member)]
      · have short := Nat.le_of_not_lt brings
        rw [List.drop_of_length_le short, List.drop_of_length_le ((List.length_filter_le _ _).trans short)]
    rcases exact with ⟨shown, log, shownNamed⟩
    refine ⟨shown ++ more, ?_, ?_⟩
    · rw [List.flatMap_append, ← log]
      exact congrArg (run.log ++ ·) (congrArg Prod.snd translated)
    · intro name
      rw [translator, (named name).2, List.filter_append, List.map_append, (shownNamed name).2, beyond name]
      exact ⟨forall₂_record (shownNamed name).1 (event.callsNamed name), rfl⟩

theorem exact_step {happening : Happening} (exact : run.Exact serializeToolArgs) (allows : run.Allows happening) :
    (run.step serializeToolArgs happening).Exact serializeToolArgs ↔ run.Steady happening := by
  cases happening with
  | event event => exact exact_step_event exact allows
  | emittedElsewhere id => exact iff_of_true exact trivial

theorem exact_start (clientEmittedToolCallIds : List String) :
    (start clientEmittedToolCallIds).Exact serializeToolArgs :=
  ⟨[], rfl, fun _ => ⟨.nil, rfl⟩⟩

theorem exact_throughout {happenings : List Happening} (exact : run.Exact serializeToolArgs)
    (allowed : run.Along serializeToolArgs Allows happenings) :
    run.Throughout serializeToolArgs (Exact serializeToolArgs) happenings ↔
      run.Along serializeToolArgs Steady happenings := by
  induction happenings generalizing run with
  | nil => exact iff_of_true exact trivial
  | cons happening rest ih =>
    have step := exact_step exact allowed.1
    constructor
    · rintro ⟨_, later⟩
      have exactNext : (run.step serializeToolArgs happening).Exact serializeToolArgs := by
        cases rest with
        | nil => exact later
        | cons _ _ => exact later.1
      exact ⟨step.mp exactNext, (ih exactNext allowed.2).mp later⟩
    · rintro ⟨steady, later⟩
      exact ⟨exact, (ih (step.mpr steady) allowed.2).mpr later⟩

end Run

/-- Every logical call of a run is shown once, all along it, just when no event
that brings a new call of a tool repeats an earlier one under an emitted id. -/
theorem shown_once_iff_steady (serializeToolArgs : Serializer) (clientEmittedToolCallIds : List String)
    (happenings : List Happening)
    (allowed : (Run.start clientEmittedToolCallIds).Along serializeToolArgs Run.Allows happenings) :
    (Run.start clientEmittedToolCallIds).Throughout serializeToolArgs (Run.Exact serializeToolArgs) happenings ↔
      (Run.start clientEmittedToolCallIds).Along serializeToolArgs Run.Steady happenings :=
  Run.exact_throughout (Run.exact_start clientEmittedToolCallIds) allowed

/-! ### Two calls of one tool -/

/-- A call of the tool `ask`. -/
def ask (id : String) : LongRunningCall :=
  { id, name := "ask", args := some OrderedMap.empty }

/-- An event with calls of the tool `ask`. -/
def asking (ids : List String) : AdkEvent where
  parts := ids.map fun id => { functionCall := some { id := some id, name := "ask", args := some OrderedMap.empty } }
  longRunningToolIds := ids

theorem functionCalls_asking (ids : List String) :
    (asking ids).functionCalls =
      ids.map fun id => { id := some id, name := "ask", args := some OrderedMap.empty } := by
  unfold AdkEvent.functionCalls asking
  rw [List.filterMap_map]
  exact congrFun List.filterMap_eq_map ids

theorem longRunningCalls_asking (ids : List String) : (asking ids).longRunningCalls = ids.map ask := by
  unfold AdkEvent.longRunningCalls
  rw [functionCalls_asking, List.filterMap_map, ← List.filterMap_eq_map]
  apply List.filterMap_congr
  intro id member
  exact if_pos (List.contains_iff_mem.mpr member)

theorem callsNamed_asking (ids : List String) (name : String) :
    (asking ids).callsNamed name = if name = "ask" then ids.map ask else [] := by
  unfold AdkEvent.callsNamed
  rw [longRunningCalls_asking]
  by_cases same : name = "ask"
  · simp [same, ask]
  · simp [same, Ne.symm same, ask]

/-- The run after one event with the call `a`. -/
def askedOnce : Run :=
  (Run.start []).step (fun _ => "") (.event (asking ["a"]))

theorem delivered_askedOnce (name : String) :
    askedOnce.delivered name = if name = "ask" then [[ask "a"]] else [] := by
  change record [] ((asking ["a"]).callsNamed name) = _
  rw [callsNamed_asking]
  split <;> rfl

theorem fresh_start (id : String) : (Run.start []).Fresh id :=
  ⟨List.not_mem_nil, fun _ _ member => absurd member List.not_mem_nil⟩

theorem fresh_askedOnce {id : String} (other : id ≠ "a") : askedOnce.Fresh id where
  unemitted := by
    have emitted : askedOnce.translator.emittedToolCallIds = ["a"] := by decide +kernel
    rw [emitted]
    exact fun member => other (List.mem_singleton.mp member)
  undelivered := by
    intro name deliveries member call delivered same
    rw [delivered_askedOnce] at member
    split at member
    · cases List.mem_singleton.mp member
      cases List.mem_singleton.mp delivered
      exact other same.symm
    · cases member

theorem delivers_asking {run : Run} {ids : List String} (unproxied : run.translator.clientEmittedToolCallIds = [])
    (distinct : ids.Nodup) (whole : (run.delivered "ask").length ≤ ids.length)
    (earlier : ∀ (place : Nat) id deliveries, ids[place]? = some id ->
      (run.delivered "ask")[place]? = some deliveries -> id ∈ deliveries.map LongRunningCall.id ∨ run.Fresh id)
    (new : ∀ id ∈ ids.drop (run.delivered "ask").length, run.Fresh id) : run.Delivers (asking ids) where
  complete := by
    intro call member
    rw [functionCalls_asking, List.mem_map] at member
    rcases member with ⟨id, _, rfl⟩
    exact Bool.and_false _
  unproxied := by
    intro call _
    rw [unproxied]
    exact List.not_mem_nil
  distinct := by
    rw [longRunningCalls_asking, List.map_map]
    exact (List.map_id ids).symm ▸ distinct
  whole := by
    intro name some
    rw [callsNamed_asking] at some ⊢
    split at some
    · rename_i same
      rw [if_pos same, List.length_map, same]
      exact whole
    · exact absurd rfl some
  earlier := by
    intro name place call deliveries called delivered
    rw [callsNamed_asking] at called
    split at called
    · rename_i same
      subst same
      rw [List.getElem?_map, Option.map_eq_some_iff] at called
      rcases called with ⟨id, found, rfl⟩
      exact earlier place id deliveries found delivered
    · cases called
  new := by
    intro name call member
    rw [callsNamed_asking] at member
    split at member
    · rename_i same
      subst same
      rw [← List.map_drop, List.mem_map] at member
      rcases member with ⟨id, member, rfl⟩
      exact new id member
    · rw [List.drop_nil] at member
      cases member

theorem delivers_first : (Run.start []).Delivers (asking ["a"]) :=
  delivers_asking rfl (by decide) (Nat.zero_le _)
    (fun _ id _ _ _ => .inr (fresh_start id)) (fun id _ => fresh_start id)

/-- The tool asked again, first under an id of its own and then with a second call. -/
theorem delivers_second {id other : String} (different : other ≠ "a") (distinct : id ≠ other) :
    askedOnce.Delivers (asking [id, other]) := by
  have once : askedOnce.delivered "ask" = [[ask "a"]] := delivered_askedOnce "ask"
  refine delivers_asking rfl (by simpa using distinct) ?_ ?_ ?_
  · rw [once]
    exact Nat.le_succ 1
  · intro place found deliveries called delivered
    rw [once] at delivered
    cases place with
    | zero =>
      cases called
      cases delivered
      by_cases same : id = "a"
      · exact .inl (same ▸ List.mem_singleton_self "a")
      · exact .inr (fresh_askedOnce same)
    | succ place => cases delivered
  · intro new member
    rw [once] at member
    cases List.mem_singleton.mp member
    exact fresh_askedOnce different

/-- A call that comes again under a fresh id, with a second call after it: each is shown once. -/
theorem shown_once_asked_again :
    (Run.start []).Throughout (fun _ => "") (Run.Exact fun _ => "")
      [.event (asking ["a"]), .event (asking ["b", "c"])] := by
  have allowed : (Run.start []).Along (fun _ => "") Run.Allows
      [.event (asking ["a"]), .event (asking ["b", "c"])] :=
    ⟨delivers_first, delivers_second (by decide) (by decide), trivial⟩
  refine (shown_once_iff_steady (fun _ => "") [] _ allowed).mpr ⟨?_, ?_, trivial⟩
  · intro name _ call member
    change call ∈ ((asking ["a"]).callsNamed name).take 0 at member
    rw [List.take_zero] at member
    cases member
  · intro name _ call member
    change call ∈ ((asking ["b", "c"]).callsNamed name).take (askedOnce.delivered name).length at member
    change call.id ∉ askedOnce.translator.emittedToolCallIds
    have emitted : askedOnce.translator.emittedToolCallIds = ["a"] := by decide +kernel
    rw [delivered_askedOnce, callsNamed_asking] at member
    split at member
    · cases List.mem_singleton.mp member
      rw [emitted]
      decide
    · cases member

/-- A call that comes again under its own id, with a second call after it: the second is never shown. -/
theorem asked_again_not_exact :
    (Run.start []).Along (fun _ => "") Run.Allows [.event (asking ["a"]), .event (asking ["a", "c"])] ∧
      ¬ ((Run.start []).after (fun _ => "") [.event (asking ["a"]), .event (asking ["a", "c"])]).Exact fun _ => "" := by
  refine ⟨⟨delivers_first, delivers_second (by decide) (by decide), trivial⟩, ?_⟩
  intro exact
  have lengths := exact.length_ledger "ask"
  revert lengths
  decide +kernel

end Adk
end AgUi
