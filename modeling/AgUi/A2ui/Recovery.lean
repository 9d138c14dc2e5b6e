import AgUi.A2ui.Surfaces

namespace AgUi
namespace A2ui

open Library Protocol Middleware

/-!
# Calls a history leaves unanswered

Before a turn begins, `recoverUnansweredCalls` answers the rendering calls to
which the history has no result.  The results are placed in the history that
goes downstream and are announced in the stream that comes back.
-/

/-! ## Pending calls -/

/-- One pending call for each id, which is the last of that id, where the first is. -/
def pendingById (messages : List Message) : OrderedMap String ToolCall :=
  OrderedMap.ofList ((unansweredToolCalls messages).map fun call => (call.id, call))

/-- The calls of the messages that no tool message answers, in the order of the calls. -/
def findPendingToolCalls (messages : List Message) : List ToolCall :=
  (pendingById messages).entries.map Prod.snd

/-- The unanswered call an id stands for: the last one that has it. -/
def lastUnanswered (messages : List Message) (id : String) : Option ToolCall :=
  (unansweredToolCalls messages).reverse.find? fun call => call.id = id

/-- The rendering calls among the pending ones. -/
def pendingRenderCalls (names : List String) (messages : List Message) : List ToolCall :=
  (findPendingToolCalls messages).filter fun call => names.contains call.function.name

/-- An id stands for an unanswered call of a rendering tool. -/
def PendingRender (names : List String) (messages : List Message) (id : String) : Prop :=
  ∃ call, lastUnanswered messages id = some call ∧ call.function.name ∈ names

theorem get?_foldl_set_calls (calls : List ToolCall) (map : OrderedMap String ToolCall) (id : String) :
    ((calls.map fun call => (call.id, call)).foldl (fun map entry => map.set entry.1 entry.2) map).get? id =
      (calls.reverse.find? fun call => call.id = id).or (map.get? id) := by
  induction calls generalizing map with
  | nil => rfl
  | cons call rest ih =>
    rw [List.map_cons, List.foldl_cons, ih, List.reverse_cons, List.find?_append,
      OrderedMap.get?_set]
    cases (rest.reverse.find? fun call => call.id = id) with
    | some later => rfl
    | none =>
      by_cases same : id = call.id
      · simp [same]
      · simp [same, Ne.symm same]

theorem get?_pendingById (messages : List Message) (id : String) :
    (pendingById messages).get? id = lastUnanswered messages id := by
  have found := get?_foldl_set_calls (unansweredToolCalls messages) OrderedMap.empty id
  rw [OrderedMap.get?_empty, Option.or_none] at found
  exact found

theorem id_of_lastUnanswered {messages : List Message} {id : String} {call : ToolCall}
    (last : lastUnanswered messages id = some call) : call.id = id := by
  have same := List.find?_some last
  simpa using same

theorem mem_findPendingToolCalls (messages : List Message) (call : ToolCall) :
    call ∈ findPendingToolCalls messages ↔ lastUnanswered messages call.id = some call := by
  have entry : ∀ id, (id, call) ∈ (pendingById messages).entries ↔ lastUnanswered messages id = some call := by
    intro id
    rw [OrderedMap.mem_entries_iff, get?_pendingById]
  unfold findPendingToolCalls
  rw [List.mem_map]
  constructor
  · rintro ⟨⟨id, found⟩, member, rfl⟩
    have last := (entry id).mp member
    rw [id_of_lastUnanswered last]
    exact last
  · intro last
    exact ⟨(call.id, call), (entry call.id).mpr last, rfl⟩

/-- An id is found at most once. -/
theorem nodup_findPendingToolCalls (messages : List Message) :
    ((findPendingToolCalls messages).map ToolCall.id).Nodup := by
  have same : (findPendingToolCalls messages).map ToolCall.id = (pendingById messages).keys := by
    rw [findPendingToolCalls, List.map_map]
    refine List.map_congr_left fun entry member => ?_
    have last : lastUnanswered messages entry.1 = some entry.2 := by
      rw [← get?_pendingById, ← OrderedMap.mem_entries_iff]
      exact member
    exact id_of_lastUnanswered last
  rw [same]
  exact (pendingById messages).keys_nodup

theorem mem_pendingRenderCalls_iff (names : List String) (messages : List Message) (id : String) :
    id ∈ (pendingRenderCalls names messages).map ToolCall.id ↔ PendingRender names messages id := by
  simp only [pendingRenderCalls, List.mem_map, List.mem_filter, mem_findPendingToolCalls, List.contains_iff_mem]
  constructor
  · rintro ⟨call, ⟨last, named⟩, rfl⟩
    exact ⟨call, last, named⟩
  · rintro ⟨call, last, named⟩
    have same := id_of_lastUnanswered last
    exact ⟨call, ⟨same.symm ▸ last, named⟩, same⟩

theorem nodup_pendingRenderCalls (names : List String) (messages : List Message) :
    ((pendingRenderCalls names messages).map ToolCall.id).Nodup :=
  (nodup_findPendingToolCalls messages).sublist (List.filter_sublist.map _)

/-! ## Recovery -/

/-- The parts of the run input that are read here. -/
structure A2UIInput extends RunInput where
  resume : Option (List Json) := none
  forwardedProps : Option Json := none
  /-- Descriptions and values. -/
  context : List (String × String) := []

/-- The turn resumes an approval: `resume` is not empty, or a command has a `resume`. -/
def A2UIInput.isResume (input : A2UIInput) : Bool :=
  input.resume.any (fun entries => !entries.isEmpty) ||
    ((input.forwardedProps.bind fun props => props.member? "command").bind fun command =>
      command.member? "resume").isSome

def unansweredContent : String :=
  "\x7b\"status\":\"cancelled\",\"code\":\"a2ui_unanswered_call\",\"error\":\"Previous A2UI rendering was not " ++
    "confirmed. The unanswered render was cancelled before continuation.\"\x7d"

def recoveredResult (messageId : String) (call : ToolCall) : ToolCallResultEvent :=
  { messageId := messageId, toolCallId := call.id, content := .text unansweredContent }

def resultMessage (event : ToolCallResultEvent) : Message :=
  { id := event.messageId, role := .tool, content := some event.content, toolCallId := some event.toolCallId }

/-- The results for the calls of one message, and the results that remain. -/
def placeAfter (byId : OrderedMap String ToolCallResultEvent) :
    List ToolCall -> List ToolCallResultEvent × OrderedMap String ToolCallResultEvent
  | [] => ([], byId)
  | call :: rest =>
    match byId.get? call.id with
    | none => placeAfter byId rest
    | some result =>
      let later := placeAfter (byId.erase call.id) rest
      (result :: later.1, later.2)

/-- The messages, each with the results that are placed right after it. -/
def placeResults :
    OrderedMap String ToolCallResultEvent -> List Message -> List (Message × List ToolCallResultEvent)
  | _, [] => []
  | byId, message :: rest =>
    if message.role = .assistant then
      let placed := placeAfter byId message.calls
      (message, placed.1) :: placeResults placed.2 rest
    else (message, []) :: placeResults byId rest

/-- Every message followed by the results that are put behind it. -/
def withResults (placed : List (Message × List ToolCallResultEvent)) : List Message :=
  placed.flatMap fun block => block.1 :: block.2.map resultMessage

variable (names : List String) (randomUUID : Nat -> String)

/-- The answers made up for the renderings that an earlier turn left open. -/
def recoveredResults (messages : List Message) : List ToolCallResultEvent :=
  (pendingRenderCalls names messages).mapIdx fun position call => recoveredResult (randomUUID position) call

/-- The history, each message with the results that go after it. -/
def placedResults (messages : List Message) : List (Message × List ToolCallResultEvent) :=
  let byId := OrderedMap.ofList ((recoveredResults names randomUUID messages).map
    fun result => (result.toolCallId, result))
  placeResults byId messages

/-- The history that goes downstream, and the results to announce. -/
def recoverUnansweredCalls (input : A2UIInput) : A2UIInput × List ToolCallResultEvent :=
  if input.isResume then (input, [])
  else
    let results := recoveredResults names randomUUID input.messages
    if results.isEmpty then (input, results)
    else ({ input with messages := withResults (placedResults names randomUUID input.messages) }, results)

/-! ## Where results are placed -/

/-- Results are kept under the ids of their calls. -/
def ByCall (byId : OrderedMap String ToolCallResultEvent) : Prop :=
  ∀ id result, byId.get? id = some result -> result.toolCallId = id

variable {byId : OrderedMap String ToolCallResultEvent}

theorem ByCall.erase (byCall : ByCall byId) (id : String) : ByCall (byId.erase id) :=
  fun other result found => byCall other result (OrderedMap.get?_of_erase _ found)

theorem get?_placeAfter (byId : OrderedMap String ToolCallResultEvent) (calls : List ToolCall) (id : String) :
    (placeAfter byId calls).2.get? id = if id ∈ calls.map ToolCall.id then none else byId.get? id := by
  induction calls generalizing byId with
  | nil => simp [placeAfter]
  | cons call rest ih =>
    unfold placeAfter
    cases found : byId.get? call.id with
    | none =>
      rw [ih]
      by_cases same : id = call.id
      · subst same
        simp [found]
      · simp [same]
    | some result =>
      rw [ih, OrderedMap.get?_erase]
      by_cases same : id = call.id <;> simp [same]

theorem mem_placeAfter (byId : OrderedMap String ToolCallResultEvent) (calls : List ToolCall)
    (result : ToolCallResultEvent) :
    result ∈ (placeAfter byId calls).1 ↔
      ∃ id ∈ calls.map ToolCall.id, byId.get? id = some result := by
  induction calls generalizing byId with
  | nil => simp [placeAfter]
  | cons call rest ih =>
    unfold placeAfter
    cases found : byId.get? call.id with
    | none =>
      rw [ih]
      constructor
      · rintro ⟨id, member, kept⟩
        exact ⟨id, List.mem_cons_of_mem _ member, kept⟩
      · rintro ⟨id, member, kept⟩
        rcases List.mem_cons.mp member with rfl | member
        · rw [found] at kept
          cases kept
        · exact ⟨id, member, kept⟩
    | some placed =>
      rw [List.mem_cons, ih]
      constructor
      · rintro (rfl | ⟨id, member, kept⟩)
        · exact ⟨call.id, List.mem_cons_self, found⟩
        · exact ⟨id, List.mem_cons_of_mem _ member, OrderedMap.get?_of_erase _ kept⟩
      · rintro ⟨id, member, kept⟩
        by_cases same : id = call.id
        · subst same
          rw [found] at kept
          exact .inl (Option.some.inj kept).symm
        · refine .inr ⟨id, (List.mem_cons.mp member).resolve_left same, ?_⟩
          rw [OrderedMap.get?_erase, if_neg same]
          exact kept

theorem nodup_placeAfter (byCall : ByCall byId)
    (calls : List ToolCall) : ((placeAfter byId calls).1.map ToolCallResultEvent.toolCallId).Nodup := by
  induction calls generalizing byId with
  | nil => exact List.nodup_nil
  | cons call rest ih =>
    unfold placeAfter
    cases found : byId.get? call.id with
    | none => exact ih byCall
    | some result =>
      refine List.nodup_cons.mpr ⟨?_, ih (byCall.erase call.id)⟩
      rw [byCall _ _ found]
      intro member
      rcases List.mem_map.mp member with ⟨other, placed, same⟩
      rcases (mem_placeAfter _ _ _).mp placed with ⟨id, _, kept⟩
      have own := byCall.erase call.id _ _ kept
      rw [OrderedMap.get?_erase, if_pos (own.symm.trans same)] at kept
      cases kept

/-- The ids of the calls made in a history. -/
def calledIds (messages : List Message) : List String :=
  messages.flatMap fun message => if message.role = .assistant then message.calls.map ToolCall.id else []

theorem fst_placeResults (byId : OrderedMap String ToolCallResultEvent) (messages : List Message) :
    (placeResults byId messages).map Prod.fst = messages := by
  induction messages generalizing byId with
  | nil => rfl
  | cons message rest ih =>
    unfold placeResults
    split <;> exact congrArg (message :: ·) (ih _)

/-- Results go after a message that made their calls. -/
theorem owner_placeResults (byCall : ByCall byId)
    {messages : List Message} {block : Message × List ToolCallResultEvent}
    (member : block ∈ placeResults byId messages) {result : ToolCallResultEvent} (placed : result ∈ block.2) :
    block.1.role = .assistant ∧ block.1.hasCall result.toolCallId = true := by
  induction messages generalizing byId with
  | nil => cases member
  | cons message rest ih =>
    unfold placeResults at member
    split at member
    · rename_i assistant
      rcases List.mem_cons.mp member with rfl | member
      · rcases (mem_placeAfter _ _ _).mp placed with ⟨id, called, kept⟩
        rw [byCall _ _ kept]
        rcases List.mem_map.mp called with ⟨call, made, same⟩
        exact ⟨assistant, List.any_eq_true.mpr ⟨call, made, by simp [same]⟩⟩
      · refine ih (fun id other kept => ?_) member
        rw [get?_placeAfter] at kept
        split at kept
        · cases kept
        · exact byCall id other kept
    · rcases List.mem_cons.mp member with rfl | member
      · cases placed
      · exact ih byCall member

theorem mem_placeResults (byId : OrderedMap String ToolCallResultEvent) (messages : List Message)
    (result : ToolCallResultEvent) :
    result ∈ (placeResults byId messages).flatMap Prod.snd ↔
      ∃ id ∈ calledIds messages, byId.get? id = some result := by
  induction messages generalizing byId with
  | nil => simp [placeResults, calledIds]
  | cons message rest ih =>
    unfold placeResults calledIds
    by_cases assistant : message.role = .assistant
    · rw [if_pos assistant, List.flatMap_cons, List.flatMap_cons, if_pos assistant, List.mem_append, mem_placeAfter,
        ih]
      constructor
      · rintro (⟨id, called, kept⟩ | ⟨id, called, kept⟩)
        · exact ⟨id, List.mem_append_left _ called, kept⟩
        · rw [get?_placeAfter] at kept
          split at kept
          · cases kept
          · exact ⟨id, List.mem_append_right _ called, kept⟩
      · rintro ⟨id, called, kept⟩
        by_cases here : id ∈ message.calls.map ToolCall.id
        · exact .inl ⟨id, here, kept⟩
        · refine .inr ⟨id, (List.mem_append.mp called).resolve_left here, ?_⟩
          rw [get?_placeAfter, if_neg here]
          exact kept
    · rw [if_neg assistant, List.flatMap_cons, List.flatMap_cons, if_neg assistant, List.nil_append, List.nil_append]
      exact ih byId

theorem nodup_placeResults (byCall : ByCall byId) (messages : List Message) :
    (((placeResults byId messages).flatMap Prod.snd).map ToolCallResultEvent.toolCallId).Nodup := by
  induction messages generalizing byId with
  | nil => exact List.nodup_nil
  | cons message rest ih =>
    unfold placeResults
    split
    · have remaining : ByCall (placeAfter byId message.calls).2 := by
        intro id result kept
        rw [get?_placeAfter] at kept
        split at kept
        · cases kept
        · exact byCall id result kept
      rw [List.flatMap_cons, List.map_append, List.nodup_append]
      refine ⟨nodup_placeAfter byCall _, ih remaining, ?_⟩
      intro id first other second same
      rcases List.mem_map.mp first with ⟨one, placed, rfl⟩
      rcases List.mem_map.mp second with ⟨two, later, rfl⟩
      rcases (mem_placeAfter _ _ _).mp placed with ⟨id, called, kept⟩
      rcases (mem_placeResults _ _ _).mp later with ⟨name, _, still⟩
      have own : one.toolCallId = id := byCall _ _ kept
      have named : two.toolCallId = name := remaining _ _ still
      rw [get?_placeAfter, if_pos (by rw [← named, ← same, own]; exact called)] at still
      cases still
    · exact ih byCall

/-! ## What is pending afterwards -/

section

variable (placed : List (Message × List ToolCallResultEvent))

include placed

/-- Tool messages make no calls. -/
theorem calls_withResults :
    ((withResults placed).flatMap fun message => if message.role = .assistant then message.calls else []) =
      (placed.map Prod.fst).flatMap fun message => if message.role = .assistant then message.calls else [] := by
  induction placed with
  | nil => rfl
  | cons block rest ih =>
    have silent : ((block.2.map resultMessage).flatMap fun message =>
        if message.role = .assistant then message.calls else []) = [] := by
      rw [List.flatMap_map]
      exact List.flatMap_eq_nil_iff.mpr fun _ _ => rfl
    rw [withResults, List.flatMap_cons, List.flatMap_append, List.flatMap_cons, silent, List.append_nil,
      List.map_cons, List.flatMap_cons]
    exact congrArg (_ ++ ·) ih

/-- Besides the ids answered before, those of the placed results are answered. -/
theorem mem_answered_withResults (id : String) :
    id ∈ ((withResults placed).filterMap fun message => if message.role = .tool then message.toolCallId else none) ↔
      id ∈ ((placed.map Prod.fst).filterMap fun message =>
        if message.role = .tool then message.toolCallId else none) ∨
      id ∈ (placed.flatMap Prod.snd).map ToolCallResultEvent.toolCallId := by
  simp only [withResults, List.mem_filterMap, List.mem_flatMap, List.mem_cons, List.mem_map]
  constructor
  · rintro ⟨message, ⟨block, member, same⟩, answers⟩
    rcases same with rfl | ⟨result, among, rfl⟩
    · exact .inl ⟨block.1, ⟨block, member, rfl⟩, answers⟩
    · exact .inr ⟨result, ⟨block, member, among⟩, Option.some.inj answers⟩
  · rintro (⟨message, ⟨block, member, rfl⟩, answers⟩ | ⟨result, ⟨block, member, among⟩, rfl⟩)
    · exact ⟨block.1, ⟨block, member, .inl rfl⟩, answers⟩
    · exact ⟨resultMessage result, ⟨block, member, .inr ⟨result, among, rfl⟩⟩, rfl⟩

theorem unanswered_withResults : unansweredToolCalls (withResults placed) =
      (unansweredToolCalls (placed.map Prod.fst)).filter fun call =>
        !((placed.flatMap Prod.snd).map ToolCallResultEvent.toolCallId).contains call.id := by
  unfold unansweredToolCalls
  rw [calls_withResults, List.filter_filter]
  refine List.filter_congr fun call _ => Bool.eq_iff_iff.mpr ?_
  simp only [Bool.and_eq_true, Bool.not_eq_true', ← Bool.not_eq_true, List.contains_iff_mem]
  rw [mem_answered_withResults, not_or, and_comm]

end

/-- Leaving out items takes the first one of a kind away only with its whole kind. -/
theorem find?_of_filter {A : Type} {keep test : A -> Bool} {items : List A} {item : A}
    (found : (items.filter keep).find? test = some item)
    (alike : ∀ other, test other = true -> keep other = keep item) :
    keep item = true ∧ items.find? test = some item := by
  have kept : keep item = true := (List.mem_filter.mp (List.mem_of_find?_eq_some found)).2
  refine ⟨kept, ?_⟩
  induction items with
  | nil => cases found
  | cons first rest ih =>
    by_cases passes : test first = true
    · rw [List.filter_cons_of_pos ((alike first passes).trans kept), List.find?_cons_of_pos passes] at found
      rw [List.find?_cons_of_pos passes]
      exact found
    · rw [List.find?_cons_of_neg passes]
      refine ih ?_
      by_cases stays : keep first = true
      · rw [List.filter_cons_of_pos stays, List.find?_cons_of_neg passes] at found
        exact found
      · rw [List.filter_cons_of_neg stays] at found
        exact found

/-- An id that is still unanswered stands for the call it stood for. -/
theorem lastUnanswered_withResults {placed : List (Message × List ToolCallResultEvent)} {id : String} {call : ToolCall}
    (last : lastUnanswered (withResults placed) id = some call) :
    id ∉ (placed.flatMap Prod.snd).map ToolCallResultEvent.toolCallId ∧
      lastUnanswered (placed.map Prod.fst) id = some call := by
  have same := id_of_lastUnanswered last
  unfold lastUnanswered at last ⊢
  rw [unanswered_withResults, ← List.filter_reverse] at last
  have kept := find?_of_filter last fun other passes => by
    rw [of_decide_eq_true passes, same]
  refine ⟨?_, kept.2⟩
  have unplaced := kept.1
  rw [Bool.not_eq_true', ← Bool.not_eq_true, List.contains_iff_mem, same] at unplaced
  exact unplaced

/-! ## The recovered history -/

variable {names randomUUID}

theorem toolCallIds_recoveredResults (messages : List Message) :
    (recoveredResults names randomUUID messages).map ToolCallResultEvent.toolCallId =
      (pendingRenderCalls names messages).map ToolCall.id := by
  refine List.ext_getElem (by simp [recoveredResults]) fun position _ _ => ?_
  simp [recoveredResults, recoveredResult]

theorem calledIds_of_unanswered {messages : List Message} {call : ToolCall}
    (unanswered : call ∈ unansweredToolCalls messages) : call.id ∈ calledIds messages := by
  rcases List.mem_flatMap.mp (List.mem_filter.mp unanswered).1 with ⟨message, member, made⟩
  refine List.mem_flatMap.mpr ⟨message, member, ?_⟩
  by_cases assistant : message.role = .assistant
  · rw [if_pos assistant] at made ⊢
    exact List.mem_map_of_mem made
  · rw [if_neg assistant] at made
    cases made

/-- A history with its unanswered rendering calls answered: the results are
placed each once, right after a message that made their call, nothing else is
changed, and no id is left that stands for an unanswered rendering call. -/
structure Recovers (names : List String) (history : List Message) (results : List ToolCallResultEvent)
    (downstream : List Message) (placed : List (Message × List ToolCallResultEvent)) : Prop where
  messages : placed.map Prod.fst = history
  history : downstream = withResults placed
  each : (placed.flatMap Prod.snd).Perm results
  owner : ∀ block ∈ placed, ∀ result ∈ block.2,
    block.1.role = .assistant ∧ block.1.hasCall result.toolCallId = true
  answered : ∀ id, ¬ PendingRender names downstream id

theorem nodup_recoveredResults (messages : List Message) :
    ((recoveredResults names randomUUID messages).map ToolCallResultEvent.toolCallId).Nodup := by
  rw [toolCallIds_recoveredResults]
  exact nodup_pendingRenderCalls names messages

theorem get?_byId (messages : List Message) (id : String) (result : ToolCallResultEvent) :
    (OrderedMap.ofList ((recoveredResults names randomUUID messages).map
      fun result => (result.toolCallId, result))).get? id = some result ↔
      result ∈ recoveredResults names randomUUID messages ∧ result.toolCallId = id := by
  have nodup : (((recoveredResults names randomUUID messages).map
      fun result => (result.toolCallId, result)).map Prod.fst).Nodup := by
    rw [List.map_map]
    exact nodup_recoveredResults messages
  rw [OrderedMap.get?_ofList nodup]
  constructor
  · intro found
    rcases List.mem_map.mp (OrderedMap.mem_of_lookup_eq_some found) with ⟨other, member, same⟩
    cases same
    exact ⟨member, rfl⟩
  · rintro ⟨member, rfl⟩
    exact OrderedMap.lookup_eq_some_of_mem nodup (List.mem_map.mpr ⟨result, member, rfl⟩)

/-- The call of a recovered result was made in the history. -/
theorem called_of_recovered {messages : List Message} {result : ToolCallResultEvent}
    (member : result ∈ recoveredResults names randomUUID messages) : result.toolCallId ∈ calledIds messages := by
  have pending := List.mem_map_of_mem (f := ToolCallResultEvent.toolCallId) member
  rw [toolCallIds_recoveredResults, mem_pendingRenderCalls_iff] at pending
  rcases pending with ⟨call, last, _⟩
  rw [← id_of_lastUnanswered last]
  exact calledIds_of_unanswered (List.mem_reverse.mp (List.mem_of_find?_eq_some last))

theorem recovers_placedResults (messages : List Message) :
    Recovers names messages (recoveredResults names randomUUID messages)
      (withResults (placedResults names randomUUID messages)) (placedResults names randomUUID messages) := by
  have byCall : ByCall (OrderedMap.ofList ((recoveredResults names randomUUID messages).map
      fun result => (result.toolCallId, result))) :=
    fun id result found => ((get?_byId messages id result).mp found).2
  have mem : ∀ result, result ∈ (placedResults names randomUUID messages).flatMap Prod.snd ↔
      result ∈ recoveredResults names randomUUID messages := by
    intro result
    simp only [placedResults, mem_placeResults, get?_byId]
    constructor
    · rintro ⟨_, _, member, _⟩
      exact member
    · intro member
      exact ⟨result.toolCallId, called_of_recovered member, member, rfl⟩
  have each : ((placedResults names randomUUID messages).flatMap Prod.snd).Perm
      (recoveredResults names randomUUID messages) :=
    (List.perm_ext_iff_of_nodup (nodup_placeResults byCall messages).of_map
      (nodup_recoveredResults messages).of_map).mpr mem
  refine ⟨fst_placeResults _ _, rfl, each, ?_, ?_⟩
  · exact fun block member result placed => owner_placeResults byCall member placed
  · rintro id ⟨call, last, named⟩
    rcases lastUnanswered_withResults last with ⟨unplaced, before⟩
    rw [placedResults, fst_placeResults] at before
    refine unplaced ((each.map ToolCallResultEvent.toolCallId).mem_iff.mpr ?_)
    rw [toolCallIds_recoveredResults, mem_pendingRenderCalls_iff]
    exact ⟨call, before, named⟩

theorem withResults_of_nothing {placed : List (Message × List ToolCallResultEvent)}
    (nothing : placed.flatMap Prod.snd = []) : withResults placed = placed.map Prod.fst := by
  rw [withResults, List.map_eq_flatMap]
  refine List.flatMap_congr fun block member => ?_
  rw [List.flatMap_eq_nil_iff.mp nothing block member, List.map_nil]

variable (names randomUUID)

/-- What goes downstream of a turn that resumes nothing. -/
theorem recoverUnansweredCalls_recovers {input : A2UIInput} (newTurn : input.isResume = false) :
    Recovers names input.messages (recoverUnansweredCalls names randomUUID input).2
      (recoverUnansweredCalls names randomUUID input).1.messages
      (placedResults names randomUUID input.messages) := by
  have recovers : Recovers names input.messages (recoveredResults names randomUUID input.messages) _ _ :=
    recovers_placedResults input.messages
  unfold recoverUnansweredCalls
  rw [newTurn, if_neg Bool.false_ne_true]
  dsimp only
  split
  · rename_i nothing
    have unplaced := recovers.each
    rw [List.isEmpty_iff.mp nothing, List.perm_nil] at unplaced
    rw [withResults_of_nothing unplaced, recovers.messages] at recovers
    exact recovers
  · exact recovers

end A2ui
end AgUi
