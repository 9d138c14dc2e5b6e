import AgUi.Apply.Activities
import AgUi.Library.Position

namespace AgUi
namespace Apply

open Library Protocol

/-!
# Tool results stay with their call

A result is spliced in behind the assistant message that holds its call and the
tool messages that stand there already, wherever in the list that is.  Every
other step writes in place or adds to the end what is no tool message, so the
tool messages behind an assistant message are never parted from it, and stand
in the order in which they came.

One thing can part them.  A tool message of the history may answer a call that
no message holds; a start of that call then hangs it on a message far from it.
-/

/-- `m.role === "assistant" && m.toolCalls?.some((tc) => tc.id === toolCallId)` -/
def holds (toolCallId : String) (message : Message) : Bool :=
  message.role = .assistant && message.hasCall toolCallId

/-- The place of the assistant message that owns a call. -/
def ownerIndex (messages : List Message) (toolCallId : String) : Option Nat :=
  messages.findIdx? (holds toolCallId)

/-- What decides where a message stands among the results. -/
abbrev Face := String × Role × Option String

def face (message : Message) : Face :=
  (message.id, message.role, message.toolCallId)

/-- The id of a tool message and the call it answers. -/
def Face.answer (keyed : Face) : Option (String × String) :=
  if keyed.2.1 = .tool then keyed.2.2.map fun toolCallId => (keyed.1, toolCallId) else none

/-- The tool messages of a list that answer a call, in its order. -/
def answers (messages : List Message) : List (String × String) :=
  (messages.map face).filterMap Face.answer

/-- The results of a stream as they arrive. -/
def arrival : Event -> Option (String × String)
  | .toolCallResult event => some (event.messageId, event.toolCallId)
  | _ => none

def arrivals (events : List Event) : List (String × String) :=
  events.filterMap arrival

/-- Each tool message that answers a call lies behind the assistant message that
owns the call, with only tool messages in between. -/
def Attached (messages : List Message) : Prop :=
  ∀ toolCallId owner answer message id, ownerIndex messages toolCallId = some owner ->
    messages[answer]? = some message -> (face message).answer = some (id, toolCallId) ->
    owner < answer ∧
      ∀ between other, owner < between -> between < answer -> messages[between]? = some other ->
        other.role = .tool

theorem attached_iff (messages : List Message) :
    Attached messages ↔ ∀ answer : Fin messages.length,
      ∀ result ∈ (face messages[answer]).answer,
        ∀ owner ∈ ownerIndex messages result.2, owner < answer.val ∧
          ∀ between : Fin messages.length, owner < between.val -> between.val < answer.val ->
            messages[between].role = .tool := by
  constructor
  · intro attached answer result answering owner owned
    rcases attached result.2 owner answer messages[answer] result.1 owned (List.getElem?_eq_getElem answer.isLt)
      answering with ⟨behind, tools⟩
    exact ⟨behind, fun between late early => tools between _ late early (List.getElem?_eq_getElem between.isLt)⟩
  · intro placed toolCallId owner answer message id owned there answering
    rcases List.getElem?_eq_some_iff.mp there with ⟨inside, rfl⟩
    rcases placed ⟨answer, inside⟩ (id, toolCallId) answering owner owned with ⟨behind, tools⟩
    refine ⟨behind, ?_⟩
    intro between other late early stood
    rcases List.getElem?_eq_some_iff.mp stood with ⟨within, rfl⟩
    exact tools ⟨between, within⟩ late early

instance (messages : List Message) : Decidable (Attached messages) :=
  decidable_of_iff _ (attached_iff messages).symm

/-! ## What a step does to the places -/

/-- A start of a call that no message holds. -/
def Opens (messages : List Message) (toolCallId : String) : Event -> Prop
  | .toolCallStart event => event.toolCallId = toolCallId ∧ toolCallId ∉ callIds messages
  | _ => False

/-- Every step but a result keeps the messages in their places and may add some
that are no tool messages. -/
structure Grows (event : Event) (before after : List Message) : Prop where
  keys : ∃ added, after.map face = before.map face ++ added ∧
    ∀ keyed : Face, keyed ∈ added -> keyed.2.1 ≠ .tool
  owners : ∀ toolCallId, ¬ Opens before toolCallId event ->
    ownerIndex after toolCallId = ownerIndex before toolCallId
  held : ∀ toolCallId ∈ callIds before, toolCallId ∈ callIds after
  opened : ∀ start, event = .toolCallStart start -> start.toolCallId ∈ callIds after
  unanswered : ∀ result, event ≠ .toolCallResult result

/-- A result is put in behind its owner and the tool messages there. -/
structure Places (fresh : Message) (toolCallId : String) (before after early late : List Message) : Prop where
  whole : before = early ++ late
  placed : after = early ++ fresh :: late
  behind : ∀ owner, ownerIndex before toolCallId = some owner -> owner < early.length ∧
    ∀ between other, owner < between -> between < early.length -> early[between]? = some other ->
      other.role = .tool
  stops : ∀ owner next, ownerIndex before toolCallId = some owner -> late.head? = some next ->
    next.role ≠ .tool

theorem exists_places (messages : List Message) (fresh : Message) (toolCallId : String) :
    ∃ early late,
      Places fresh toolCallId messages (placeToolResult messages fresh toolCallId) early late := by
  unfold placeToolResult
  split
  · rename_i search
    have unowned : ownerIndex messages toolCallId = none := search
    refine ⟨messages, [], (List.append_nil messages).symm, rfl, ?_, ?_⟩
    · intro owner impossible
      rw [unowned] at impossible
      cases impossible
    · intro owner next impossible
      rw [unowned] at impossible
      cases impossible
  · rename_i index search
    have owned : ownerIndex messages toolCallId = some index := search
    have inside : index < messages.length := (List.findIdx?_eq_some_iff_findIdx_eq.mp search).1
    rcases exists_run (fun message : Message => message.role = .tool) (messages.drop (index + 1)) with
      ⟨results, rest, run, taken, tools, stop⟩
    have whole : messages = (messages.take (index + 1) ++ results) ++ rest := by
      rw [List.append_assoc, ← run, List.take_append_drop]
    have length : (messages.take (index + 1) ++ results).length = index + 1 + results.length := by
      rw [List.length_append, List.length_take, Nat.min_eq_left inside]
    refine ⟨messages.take (index + 1) ++ results, rest, whole, ?_, ?_, ?_⟩
    · dsimp only
      rw [taken, ← length]
      generalize messages.take (index + 1) ++ results = early at whole
      rw [whole, insertIdx_eq_append _ _ (by rw [List.length_append]; omega), List.take_left, List.drop_left]
    · intro owner found
      rw [owned] at found
      cases found
      refine ⟨by omega, ?_⟩
      intro between other late early there
      have front : (messages.take (index + 1)).length ≤ between := by
        rw [List.length_take]
        omega
      rw [List.getElem?_append_right front] at there
      exact of_decide_eq_true (tools other (List.mem_of_getElem? there))
    · intro owner next _ first
      exact of_decide_eq_false (stop next first)

/-! ## The steps that grow -/

/-- What of a message an edit in place keeps. -/
def place (message : Message) : Face × List String :=
  (face message, message.calls.map ToolCall.id)

/-- Whether a call is held, read off a place. -/
def placeHolds (toolCallId : String) (placed : Face × List String) : Bool :=
  placed.1.2.1 = .assistant && placed.2.any fun id => id = toolCallId

theorem holds_eq (toolCallId : String) : holds toolCallId = placeHolds toolCallId ∘ place := by
  funext message
  rw [Function.comp, holds, placeHolds, place, Message.hasCall, List.any_map]
  rfl

theorem callIds_eq (messages : List Message) : callIds messages = (messages.map place).flatMap Prod.snd := by
  rw [callIds, List.map_flatMap, List.flatMap_map]
  rfl

theorem key_of_place {before after : List Message} (same : after.map place = before.map place) :
    after.map face = before.map face := by
  have keyed := congrArg (List.map Prod.fst) same
  rwa [List.map_map, List.map_map] at keyed

theorem not_holds_of_calls {message : Message} {toolCallId : String}
    (none : toolCallId ∉ message.calls.map ToolCall.id) : holds toolCallId message = false := by
  rw [holds, Message.hasCall, Bool.and_eq_false_iff]
  refine .inr (List.any_eq_false.mpr ?_)
  intro call member named
  exact none (List.mem_map.mpr ⟨call, member, of_decide_eq_true named⟩)

theorem mem_callIds_pushed {messages : List Message} {id : String} {target : Message}
    (search : findMessage messages id = some target) (call : ToolCall) (toolCallId : String) :
    toolCallId ∈ callIds (updateMessage id (fun message => message.pushCall call) messages) ↔
      toolCallId ∈ callIds messages ∨ toolCallId = call.id := by
  rcases @updateFirst.exists_split Message _ (fun message => message.pushCall call) messages target search with
    ⟨before, after, whole, changed, _, _⟩
  have pushed : callIds (target.pushCall call :: after) = callIds [target] ++ call.id :: callIds after := by
    rw [callIds, List.flatMap_cons, List.map_append]
    change (target.calls ++ [call]).map ToolCall.id ++ _ = _
    rw [List.map_append, List.append_assoc, callIds, List.flatMap_singleton]
    rfl
  have single : callIds (target :: after) = callIds [target] ++ callIds after := callIds_append [target] after
  rw [updateMessage, changed]
  rw [whole, callIds_append, callIds_append, pushed, single]
  simp only [List.mem_append, List.mem_cons]
  tauto

section

variable {event : Event} {before after : List Message}

theorem Grows.of_same (same : after.map place = before.map place)
    (opened : ∀ start, event = .toolCallStart start -> start.toolCallId ∈ callIds before)
    (unanswered : ∀ result, event ≠ .toolCallResult result) : Grows event before after where
  keys := by
    refine ⟨[], ?_, fun _ impossible => absurd impossible List.not_mem_nil⟩
    rw [key_of_place same, List.append_nil]
  owners := by
    intro toolCallId _
    rw [ownerIndex, ownerIndex, holds_eq, ← List.findIdx?_map, ← List.findIdx?_map, same]
  held := by
    intro toolCallId known
    rwa [callIds_eq, same, ← callIds_eq]
  opened := by
    intro start started
    rw [callIds_eq, same, ← callIds_eq]
    exact opened start started
  unanswered := unanswered

/-- A message at the end, with no more than the call that is started. -/
theorem Grows.of_added {fresh : Message} (untooled : fresh.role ≠ .tool)
    (own : ∀ toolCallId ∈ fresh.calls.map ToolCall.id, Opens before toolCallId event)
    (opened : ∀ start, event = .toolCallStart start -> start.toolCallId ∈ callIds (before ++ [fresh]))
    (unanswered : ∀ result, event ≠ .toolCallResult result) : Grows event before (before ++ [fresh]) where
  keys := by
    refine ⟨[face fresh], List.map_append, ?_⟩
    intro keyed member
    rw [List.mem_singleton.mp member]
    exact untooled
  owners := by
    intro toolCallId unopened
    have missed := not_holds_of_calls fun member => unopened (own toolCallId member)
    rw [ownerIndex, List.findIdx?_append, List.findIdx?_cons, missed]
    exact Option.or_none
  held := by
    intro toolCallId known
    rw [callIds_append]
    exact List.mem_append_left _ known
  opened := opened
  unanswered := unanswered

/-- A started call is pushed on a message that is there. -/
theorem Grows.of_pushed {start : ToolCallStartEvent} {id : String} {call : ToolCall} {target : Message}
    (named : call.id = start.toolCallId) (search : findMessage before id = some target)
    (new : start.toolCallId ∉ callIds before) :
    Grows (.toolCallStart start) before (updateMessage id (fun message => message.pushCall call) before) where
  keys := by
    refine ⟨[], ?_, fun _ impossible => absurd impossible List.not_mem_nil⟩
    rw [List.append_nil]
    apply updateFirst.map_of_same
    intro message _
    rfl
  owners := by
    intro toolCallId unopened
    have other : call.id ≠ toolCallId := fun same => unopened ⟨named ▸ same, same ▸ named ▸ new⟩
    apply findIdx?_eq_of_map
    apply updateFirst.map_of_same
    intro message _
    rw [holds, holds, Message.hasCall, Message.hasCall]
    change (_ && (message.calls ++ [call]).any _) = _
    rw [List.any_append, List.any_cons, decide_eq_false other]
    simp only [List.any_nil, Bool.or_false]
    rfl
  held := by
    intro toolCallId known
    exact (mem_callIds_pushed search call toolCallId).mpr (.inl known)
  opened := by
    intro other same
    cases same
    exact (mem_callIds_pushed search call _).mpr (.inr named.symm)
  unanswered := fun _ impossible => by cases impossible

end

/-! ## The handlers -/

/-- The events that neither start a call nor record a result. -/
def Steady (event : Event) : Prop :=
  (∀ start, event ≠ .toolCallStart start) ∧ ∀ result, event ≠ .toolCallResult result

theorem Grows.steady {event : Event} {before after : List Message} (steady : Steady event)
    (same : after.map place = before.map place) : Grows event before after :=
  Grows.of_same same (fun start started => absurd started (steady.1 start)) steady.2

theorem places_updateMessage {change : Message -> Message}
    (same : ∀ message, place (change message) = place message) (id : String) (messages : List Message) :
    (updateMessage id change messages).map place = messages.map place :=
  updateFirst.map_of_same place (fun message _ => same message) messages

theorem place_updateCall {change : ToolCall -> ToolCall} (keeps : ∀ call, (change call).id = call.id)
    (toolCallId : String) (message : Message) : place (message.updateCall toolCallId change) = place message := by
  have same : (updateFirst (fun call => call.id = toolCallId) change message.calls).map ToolCall.id =
      message.calls.map ToolCall.id :=
    updateFirst.map_of_same ToolCall.id (fun call _ => keeps call) message.calls
  rw [place, calls_updateCall, same]
  rfl

theorem places_updateToolCall {toolCallId : String} {change : ToolCall -> ToolCall}
    (keeps : ∀ call, (change call).id = call.id) (messages : List Message) :
    (updateToolCall toolCallId change messages).map place = messages.map place :=
  updateFirst.map_of_same place (fun message _ => place_updateCall keeps toolCallId message) messages

section

variable (state : ApplyState) {event : Event}

theorem grows_startMessage (steady : Steady event) {fresh : Message} (untooled : fresh.role ≠ .tool)
    (plain : fresh.toolCalls = none) (attached : BaseEvent) :
    Grows event state.messages (state.startMessage fresh attached).1.messages := by
  unfold ApplyState.startMessage
  split
  · apply Grows.of_added
    · exact untooled
    · intro toolCallId member
      have none : (fresh.applyEventMetadata attached).calls = [] := by
        change fresh.toolCalls.getD [] = []
        rw [plain]
        rfl
      rw [none] at member
      cases member
    · exact fun start started => absurd started (steady.1 start)
    · exact steady.2
  · split
    · exact Grows.steady steady rfl
    · rw [messages_emitIf]
      apply Grows.steady steady
      apply places_updateMessage
      intro message
      rfl

theorem grows_appendMessage (steady : Steady event) (messageId delta : String) (attached : BaseEvent) :
    Grows event state.messages (state.appendMessage messageId delta attached).1.messages := by
  unfold ApplyState.appendMessage
  split
  · exact Grows.steady steady rfl
  · split
    · exact Grows.steady steady rfl
    · apply Grows.steady steady
      apply places_updateMessage
      intro message
      rfl

theorem grows_finishMessage (steady : Steady event) (messageId : String) (attached : BaseEvent) :
    Grows event state.messages (state.finishMessage messageId attached).1.messages := by
  unfold ApplyState.finishMessage
  split
  · exact Grows.steady steady rfl
  · split
    · exact Grows.steady steady rfl
    · rw [messages_emitIf]
      apply Grows.steady steady
      apply places_updateMessage
      intro message
      rfl

theorem grows_toolCallStart (start : ToolCallStartEvent) :
    Grows (.toolCallStart start) state.messages (toolCallStart state start).1.messages := by
  cases search : findCall state.messages start.toolCallId with
  | some call =>
    have held : start.toolCallId ∈ callIds state.messages := by
      rw [mem_callIds_iff, search]
      exact Option.some_ne_none call
    rw [toolCallStart_of_some search]
    apply Grows.of_same
    · apply places_updateToolCall
      intro call
      rfl
    · intro other same
      cases same
      exact held
    · exact fun _ impossible => by cases impossible
  | none =>
    have new : start.toolCallId ∉ callIds state.messages := by
      rw [mem_callIds_iff, search]
      exact fun impossible => impossible rfl
    rw [toolCallStart_of_none search, attachToolCall, resolveOrCreateAssistantMessage_eq]
    cases resolved : resolveTarget (faces state.messages) start with
    | existing id =>
      rcases exists_of_resolveTarget resolved with ⟨target, found, _⟩
      exact Grows.of_pushed rfl found new
    | created id =>
      apply Grows.of_added
      · exact fun impossible => by cases impossible
      · intro toolCallId member
        have same : toolCallId = start.toolCallId := List.mem_singleton.mp member
        exact ⟨same.symm, same ▸ new⟩
      · intro other same
        cases same
        rw [callIds_append]
        exact List.mem_append_right _ (List.mem_singleton.mpr rfl)
      · exact fun _ impossible => by cases impossible

theorem grows_reasoningEncryptedValue (encrypted : ReasoningEncryptedValueEvent) :
    Grows (.reasoningEncryptedValue encrypted) state.messages
      (reasoningEncryptedValue state encrypted).1.messages := by
  have steady : Steady (.reasoningEncryptedValue encrypted) :=
    ⟨(fun _ impossible => by cases impossible), (fun _ impossible => by cases impossible)⟩
  unfold reasoningEncryptedValue
  split
  · rw [messages_emitIf]
    apply Grows.steady steady
    apply updateFirst.map_of_same
    intro message _
    apply place_updateCall
    intro call
    rfl
  · split
    · exact Grows.steady steady rfl
    · split
      · exact Grows.steady steady rfl
      · apply Grows.steady steady
        apply places_updateMessage
        intro message
        rfl

end

/-- The events of a stream that only streams: no snapshot, no activity, and no
input of a run with a message under an id that is not known. -/
def Streamed (known : List String) : Event -> Prop
  | .messagesSnapshot _ => False
  | .activitySnapshot _ => False
  | .activityDelta _ => False
  | .runStarted event => ∀ message ∈ Verify.echoed event, message.id ∈ known
  | _ => True

theorem appendMissing_of_known {messages input : List Message}
    (known : ∀ message ∈ input, message.id ∈ messages.map Message.id) :
    appendMissing messages input = messages := by
  induction input with
  | nil => rfl
  | cons message rest ih =>
    rw [appendMissing]
    cases search : findMessage messages message.id with
    | some found =>
      exact ih (List.forall_mem_cons.mp known).2
    | none =>
      rcases List.mem_map.mp (known message List.mem_cons_self) with ⟨other, member, same⟩
      exact absurd (decide_eq_true same) (List.find?_eq_none.mp search other member)

theorem reduce_grows (applyPatch : ApplyPatch) (state : ApplyState) {known : List String} {event : Event}
    (streamed : Streamed known event) (ids : ∀ id ∈ known, id ∈ state.messages.map Message.id)
    (unanswered : ∀ result, event ≠ .toolCallResult result) :
    Grows event state.messages (reduce applyPatch state event).1.messages := by
  have steady : (∀ start, event ≠ .toolCallStart start) -> Steady event :=
    fun unstarted => ⟨unstarted, unanswered⟩
  cases event with
  | toolCallResult event => exact absurd rfl (unanswered event)
  | messagesSnapshot event | activitySnapshot event | activityDelta event => cases streamed
  | toolCallStart event => exact grows_toolCallStart state event
  | runStarted event =>
    apply Grows.steady (steady fun _ impossible => by cases impossible)
    rw [reduce, messages_runStarted, appendMissing_of_known]
    exact fun message echoed => ids _ (streamed message echoed)
  | textMessageStart event =>
    refine grows_startMessage state (steady fun _ impossible => by cases impossible) ?_ rfl _
    change (event.role.getD .assistant).toRole ≠ .tool
    cases event.role.getD .assistant with
    | developer | system | assistant | user => exact fun impossible => by cases impossible
  | reasoningMessageStart event =>
    refine grows_startMessage state (steady fun _ impossible => by cases impossible) ?_ rfl _
    exact fun impossible => by cases impossible
  | textMessageContent event | reasoningMessageContent event =>
    exact grows_appendMessage state (steady fun _ impossible => by cases impossible) _ _ _
  | textMessageEnd event | reasoningMessageEnd event =>
    exact grows_finishMessage state (steady fun _ impossible => by cases impossible) _ _
  | toolCallArgs event =>
    apply Grows.steady (steady fun _ impossible => by cases impossible)
    rw [reduce, toolCallArgs]
    split
    · rfl
    · apply places_updateToolCall
      intro call
      rfl
  | toolCallEnd event =>
    apply Grows.steady (steady fun _ impossible => by cases impossible)
    rw [reduce, toolCallEnd]
    split
    · rfl
    · rw [messages_emitIf]
      apply places_updateToolCall
      intro call
      rfl
  | reasoningEncryptedValue event => exact grows_reasoningEncryptedValue state event
  | stateDelta event =>
    apply Grows.steady (steady fun _ impossible => by cases impossible)
    rw [reduce, stateDelta]
    split
    · rfl
    · rfl
  | _ => exact Grows.steady (steady fun _ impossible => by cases impossible) rfl

/-! ## What every step keeps -/

/-- The results that answer the calls of one assistant message. -/
def answersOwned (messages : List Message) (owner : Nat) (results : List (String × String)) :
    List (String × String) :=
  results.filter fun result => ownerIndex messages result.2 = some owner

/-- What holds after the events of a stream so far. -/
structure Housed (initial : List Message) (past : List Event) (messages : List Message) : Prop where
  attached : Attached messages
  /-- The results of each assistant message's calls are in the order of their arrival. -/
  ordered : ∀ owner, answersOwned messages owner (answers messages) =
    answersOwned messages owner (answers initial ++ arrivals past)
  /-- No result is lost, and none is there twice. -/
  whole : (answers messages).Perm (answers initial ++ arrivals past)
  held : ∀ toolCallId ∈ callIds initial, toolCallId ∈ callIds messages
  started : ∀ start, .toolCallStart start ∈ past -> start.toolCallId ∈ callIds messages
  ids : ∀ id ∈ initial.map Message.id, id ∈ messages.map Message.id

theorem answers_append (first second : List Message) :
    answers (first ++ second) = answers first ++ answers second := by
  rw [answers, List.map_append, List.filterMap_append]
  rfl

theorem mem_answers_iff {messages : List Message} {result : String × String} :
    result ∈ answers messages ↔
      ∃ index : Nat, ∃ message : Message,
        messages[index]? = some message ∧ (face message).answer = some result := by
  rw [answers, List.mem_filterMap]
  constructor
  · rintro ⟨keyed, member, answering⟩
    rcases List.mem_map.mp member with ⟨message, listed, rfl⟩
    rcases List.getElem?_of_mem listed with ⟨index, there⟩
    exact ⟨index, message, there, answering⟩
  · rintro ⟨index, message, there, answering⟩
    exact ⟨face message, List.mem_map.mpr ⟨message, List.mem_of_getElem? there, rfl⟩, answering⟩

theorem tool_of_answer {keyed : Face} {result : String × String} (answering : keyed.answer = some result) :
    keyed.2.1 = .tool := by
  unfold Face.answer at answering
  split at answering
  · assumption
  · cases answering

theorem arrivals_append (past : List Event) (event : Event) :
    arrivals (past ++ [event]) = arrivals past ++ (arrival event).toList := by
  rw [arrivals, List.filterMap_append]
  cases heard : arrival event with
  | none => rw [List.filterMap_cons_none heard]; rfl
  | some result => rw [List.filterMap_cons_some heard]; rfl

namespace Grows

variable {event : Event} {before after : List Message} (grows : Grows event before after)
include grows

theorem answers_eq : answers after = answers before := by
  rcases grows.keys with ⟨added, same, untooled⟩
  have none : added.filterMap Face.answer = [] := by
    apply List.filterMap_eq_nil_iff.mpr
    intro keyed member
    exact if_neg (untooled keyed member)
  rw [answers, same, List.filterMap_append, none, List.append_nil]
  rfl

/-- A place that was there is there with the same face. -/
theorem exists_old {index : Nat} {message : Message} (there : after[index]? = some message)
    (inside : index < before.length ∨ message.role = .tool) :
    ∃ old, before[index]? = some old ∧ face old = face message := by
  rcases grows.keys with ⟨added, same, untooled⟩
  have keyed : (before.map face ++ added)[index]? = some (face message) := by
    rw [← same, List.getElem?_map, there]
    rfl
  by_cases early : index < before.length
  · rw [List.getElem?_append_left (by rwa [List.length_map]), List.getElem?_map] at keyed
    rcases Option.map_eq_some_iff.mp keyed with ⟨old, found, equal⟩
    exact ⟨old, found, equal⟩
  · rw [List.getElem?_append_right (by rw [List.length_map]; omega)] at keyed
    exact absurd (inside.resolve_left early) (untooled _ (List.mem_of_getElem? keyed))

theorem arrivals_eq (past : List Event) : arrivals (past ++ [event]) = arrivals past := by
  rw [arrivals_append]
  have none : arrival event = none := by
    cases event with
    | toolCallResult event => exact absurd rfl (grows.unanswered event)
    | _ => rfl
  rw [none]
  exact List.append_nil _

end Grows

/-- A step that grows keeps the results in their places. -/
theorem Housed.grow {initial : List Message} {past : List Event} {event : Event} {before after : List Message}
    (housed : Housed initial past before) (grows : Grows event before after)
    (known : ∀ toolCallId, Opens before toolCallId event -> ∀ id, (id, toolCallId) ∉ answers initial)
    (follows : ∀ result, .toolCallResult result ∈ past ->
      ∃ start, .toolCallStart start ∈ past ∧ start.toolCallId = result.toolCallId) :
    Housed initial (past ++ [event]) after := by
  -- no result is there for a call that only now is started
  have unanswered : ∀ result ∈ answers initial ++ arrivals past, ¬ Opens before result.2 event := by
    rintro ⟨id, toolCallId⟩ member opens
    rcases List.mem_append.mp member with early | late
    · exact known toolCallId opens id early
    · rcases List.mem_filterMap.mp late with ⟨heard, listed, arrives⟩
      cases heard with
      | toolCallResult result =>
        cases arrives
        rcases follows result listed with ⟨start, there, same⟩
        have held := housed.started start there
        cases event with
        | toolCallStart event => exact opens.2 (same ▸ held)
        | _ => exact opens
      | _ => cases arrives
  have owners : ∀ result ∈ answers initial ++ arrivals past,
      ownerIndex after result.2 = ownerIndex before result.2 :=
    fun result member => grows.owners result.2 (unanswered result member)
  constructor
  · intro toolCallId owner answer message id owned there answering
    have tool := tool_of_answer answering
    rcases grows.exists_old there (.inr tool) with ⟨old, stood, same⟩
    have member : (id, toolCallId) ∈ answers before :=
      mem_answers_iff.mpr ⟨answer, old, stood, same ▸ answering⟩
    rw [owners _ (housed.whole.mem_iff.mp member)] at owned
    have inside : answer < before.length := (List.getElem?_eq_some_iff.mp stood).1
    rcases housed.attached toolCallId owner answer old id owned stood (same ▸ answering) with ⟨behind, tools⟩
    refine ⟨behind, ?_⟩
    intro between other late early found
    rcases grows.exists_old found (.inl (by omega)) with ⟨older, stood, equal⟩
    have role := tools between older late early stood
    exact (congrArg (fun keyed : Face => keyed.2.1) equal).symm.trans role
  · intro owner
    have narrow : ∀ results : List (String × String),
        (∀ result ∈ results, result ∈ answers initial ++ arrivals past) ->
        answersOwned after owner results = answersOwned before owner results := by
      intro results listed
      apply List.filter_congr
      intro result member
      rw [owners result (listed result member)]
    rw [grows.answers_eq, grows.arrivals_eq, narrow _ fun result member => housed.whole.mem_iff.mp member,
      narrow _ fun result member => member]
    exact housed.ordered owner
  · rw [grows.answers_eq, grows.arrivals_eq]
    exact housed.whole
  · intro toolCallId held
    exact grows.held toolCallId (housed.held toolCallId held)
  · intro start member
    rcases List.mem_append.mp member with early | last
    · exact grows.held _ (housed.started start early)
    · exact grows.opened start (List.mem_singleton.mp last).symm
  · intro id listed
    rcases List.mem_map.mp (housed.ids id listed) with ⟨message, member, same⟩
    rcases grows.keys with ⟨added, keyed, _⟩
    have kept : face message ∈ after.map face := by
      rw [keyed]
      exact List.mem_append_left _ (List.mem_map.mpr ⟨message, member, rfl⟩)
    rcases List.mem_map.mp kept with ⟨later, there, equal⟩
    exact List.mem_map.mpr ⟨later, there, (congrArg Prod.fst equal).trans same⟩

namespace Places

variable {fresh : Message} {toolCallId : String} {before after early late : List Message}

section

variable (places : Places fresh toolCallId before after early late)

include places

theorem ownerIndex_eq (role : fresh.role ≠ .assistant)
    (other : String) : ownerIndex after other = (ownerIndex before other).map (shifted early.length) := by
  have missed : holds other fresh = false := by
    rw [holds, decide_eq_false role]
    rfl
  rw [ownerIndex, ownerIndex, places.placed, places.whole]
  exact findIdx?_of_inserted missed early late

theorem getElem?_eq (index : Nat) : after[shifted early.length index]? = before[index]? := by
  rw [places.placed, places.whole]
  exact getElem?_of_inserted early late fresh index

theorem getElem?_fresh : after[early.length]? = some fresh := by
  rw [places.placed, List.getElem?_append_right (Nat.le_refl _), Nat.sub_self]
  rfl

/-- What answers a call of the same owner stands in front of the place. -/
theorem not_late (attached : Attached before)
    {owner : Nat} (owned : ownerIndex before toolCallId = some owner) {result : String × String}
    (same : ownerIndex before result.2 = some owner) : result ∉ answers late := by
  intro member
  rcases mem_answers_iff.mp member with ⟨index, message, there, answering⟩
  have stood : before[early.length + index]? = some message := by
    rw [places.whole, List.getElem?_append_right (Nat.le_add_right _ _), Nat.add_sub_cancel_left]
    exact there
  have front := (places.behind owner owned).1
  rcases attached result.2 owner _ message result.1 same stood answering with ⟨_, tools⟩
  cases index with
  | zero =>
    have first : late.head? = some message := by
      rw [List.head?_eq_getElem?]
      exact there
    exact places.stops owner message owned first (tool_of_answer answering)
  | succ index =>
    cases rest : late with
    | nil =>
      rw [rest] at there
      cases there
    | cons next later =>
      have first : late.head? = some next := by
        rw [rest]
        rfl
      have between : before[early.length]? = some next := by
        rw [places.whole, List.getElem?_append_right (Nat.le_refl _), Nat.sub_self, ← List.head?_eq_getElem?]
        exact first
      exact places.stops owner next owned first (tools early.length next front (by omega) between)

end

end Places

/-- A result that is placed keeps the results in their places. -/
theorem Housed.record {initial : List Message} {past : List Event} {event : ToolCallResultEvent}
    {before after early late : List Message} (housed : Housed initial past before)
    (places : Places (toolResultMessage event) event.toolCallId before after early late) :
    Housed initial (past ++ [Event.toolCallResult event]) after := by
  have moved := places.ownerIndex_eq fun impossible => by cases impossible
  have split : answers before = answers early ++ answers late := by
    rw [places.whole, answers_append]
  have added : answers after = answers early ++ (event.messageId, event.toolCallId) :: answers late := by
    rw [places.placed, answers_append]
    rfl
  have heard : arrivals (past ++ [Event.toolCallResult event]) =
      arrivals past ++ [(event.messageId, event.toolCallId)] :=
    arrivals_append past _
  have calls : callIds after = callIds before := by
    rw [places.placed, places.whole, callIds_append, callIds_append]
    rfl
  constructor
  · intro toolCallId owner answer message id owned there answering
    rw [moved] at owned
    rcases Option.map_eq_some_iff.mp owned with ⟨old, found, rfl⟩
    by_cases own : answer = early.length
    · subst own
      rw [places.getElem?_fresh] at there
      cases there
      cases answering
      rcases places.behind old found with ⟨front, tools⟩
      have still : shifted early.length old = old := if_pos front
      rw [still]
      refine ⟨front, ?_⟩
      intro between other late' early' stood
      apply tools between other late' early'
      rwa [places.placed, List.getElem?_append_left early'] at stood
    · rcases exists_shifted own with ⟨place, rfl⟩
      rw [places.getElem?_eq] at there
      rcases housed.attached toolCallId old place message id found there answering with ⟨behind, tools⟩
      refine ⟨(shifted_lt_shifted _).mpr behind, ?_⟩
      intro between other late' early' stood
      by_cases fresh : between = early.length
      · subst fresh
        rw [places.getElem?_fresh] at stood
        cases stood
        rfl
      · rcases exists_shifted fresh with ⟨spot, rfl⟩
        rw [places.getElem?_eq] at stood
        exact tools spot other ((shifted_lt_shifted _).mp late') ((shifted_lt_shifted _).mp early') stood
  · intro owner
    rw [added, heard, ← List.append_assoc]
    by_cases vacant : owner = early.length
    · have none : ∀ results, answersOwned after owner results = [] := by
        intro results
        apply List.filter_eq_nil_iff.mpr
        intro result _ owned
        rw [moved] at owned
        rcases Option.map_eq_some_iff.mp (of_decide_eq_true owned) with ⟨old, _, same⟩
        exact shifted_ne _ old (same.trans vacant)
      rw [none, none]
    · rcases exists_shifted vacant with ⟨old, rfl⟩
      have narrow : ∀ results, answersOwned after (shifted early.length old) results =
          answersOwned before old results := by
        intro results
        apply List.filter_congr
        intro result _
        rw [moved]
        apply decide_eq_decide.mpr
        constructor
        · intro owned
          rcases Option.map_eq_some_iff.mp owned with ⟨index, found, same⟩
          rw [found, shifted_injective _ same]
        · intro found
          rw [found]
          rfl
      have ordered := housed.ordered old
      rw [split] at ordered
      rw [narrow, narrow]
      unfold answersOwned at ordered ⊢
      rw [List.filter_append, List.filter_append] at ordered
      rw [List.filter_append, List.filter_append, List.filter_append, ← ordered, List.filter_cons]
      by_cases owned : ownerIndex before event.toolCallId = some old
      · have empty : (answers late).filter (fun result => ownerIndex before result.2 = some old) = [] := by
          apply List.filter_eq_nil_iff.mpr
          intro result member same
          exact places.not_late housed.attached owned (of_decide_eq_true same) member
        rw [if_pos (decide_eq_true owned), empty, List.append_nil, List.filter_cons, if_pos (decide_eq_true owned)]
        rfl
      · have skipped : ¬ decide (ownerIndex before event.toolCallId = some old) = true :=
          fun same => owned (of_decide_eq_true same)
        rw [if_neg skipped, List.filter_cons, if_neg skipped]
        exact (List.append_nil _).symm
  · rw [added, heard, ← List.append_assoc]
    apply List.perm_middle.trans
    apply List.Perm.trans _ (List.perm_append_singleton _ _).symm
    exact (split ▸ housed.whole).cons _
  · intro toolCallId held
    rw [calls]
    exact housed.held toolCallId held
  · intro start member
    rw [calls]
    rcases List.mem_append.mp member with early | last
    · exact housed.started start early
    · cases List.mem_singleton.mp last
  · intro id listed
    have known := housed.ids id listed
    rw [places.whole, List.map_append] at known
    rw [places.placed, List.map_append, List.map_cons]
    rcases List.mem_append.mp known with early | late
    · exact List.mem_append_left _ early
    · exact List.mem_append_right _ (List.mem_cons_of_mem _ late)

/-! ## Streams -/

def ResultsFollowStarts (events : List Event) : Prop :=
  ∀ past result future, events = past ++ Event.toolCallResult result :: future ->
    ∃ start, .toolCallStart start ∈ past ∧ start.toolCallId = result.toolCallId

/-- The same as a check from the front, with the calls started so far. -/
def resultsFollow : List String -> List Event -> Bool
  | _, [] => true
  | started, .toolCallStart event :: rest => resultsFollow (event.toolCallId :: started) rest
  | started, .toolCallResult event :: rest => started.contains event.toolCallId && resultsFollow started rest
  | started, _ :: rest => resultsFollow started rest

theorem exists_start_of_resultsFollow {events : List Event} {started : List String}
    (check : resultsFollow started events = true) {past future : List Event} {result : ToolCallResultEvent}
    (split : events = past ++ Event.toolCallResult result :: future) :
    result.toolCallId ∈ started ∨
      ∃ start, .toolCallStart start ∈ past ∧ start.toolCallId = result.toolCallId := by
  induction past generalizing events started with
  | nil =>
    subst split
    exact .inl (List.contains_iff_mem.mp (Bool.and_eq_true_iff.mp check).1)
  | cons event past ih =>
    subst split
    have later : ∀ {more : List String}, resultsFollow more (past ++ Event.toolCallResult result :: future) = true ->
        result.toolCallId ∈ more ∨ ∃ start,
          .toolCallStart start ∈ event :: past ∧ start.toolCallId = result.toolCallId := by
      intro more rest
      rcases ih rest rfl with listed | ⟨start, there, same⟩
      · exact .inl listed
      · exact .inr ⟨start, List.mem_cons_of_mem _ there, same⟩
    cases event with
    | toolCallStart start =>
      rcases later check with listed | found
      · rcases List.mem_cons.mp listed with same | earlier
        · exact .inr ⟨start, List.mem_cons_self, same.symm⟩
        · exact .inl earlier
      · exact .inr found
    | toolCallResult other => exact later (Bool.and_eq_true_iff.mp check).2
    | _ => exact later check

theorem resultsFollowStarts_of_check {events : List Event} (check : resultsFollow [] events = true) :
    ResultsFollowStarts events := by
  intro past result future split
  exact (exists_start_of_resultsFollow check split).resolve_left List.not_mem_nil

/-- A call that a tool message of the history answers is held there, if the stream starts it. -/
def HeldIfAnswered (initial : List Message) (events : List Event) : Prop :=
  ∀ start, .toolCallStart start ∈ events -> ∀ id, (id, start.toolCallId) ∈ answers initial ->
    start.toolCallId ∈ callIds initial

theorem housed_of_runs {applyPatch : ApplyPatch} {initial : ApplyState} {past : List Event}
    {mutations : List AgentStateMutation} {state : ApplyState} (history : Attached initial.messages)
    (known : HeldIfAnswered initial.messages past)
    (streamed : ∀ event ∈ past, Streamed (initial.messages.map Message.id) event)
    (follows : ResultsFollowStarts past)
    (runs : Stage.Runs (defaultApplyEvents applyPatch) initial past mutations state) :
    Housed initial.messages past state.messages := by
  refine runs.history (fun heard _ reached => Housed initial.messages heard reached.messages) ?_ ?_
  · constructor
    · exact history
    · intro owner
      rw [arrivals, List.filterMap_nil, List.append_nil]
    · rw [arrivals, List.filterMap_nil, List.append_nil]
    · exact fun _ held => held
    · exact fun _ impossible => absurd impossible List.not_mem_nil
    · exact fun _ listed => listed
  · intro older emitted before event newer after output cut _ housed taken
    rcases not_chunk_of_step taken with ⟨_, reduced⟩
    have listed : event ∈ past := cut ▸ List.mem_append_right _ List.mem_cons_self
    have next : after.messages = (reduce applyPatch before event).1.messages := by
      rw [← reduced]
    rw [next]
    by_cases answering : ∃ result, event = .toolCallResult result
    · rcases answering with ⟨result, rfl⟩
      rcases exists_places before.messages (toolResultMessage result) result.toolCallId with ⟨early, late, places⟩
      exact housed.record places
    · have grows := reduce_grows applyPatch before (streamed event listed) housed.ids (not_exists.mp answering)
      apply housed.grow grows
      · intro toolCallId opens id answered
        cases event with
        | toolCallStart start =>
          rcases opens with ⟨rfl, new⟩
          exact new (housed.held _ (known start listed id answered))
        | _ => exact opens
      · intro result member
        rcases List.append_of_mem member with ⟨first, rest, split⟩
        rcases follows first result (rest ++ event :: newer) (by
          rw [cut, split, List.append_assoc, List.cons_append]) with ⟨start, there, same⟩
        exact ⟨start, split ▸ List.mem_append_left _ there, same⟩

theorem ResultsFollowStarts.of_append {past future : List Event} (follows : ResultsFollowStarts (past ++ future)) :
    ResultsFollowStarts past := by
  intro early result late split
  exact follows early result (late ++ future) (by rw [split, List.append_assoc, List.cons_append])

/-- After every event of a stream each tool message that answers a call lies
behind the assistant message that owns the call with only tool messages in
between, and the results of the calls of one message stand in the order in which
they arrived, behind those of the history. -/
theorem toolResults_attached (applyPatch : ApplyPatch) {initial : ApplyState} {events : List Event}
    (history : Attached initial.messages) (known : HeldIfAnswered initial.messages events)
    (streamed : ∀ event ∈ events, Streamed (initial.messages.map Message.id) event)
    (follows : ResultsFollowStarts events) :
    ∀ past future mutations state, events = past ++ future ->
      Stage.Runs (defaultApplyEvents applyPatch) initial past mutations state ->
      Attached state.messages ∧
        ∀ owner, answersOwned state.messages owner (answers state.messages) =
          answersOwned state.messages owner (answers initial.messages ++ arrivals past) := by
  rintro past future mutations state rfl runs
  have housed : Housed initial.messages past state.messages := by
    apply housed_of_runs history _ _ follows.of_append runs
    · intro start member
      exact known start (List.mem_append_left _ member)
    · intro event member
      exact streamed event (List.mem_append_left _ member)
  exact ⟨housed.attached, housed.ordered⟩

/-- Two calls in parallel, a text before their results, and a third call on the old parent. -/
def parallelStream : List Event :=
  [.runStarted { threadId := "t", runId := "r" },
   .toolCallStart { toolCallId := "c", toolCallName := "search", parentMessageId := some "a" },
   .toolCallStart { toolCallId := "d", toolCallName := "search", parentMessageId := some "a" },
   .toolCallEnd { toolCallId := "c" },
   .toolCallEnd { toolCallId := "d" },
   .textMessageStart { messageId := "m" },
   .textMessageEnd { messageId := "m" },
   .toolCallResult { messageId := "rd", toolCallId := "d", content := .text "second" },
   .toolCallResult { messageId := "rc", toolCallId := "c", content := .text "first" },
   .toolCallStart { toolCallId := "e", toolCallName := "search", parentMessageId := some "a" },
   .toolCallEnd { toolCallId := "e" },
   .toolCallResult { messageId := "re", toolCallId := "e", content := .text "third" },
   .runFinished { threadId := "t", runId := "r" }]

def answeredHistory : ApplyState where
  messages :=
    [{ id := "u", role := .user },
     { id := "a", role := .assistant, toolCalls := some [{ id := "b", function := ⟨"search", "{}"⟩ }] },
     { id := "rb", role := .tool, toolCallId := some "b" }]

example : (replay (fun _ _ => none) answeredHistory parallelStream).messages.map Message.id =
    ["u", "a", "rb", "rd", "rc", "re", "m"] := by
  decide

theorem toolResults_attached_parallel :
    Attached (replay (fun _ _ => none) answeredHistory parallelStream).messages ∧
      ∀ owner,
        answersOwned (replay (fun _ _ => none) answeredHistory parallelStream).messages owner
            (answers (replay (fun _ _ => none) answeredHistory parallelStream).messages) =
          answersOwned (replay (fun _ _ => none) answeredHistory parallelStream).messages owner
            (answers answeredHistory.messages ++ arrivals parallelStream) := by
  rcases (exists_runs_iff (fun _ _ => none) answeredHistory _ parallelStream).mpr ⟨by decide, rfl⟩ with
    ⟨mutations, runs⟩
  refine toolResults_attached (fun _ _ => none) ?_ ?_ ?_ ?_ parallelStream [] mutations _
    (List.append_nil _).symm runs
  · decide
  · intro start member id answered
    simp [answers, answeredHistory, face, Face.answer] at answered
    rw [answered.2]
    decide
  · intro event member
    simp only [parallelStream, List.mem_cons, List.not_mem_nil, or_false] at member
    rcases member with rfl | rfl | rfl | rfl | rfl | rfl | rfl | rfl | rfl | rfl | rfl | rfl | rfl
    · intro message impossible
      cases impossible
    all_goals exact trivial
  · exact resultsFollowStarts_of_check (by decide)

/-- The history answers a call it does not hold, and the stream starts it. -/
def orphanedHistory : ApplyState where
  messages := [{ id := "rc", role := .tool, toolCallId := some "c" }]

def orphanStarted : List Event :=
  [.runStarted { threadId := "t", runId := "r" },
   .toolCallStart { toolCallId := "c", toolCallName := "search", parentMessageId := some "a" },
   .toolCallEnd { toolCallId := "c" },
   .runFinished { threadId := "t", runId := "r" }]

/-- The call is appended behind the result that was there before it. -/
theorem orphanStarted_not_attached :
    Verify.accepted orphanStarted = true ∧ Attached orphanedHistory.messages ∧
      (∀ event ∈ orphanStarted, Streamed (orphanedHistory.messages.map Message.id) event) ∧
      ResultsFollowStarts orphanStarted ∧
      ¬ Attached (replay (fun _ _ => none) orphanedHistory orphanStarted).messages := by
  refine ⟨by decide, by decide, ?_, resultsFollowStarts_of_check (by decide), by decide⟩
  intro event member
  simp only [orphanStarted, List.mem_cons, List.not_mem_nil, or_false] at member
  rcases member with rfl | rfl | rfl | rfl
  · intro message impossible
    cases impossible
  all_goals exact trivial

end Apply
end AgUi
