import AgUi.ManagedAgents.Agent
import AgUi.Verify.Emission

namespace AgUi
namespace ManagedAgents

open Library Protocol Verify

/-!
# A run is always a valid run

The previews and the open reasoning blocks of a turn are exactly the entities
its events have opened and not closed.  Every operation of a turn keeps that,
so whatever the session does and whichever call fails, `closeAll` closes
everything that is open; and what the agent emits around the turn cannot spoil
it.  Hence the verifier accepts every run, and nothing is open when the run's
terminal event comes.
-/

/-! ## Streams of a session -/

def startedMessages (events : List SessionEvent) : List String :=
  events.filterMap fun | .startMessage id => some id | _ => none

def startedThinking (events : List SessionEvent) : List String :=
  events.filterMap fun | .startThinking id => some id | _ => none

/-- What a session promises of its stream: at most one `event_start` for each
id, and no message whose id is one a correction would be emitted under. -/
structure Orderly (events : List SessionEvent) : Prop where
  messages : (startedMessages events).Nodup
  thinking : (startedThinking events).Nodup
  uncorrected : ∀ id ∈ startedMessages events, ∀ other, id ≠ correctedId other

theorem Orderly.tail {event : SessionEvent} {rest : List SessionEvent} (orderly : Orderly (event :: rest)) :
    Orderly rest := by
  have messages : (startedMessages rest).Sublist (startedMessages (event :: rest)) :=
    (List.sublist_cons_self event rest).filterMap _
  have thinking : (startedThinking rest).Sublist (startedThinking (event :: rest)) :=
    (List.sublist_cons_self event rest).filterMap _
  exact ⟨orderly.messages.sublist messages, orderly.thinking.sublist thinking,
    fun id member => orderly.uncorrected id (messages.subset member)⟩

/-! ## What a turn has open -/

/-- The entities a turn has open: its previews, and its reasoning blocks twice over. -/
def blocks (previews : OrderedMap String String) (openReasoning : OrderedSet String) : Marks
  | .textMessage, id => previews.has id
  | .toolCall, _ => false
  | .reasoningSpan, id => openReasoning.has id
  | .reasoningMessage, id => openReasoning.has id

theorem has_erase_iff {A : Type} (map : OrderedMap String A) (key other : String) :
    (map.erase key).has other = true ↔ other ≠ key ∧ map.has other = true := by
  simp

variable (previews : OrderedMap String String)

section

variable (openReasoning : OrderedSet String)

include openReasoning

theorem blocks_set (id text : String) :
    (blocks previews openReasoning).mark .textMessage id true = blocks (previews.set id text) openReasoning := by
  funext bracket name
  cases bracket <;> simp [Marks.mark, blocks]

theorem blocks_erase (id : String) :
    (blocks previews openReasoning).mark .textMessage id false = blocks (previews.erase id) openReasoning := by
  funext bracket name
  cases bracket <;> simp [Marks.mark, blocks]

theorem blocks_add (id : String) :
    ((blocks previews openReasoning).mark .reasoningSpan id true).mark .reasoningMessage id true =
      blocks previews (openReasoning.add id) := by
  funext bracket name
  cases bracket <;> simp [Marks.mark, blocks]

theorem blocks_eraseThinking (id : String) :
    ((blocks previews openReasoning).mark .reasoningMessage id false).mark .reasoningSpan id false =
      blocks previews (openReasoning.erase id) := by
  funext bracket name
  cases bracket <;> simp [Marks.mark, blocks]

end

theorem blocks_empty : blocks OrderedMap.empty OrderedMap.empty = Marks.none := by
  funext bracket name
  cases bracket <;> rfl

@[simp] theorem emitted_append (first second : List Trace) :
    emitted (first ++ second) = emitted first ++ emitted second :=
  List.filterMap_append

@[simp] theorem emitted_told (events : List Event) : emitted (events.map .told) = events := by
  unfold emitted
  rw [List.filterMap_map]
  exact List.filterMap_some

theorem emitted_trace (exit : Exit) : emitted exit.trace = [] := by
  cases exit <;> rfl

theorem emitted_emit (turn : Turn) (events : List Event) :
    emitted (turn.emit events).log = emitted turn.log ++ events := by
  rw [Turn.emit, Turn.record, emitted_append, emitted_told]

/-! ## Groups of events -/

section

variable {told : List Event} {marks : Marks} {steps : String -> Bool}

theorem opened_cons {event : Event} {events : List Event}
    (opened : Opened (told ++ [event] ++ events) marks steps) : Opened (told ++ event :: events) marks steps := by
  rw [List.append_assoc] at opened
  exact opened

section

variable (opened : Opened told marks steps)

include opened

theorem opened_textContent {id : String} (delta : String)
    (isOpen : marks .textMessage id = true) : Opened (told ++ textContent id delta) marks steps := by
  unfold textContent
  split
  · rw [List.append_nil]
    exact opened
  · exact opened.textMessageContent { messageId := id, delta := delta } rfl isOpen

/-- A message told all at once. -/
theorem opened_wholeMessage {id : String} (text : String) (closed : marks .textMessage id = false) :
    Opened (told ++ (textStart id :: textContent id text ++ [textEnd id])) (marks.mark .textMessage id false)
      steps := by
  have begun := opened.textMessageStart { messageId := id, role := some .assistant } rfl closed
  have isOpen : (marks.mark .textMessage id true) .textMessage id = true := if_pos ⟨rfl, rfl⟩
  have filled := opened_textContent begun text isOpen
  have ended := filled.textMessageEnd { messageId := id } rfl isOpen
  rw [Marks.mark_mark] at ended
  simpa [textStart, textEnd] using ended

theorem opened_toolCall (id name arguments : String)
    (closed : marks .toolCall id = false) : Opened (told ++ toolCallEvents id name arguments) marks steps := by
  have begun := opened.toolCallStart { toolCallId := id, toolCallName := name } rfl rfl closed
  have isOpen : (marks.mark .toolCall id true) .toolCall id = true := if_pos ⟨rfl, rfl⟩
  have filled := begun.toolCallArgs { toolCallId := id, delta := arguments } rfl isOpen
  have ended := filled.toolCallEnd { toolCallId := id } rfl isOpen
  rw [Marks.mark_mark, Marks.mark_eq_self closed] at ended
  simpa [toolCallEvents] using ended

theorem opened_thinking {id : String} (span : marks .reasoningSpan id = false)
    (message : marks .reasoningMessage id = false) :
    Opened (told ++ [Event.reasoningStart { messageId := id }, Event.reasoningMessageStart { messageId := id }])
      ((marks.mark .reasoningSpan id true).mark .reasoningMessage id true) steps := by
  have begun := opened.reasoningStart { messageId := id } rfl span
  have closed : (marks.mark .reasoningSpan id true) .reasoningMessage id = false := by
    rw [← message]
    exact if_neg fun same => by cases same.1
  exact opened_cons (begun.reasoningMessageStart { messageId := id } rfl closed)

theorem opened_thought {id : String} (span : marks .reasoningSpan id = true)
    (message : marks .reasoningMessage id = true) :
    Opened (told ++ [Event.reasoningMessageEnd { messageId := id }, Event.reasoningEnd { messageId := id }])
      ((marks.mark .reasoningMessage id false).mark .reasoningSpan id false) steps := by
  have ended := opened.reasoningMessageEnd { messageId := id } rfl message
  have isOpen : (marks.mark .reasoningMessage id false) .reasoningSpan id = true := by
    rw [← span]
    exact if_neg fun same => by cases same.1
  exact opened_cons (ended.reasoningEnd { messageId := id } rfl isOpen)

theorem opened_emptyThinking {id : String} (span : marks .reasoningSpan id = false) :
    Opened (told ++ [Event.reasoningStart { messageId := id }, Event.reasoningEnd { messageId := id }])
      marks steps := by
  have begun := opened.reasoningStart { messageId := id } rfl span
  have isOpen : (marks.mark .reasoningSpan id true) .reasoningSpan id = true := if_pos ⟨rfl, rfl⟩
  have ended := begun.reasoningEnd { messageId := id } rfl isOpen
  rw [Marks.mark_mark, Marks.mark_eq_self span] at ended
  exact opened_cons ended

end

end

/-! ## The operations of a turn -/

/-- Emitting a turn's events after the run's. -/
abbrev OpenedAfter (told : List Event) (turn : Turn) (events : List Event) (marks : Marks) : Prop :=
  Opened (told ++ (emitted turn.log ++ events)) marks fun _ => false

/-- What a turn has open is what its events leave open, and the session has yet
to start what is not open. -/
structure Sound (told : List Event) (rest : List SessionEvent) (turn : Turn) : Prop where
  opened : Opened (told ++ emitted turn.log) (blocks turn.previews turn.openReasoning) fun _ => false
  messages : ∀ id ∈ startedMessages rest, turn.previews.has id = false
  thinking : ∀ id ∈ startedThinking rest, turn.openReasoning.has id = false
  uncorrected : ∀ id, turn.previews.has id = true -> ∀ other, id ≠ correctedId other

namespace Sound

variable {told : List Event} {rest : List SessionEvent} {turn : Turn}

section

variable (sound : Sound told rest turn)

include sound

/-- An operation that opens no preview and no reasoning block of its own. -/
theorem after {later : Turn} (events : List Event) (log : emitted later.log = emitted turn.log ++ events)
    (opened : OpenedAfter told turn events (blocks later.previews later.openReasoning))
    (previews : ∀ id, later.previews.has id = true -> turn.previews.has id = true)
    (thinking : ∀ id, later.openReasoning.has id = true -> turn.openReasoning.has id = true) :
    Sound told rest later := by
  constructor
  · rw [log]
    exact opened
  · intro id member
    have closed := sound.messages id member
    apply Bool.eq_false_iff.mpr
    exact fun isOpen => Bool.false_ne_true (closed.symm.trans (previews id isOpen))
  · intro id member
    have closed := sound.thinking id member
    apply Bool.eq_false_iff.mpr
    exact fun isOpen => Bool.false_ne_true (closed.symm.trans (thinking id isOpen))
  · exact fun id isOpen => sound.uncorrected id (previews id isOpen)

/-- Emitting events that leave everything as it is. -/
theorem emit (events : List Event)
    (opened : OpenedAfter told turn events (blocks turn.previews turn.openReasoning)) :
    Sound told rest (turn.emit events) :=
  sound.after events (emitted_emit turn events) opened (fun _ isOpen => isOpen) fun _ isOpen => isOpen

/-- Writing down what is not an event. -/
theorem record (entries : List Trace) (silent : emitted entries = []) :
    Sound told rest (turn.record entries) := by
  refine sound.after [] ?_ ?_ (fun _ isOpen => isOpen) fun _ isOpen => isOpen
  · rw [Turn.record, emitted_append, silent]
  · rw [OpenedAfter, List.append_nil]
    exact sound.opened

theorem post (events : List UserEvent) : Sound told rest (turn.post events) :=
  sound.record [.posted events] rfl

theorem openMessage {id : String} (closed : turn.previews.has id = false)
    (once : id ∉ startedMessages rest) (uncorrected : ∀ other, id ≠ correctedId other) :
    Sound told rest (turn.openMessage id) := by
  have begun := sound.opened.textMessageStart { messageId := id, role := some .assistant } rfl closed
  rw [blocks_set _ _ _ ""] at begun
  constructor
  · have log : emitted (turn.openMessage id).log = emitted turn.log ++ [textStart id] := emitted_emit _ _
    rw [log, ← List.append_assoc]
    exact begun
  · intro other member
    have different : other ≠ id := fun same => once (same ▸ member)
    simp [Turn.openMessage, different, sound.messages other member]
  · exact sound.thinking
  · intro other isOpen
    by_cases same : other = id
    · rw [same]
      exact uncorrected
    · apply sound.uncorrected other
      simpa [Turn.openMessage, same] using isOpen

theorem openThinking {id : String} (closed : turn.openReasoning.has id = false)
    (once : id ∉ startedThinking rest) : Sound told rest (turn.openThinking id) := by
  have begun := opened_thinking sound.opened closed closed
  rw [blocks_add] at begun
  constructor
  · have log : emitted (turn.openThinking id).log = emitted turn.log ++ _ := emitted_emit _ _
    rw [log, ← List.append_assoc]
    exact begun
  · exact sound.messages
  · intro other member
    have different : other ≠ id := fun same => once (same ▸ member)
    simp [Turn.openThinking, different, sound.thinking other member]
  · exact sound.uncorrected

theorem closeMessage {id : String} (isOpen : turn.previews.has id = true) :
    Sound told rest (turn.closeMessage id) := by
  have ended := sound.opened.textMessageEnd { messageId := id } rfl isOpen
  rw [blocks_erase, List.append_assoc] at ended
  refine sound.after _ (emitted_emit _ _) ended ?_ fun _ isOpen => isOpen
  intro other still
  exact ((has_erase_iff _ _ _).mp still).2

theorem closeReasoning {id : String} (isOpen : turn.openReasoning.has id = true) :
    Sound told rest (turn.closeReasoning id) := by
  have ended := opened_thought sound.opened isOpen isOpen
  rw [blocks_eraseThinking, List.append_assoc] at ended
  refine sound.after _ (emitted_emit _ _) ended (fun _ isOpen => isOpen) ?_
  intro other still
  exact ((has_erase_iff _ _ _).mp still).2

end

/-- Closing what is open closes it, in any order, and leaves the rest. -/
theorem closeEach {A : Type} (rests : Turn -> A) {close : Turn -> String -> Turn} {isOpen : Turn -> String -> Bool}
    (closes : ∀ {turn}, Sound told rest turn -> ∀ {id}, isOpen turn id = true -> Sound told rest (close turn id))
    (erases : ∀ turn id other, isOpen (close turn id) other = true ↔ other ≠ id ∧ isOpen turn other = true)
    (keeps : ∀ turn id, rests (close turn id) = rests turn) {ids : List String} (nodup : ids.Nodup)
    (sound : Sound told rest turn) (opened : ∀ id ∈ ids, isOpen turn id = true) :
    Sound told rest (ids.foldl close turn) ∧ rests (ids.foldl close turn) = rests turn ∧
      ∀ id, isOpen (ids.foldl close turn) id = true -> isOpen turn id = true ∧ id ∉ ids := by
  induction ids generalizing turn with
  | nil => exact ⟨sound, rfl, fun _ still => ⟨still, List.not_mem_nil⟩⟩
  | cons head tail ih =>
    have parts := List.nodup_cons.mp nodup
    have later : ∀ id ∈ tail, isOpen (close turn head) id = true := by
      intro id member
      have different : id ≠ head := fun same => parts.1 (same ▸ member)
      exact (erases turn head id).mpr ⟨different, opened id (List.mem_cons_of_mem _ member)⟩
    have closed := ih parts.2 (closes sound (opened head List.mem_cons_self)) later
    refine ⟨closed.1, closed.2.1.trans (keeps turn head), fun id still => ?_⟩
    have earlier := closed.2.2 id still
    have before := (erases turn head id).mp earlier.1
    exact ⟨before.2, fun member => (List.mem_cons.mp member).elim before.1 earlier.2⟩

end Sound

/-- Nothing is open. -/
structure Closed (turn : Turn) : Prop where
  messages : turn.previews = OrderedMap.empty
  thinking : turn.openReasoning = OrderedMap.empty

theorem eq_empty_of_has {A : Type} {map : OrderedMap String A} (absent : ∀ id, map.has id ≠ true) :
    map = OrderedMap.empty := by
  apply OrderedMap.ext
  have none := (OrderedMap.size_eq_zero_iff map).mpr fun id => Bool.eq_false_iff.mpr (absent id)
  exact List.length_eq_zero_iff.mp none

namespace Sound

variable {told : List Event} {rest : List SessionEvent} {turn : Turn}

theorem closeAll (sound : Sound told rest turn) :
    Sound told rest (turn.closeAll .typescript) ∧ Closed (turn.closeAll .typescript) := by
  have messages := closeEach Turn.openReasoning (fun sound => sound.closeMessage)
    (fun turn => has_erase_iff turn.previews) (fun _ _ => rfl) turn.previews.keys_nodup sound
    fun id => (OrderedMap.mem_keys_iff _ id).mp
  have thinking := closeEach Turn.previews (fun sound => sound.closeReasoning)
    (fun turn => has_erase_iff turn.openReasoning) (fun _ _ => rfl) (OrderedMap.keys_nodup _) messages.1
    fun id => (OrderedMap.mem_keys_iff _ id).mp
  refine ⟨thinking.1, eq_empty_of_has ?_, eq_empty_of_has ?_⟩
  · intro id still
    have earlier := still
    change ((_ : Turn).previews.has id) = true at earlier
    rw [Turn.closeAll] at earlier
    have listed := messages.2.2 id (by rw [← thinking.2.1]; exact earlier)
    exact listed.2 ((OrderedMap.mem_keys_iff _ id).mpr listed.1)
  · intro id still
    have listed := thinking.2.2 id still
    exact listed.2 ((OrderedMap.mem_keys_iff _ id).mpr listed.1)

/-- Where nothing is open the run may end. -/
theorem unopened (sound : Sound told rest turn) (closed : Closed turn) :
    Opened (told ++ emitted turn.log) Marks.none fun _ => false := by
  have opened := sound.opened
  rwa [closed.messages, closed.thinking, blocks_empty] at opened

end Sound

/-- How an operation of a turn leaves it: going on, thrown out with what is open
still open, returning with nothing open, or returning behind a `RUN_ERROR`. -/
inductive Ends (told : List Event) (rest : List SessionEvent) : Turn × Option Exit -> Prop
  | running {turn : Turn} (sound : Sound told rest turn) : Ends told rest (turn, none)
  | threw {turn : Turn} (sound : Sound told rest turn) : Ends told rest (turn, some .threw)
  | settled {turn : Turn} {outcome : TurnOutcome} (sound : Sound told rest turn) (closed : Closed turn)
      (orderly : ∀ sessionEnded sessionInterrupted, outcome ≠ .errored sessionEnded sessionInterrupted) :
      Ends told rest (turn, some (.returned outcome))
  | failed {turn : Turn} {sessionEnded sessionInterrupted : Bool} {before : List Event} {error : RunErrorEvent}
      (closed : Closed turn) (last : emitted turn.log = before ++ [Event.runError error])
      (opened : Opened (told ++ before) Marks.none fun _ => false) :
      Ends told rest (turn, some (.returned (.errored sessionEnded sessionInterrupted)))

namespace Sound

variable {told : List Event} {rest : List SessionEvent} {turn : Turn}

section

variable (sound : Sound told rest turn)

include sound

theorem runError (error : RunErrorEvent) (sessionEnded sessionInterrupted : Bool) :
    Ends told rest ((turn.closeAll .typescript).emit [.runError error],
      some (.returned (.errored sessionEnded sessionInterrupted))) := by
  have closed := sound.closeAll
  exact .failed ⟨closed.2.messages, closed.2.thinking⟩ (emitted_emit _ _) (closed.1.unopened closed.2)

theorem fail (message : String) (code : Option String) (sessionInterrupted : Bool) :
    Ends told rest (turn.fail .typescript message code sessionInterrupted) :=
  sound.runError _ _ _

theorem interruptAndFail (message code : String) (replies : Replies) :
    Ends told rest (turn.interruptAndFail .typescript message code replies) := by
  have interrupted : Sound told rest (turn.interrupt replies) := by
    unfold Turn.interrupt
    split
    · exact sound.post _
    · exact sound
  exact interrupted.fail _ _ _

theorem toolResult (toolUseId content : String) :
    Sound told rest (turn.emit [toolResultEvent toolUseId content]) := by
  apply sound.emit _
  rw [OpenedAfter, ← List.append_assoc]
  exact sound.opened.toolCallResult _

theorem toolCall (options : TurnOptions) (id name : String) (input : Option Json) :
    Sound told rest (turn.emitToolCall options id name input) := by
  apply sound.emit _
  rw [OpenedAfter, ← List.append_assoc]
  exact opened_toolCall sound.opened _ _ _ rfl

theorem askedBy (id : String) (evaluatedPermission : Option String) :
    Sound told rest (turn.askedBy id evaluatedPermission) := by
  unfold Turn.askedBy
  split
  · exact ⟨sound.opened, sound.messages, sound.thinking, sound.uncorrected⟩
  · exact sound

theorem ack (ids : List String) : Sound told rest (turn.ack ids) :=
  ⟨sound.opened, sound.messages, sound.thinking, sound.uncorrected⟩

theorem answerCustomToolUse (id text : String) (isError : Bool) (replies : Replies) :
    Ends told rest (turn.answerCustomToolUse .typescript id text isError replies) := by
  unfold Turn.answerCustomToolUse
  split
  · exact .running (((sound.post _).ack [id]).toolResult id text)
  · exact sound.interruptAndFail _ _ _

theorem runBackendTool (id : String) (replies : Replies) :
    Ends told rest (turn.runBackendTool .typescript id replies) := by
  unfold Turn.runBackendTool
  split
  · exact sound.answerCustomToolUse _ _ _ _
  · exact sound.answerCustomToolUse _ _ _ _
  · split
    · exact .threw ((sound.post _).ack [id])
    · exact .threw sound

theorem customToolUse (options : TurnOptions) (id name : String) (input : Option Json) (replies : Replies) :
    Ends told rest (turn.customToolUse .typescript options id name input replies) := by
  have called := sound.toolCall options id ((options.clientTools.get? name).getD name) input
  unfold Turn.customToolUse
  dsimp only
  split
  · have noted : Sound told rest ((turn.emitToolCall options id ((options.clientTools.get? name).getD name) input).park
        id replies).1 := by
      have recorded := called.record [.called (.clientPark id) replies.parks] rfl
      exact ⟨recorded.opened, recorded.messages, recorded.thinking, recorded.uncorrected⟩
    unfold Turn.park at noted ⊢
    split
    · exact .running noted
    · exact .threw noted
  · split
    · exact called.runBackendTool _ _
    · exact called.answerCustomToolUse _ _ _ _

theorem reconcileMessage (id finalText : String) : Sound told rest (turn.reconcileMessage id finalText) := by
  unfold Turn.reconcileMessage
  split
  · rename_i unopened
    have closed : turn.previews.has id = false := by
      rw [OrderedMap.has, unopened]
      rfl
    have whole := opened_wholeMessage sound.opened finalText closed
    rw [blocks_erase, List.append_assoc] at whole
    refine sound.after _ ?_ whole (fun other still => ((has_erase_iff _ _ _).mp still).2) fun _ isOpen => isOpen
    rw [← List.append_assoc]
    exact (emitted_emit _ _).trans (congrArg (fun log => log ++ [textEnd id]) (emitted_emit _ _))
  · rename_i already found
    have isOpen : turn.previews.has id = true := by
      rw [OrderedMap.has, found]
      rfl
    split
    · have filled := opened_textContent sound.opened
        (String.ofList (finalText.toList.drop already.toList.length))
        (isOpen : blocks _ turn.openReasoning .textMessage _ = _)
      rw [List.append_assoc] at filled
      exact (sound.emit _ filled).closeMessage isOpen
    · have closed := sound.closeMessage isOpen
      apply closed.emit _
      split
      · rw [OpenedAfter, List.append_nil]
        exact closed.opened
      · have unopened : (turn.closeMessage id).previews.has (correctedId id) = false :=
          Bool.eq_false_iff.mpr fun isOpen => closed.uncorrected _ isOpen id rfl
        have whole := opened_wholeMessage closed.opened finalText unopened
        rw [Marks.mark_eq_self unopened, List.append_assoc] at whole
        exact whole

theorem eventDelta (eventId : String) (delta : Delta) (replies : Replies) :
    Sound told rest (turn.eventDelta eventId delta replies) := by
  unfold Turn.eventDelta
  split
  · rename_i already text found
    have isOpen : turn.previews.has eventId = true := by
      rw [OrderedMap.has, found]
      rfl
    have same : ∀ other, (turn.previews.set eventId (already ++ text)).has other = turn.previews.has other := by
      intro other
      by_cases equal : other = eventId
      · rw [equal, isOpen]
        simp
      · simp [equal]
    split
    · refine sound.after (textContent eventId text) (emitted_emit turn _) ?_ (fun other isOpen => ?_)
        fun _ isOpen => isOpen
      · have filled := opened_textContent sound.opened text (isOpen : blocks _ turn.openReasoning .textMessage _ = _)
        have marks : blocks (turn.previews.set eventId (already ++ text)) turn.openReasoning =
            blocks turn.previews turn.openReasoning := by
          rw [← blocks_set]
          exact Marks.mark_eq_self isOpen
        rw [List.append_assoc, ← marks] at filled
        exact filled
      · exact (same other).symm.trans isOpen
    · exact sound
  · exact sound

theorem endThinking (id : String) : Sound told rest (turn.endThinking id) := by
  unfold Turn.endThinking
  split
  · rename_i isOpen
    exact sound.closeReasoning isOpen
  · rename_i closed
    apply sound.emit _
    rw [OpenedAfter, ← List.append_assoc]
    exact opened_emptyThinking sound.opened (Bool.eq_false_iff.mpr closed)

theorem handOver (blockedOn : List String) (replies : Replies) :
    Ends told rest (turn.handOver .typescript blockedOn replies) := by
  unfold Turn.handOver
  dsimp only
  split
  · exact sound.interruptAndFail _ _ _
  · split
    · exact .settled sound.closeAll.1 sound.closeAll.2 nofun
    · exact .running sound

theorem requiresAction (options : TurnOptions) (eventIds : List String)
    (replies : Replies) : Ends told rest (turn.requiresAction .typescript options eventIds replies) := by
  unfold Turn.requiresAction
  dsimp only
  split
  · exact .running sound
  · split
    · exact sound.handOver _ _
    · split
      · exact sound.interruptAndFail _ _ _
      · split
        · split
          · exact .running ((sound.post _).ack _)
          · exact ((sound.post _).ack _).handOver _ _
        · exact sound.interruptAndFail _ _ _

theorem statusIdle (options : TurnOptions) (stopReason : StopReason)
    (replies : Replies) : Ends told rest (turn.statusIdle .typescript options stopReason replies) := by
  unfold Turn.statusIdle
  split
  · exact .settled sound.closeAll.1 sound.closeAll.2 nofun
  · exact sound.fail _ _ _
  · exact sound.requiresAction _ _ _
  · exact sound.interruptAndFail _ _ _

theorem sessionError (type message retryStatus : String) :
    Ends told rest (turn.sessionError .typescript type message retryStatus) := by
  unfold Turn.sessionError
  split
  · exact .running sound
  · exact sound.fail _ _ _

end

end Sound

/-! ## The turn -/

section

variable {told : List Event} {rest : List SessionEvent} {turn : Turn} (options : TurnOptions)

theorem Sound.later {event : SessionEvent} (sound : Sound told (event :: rest) turn) : Sound told rest turn where
  opened := sound.opened
  messages id member := sound.messages id (((List.sublist_cons_self event rest).filterMap _).subset member)
  thinking id member := sound.thinking id (((List.sublist_cons_self event rest).filterMap _).subset member)
  uncorrected := sound.uncorrected

theorem Sound.react {event : SessionEvent} (sound : Sound told (event :: rest) turn)
    (orderly : Orderly (event :: rest)) (replies : Replies) :
    Ends told rest (turn.react .typescript options replies event) := by
  have going := sound.later
  cases event with
  | startMessage id =>
    have begun := going.openMessage (sound.messages id List.mem_cons_self) (List.nodup_cons.mp orderly.messages).1
      (orderly.uncorrected id List.mem_cons_self)
    rw [Turn.react, Turn.eventStart]
    split
    · exact .running begun
    · exact .threw begun
  | startThinking id =>
    exact .running (going.openThinking (sound.thinking id List.mem_cons_self)
      (List.nodup_cons.mp orderly.thinking).1)
  | delta eventId delta => exact .running (going.eventDelta eventId delta replies)
  | thinking id => exact .running (going.endThinking id)
  | message id content =>
    rw [Turn.react]
    split
    · exact .running going
    · exact .running (going.reconcileMessage id _)
  | customToolUse id name input => exact going.customToolUse options id name input replies
  | toolUse id name input permission | mcpToolUse id server name input permission =>
    exact .running ((going.toolCall options id _ input).askedBy id permission)
  | toolResult id content | mcpToolResult id content => exact .running (going.toolResult id _)
  | modelRequestEnd isError =>
    rw [Turn.react]
    split
    · exact .running going.closeAll.1
    · exact .running going
  | error type message retryStatus => exact going.sessionError type message retryStatus
  | statusIdle stopReason => exact going.statusIdle options stopReason replies
  | statusTerminated | deleted => exact going.runError _ _ _
  | startOther _ | other => exact .running going

theorem Sound.atEnd {rest : List SessionEvent} (sound : Sound told rest turn) : Sound told [] turn where
  opened := sound.opened
  messages := fun _ impossible => by
    cases impossible
  thinking := fun _ impossible => by
    cases impossible
  uncorrected := sound.uncorrected

theorem Sound.consume {events : List (SessionEvent × Replies)} (sound : Sound told (events.map Prod.fst) turn)
    (orderly : Orderly (events.map Prod.fst)) : Ends told [] (turn.consume .typescript options events) := by
  induction events generalizing turn with
  | nil => exact .running sound
  | cons head tail ih =>
    rcases head with ⟨event, replies⟩
    have step := (sound.record [.heard event] rfl).react options orderly replies
    rw [Turn.consume]
    change Ends told (tail.map Prod.fst) (turn.handle .typescript options event replies) at step
    generalize turn.handle .typescript options event replies = ended at step
    cases step with
    | running sound => exact ih sound orderly.tail
    | threw sound => exact .threw sound.atEnd
    | settled sound closed orderly => exact .settled sound.atEnd closed orderly
    | failed closed last opened => exact .failed closed last opened

end

theorem closeAll_of_closed {turn : Turn} (closed : Closed turn) : turn.closeAll .typescript = turn := by
  rw [Turn.closeAll]
  simp only [closed.messages]
  change (turn.openReasoning.keys).foldl Turn.closeReasoning turn = turn
  rw [closed.thinking]
  rfl

/-- How a turn ends: thrown out, with an outcome, or behind a `RUN_ERROR`; with
nothing open. -/
inductive TurnEnds (told : List Event) : Turn × Exit -> Prop
  | threw {turn : Turn} (opened : Opened (told ++ emitted turn.log) Marks.none fun _ => false) :
      TurnEnds told (turn, .threw)
  | settled {turn : Turn} {outcome : TurnOutcome}
      (opened : Opened (told ++ emitted turn.log) Marks.none fun _ => false)
      (orderly : ∀ sessionEnded sessionInterrupted, outcome ≠ .errored sessionEnded sessionInterrupted) :
      TurnEnds told (turn, .returned outcome)
  | failed {turn : Turn} {sessionEnded sessionInterrupted : Bool} {before : List Event} {error : RunErrorEvent}
      (last : emitted turn.log = before ++ [Event.runError error])
      (opened : Opened (told ++ before) Marks.none fun _ => false) :
      TurnEnds told (turn, .returned (.errored sessionEnded sessionInterrupted))

/-- Posting what the run has to say emits nothing and opens nothing. -/
theorem sendOutbound_silent (script : TurnScript) (outbound : List UserEvent) :
    emitted (sendOutbound script outbound).1.log = [] ∧ Closed (sendOutbound script outbound).1 := by
  have results : emitted (sendResults script outbound).1.log = [] ∧ Closed (sendResults script outbound).1 := by
    unfold sendResults
    dsimp only
    split
    · exact ⟨rfl, rfl, rfl⟩
    · split <;> exact ⟨rfl, rfl, rfl⟩
  unfold sendOutbound
  split
  · rename_i turn sent
    rw [sent] at results
    exact results
  · rename_i turn sent
    rw [sent] at results
    dsimp only
    split
    · exact results
    · split
      · refine ⟨?_, results.2.messages, results.2.thinking⟩
        rw [Turn.record, Turn.post, Turn.record, emitted_append, emitted_append, results.1]
        rfl
      · exact results

theorem runTurn_ends {told : List Event} (opened : Opened told Marks.none fun _ => false) (options : TurnOptions)
    (script : TurnScript) (outbound : List UserEvent) (orderly : Orderly (script.events.map Prod.fst)) :
    TurnEnds told (runTurn .typescript options script outbound) := by
  have silent := sendOutbound_silent script outbound
  have still : Opened (told ++ emitted (sendOutbound script outbound).1.log) Marks.none fun _ => false := by
    rw [silent.1, List.append_nil]
    exact opened
  unfold runTurn
  split
  · split
    · rename_i turn sent
      rw [sent] at still
      exact .threw still
    · rename_i turn sent
      rw [sent] at still silent
      have sound : Sound told (script.events.map Prod.fst) turn := by
        refine ⟨?_, ?_, ?_, ?_⟩
        · rw [silent.2.messages, silent.2.thinking, blocks_empty]
          exact still
        · rw [silent.2.messages]
          exact fun _ _ => rfl
        · rw [silent.2.thinking]
          exact fun _ _ => rfl
        · rw [silent.2.messages]
          intro id impossible
          cases impossible
      have ended := sound.consume options orderly
      dsimp only
      unfold consumeStream
      generalize turn.consume .typescript options script.events = consumed at ended ⊢
      cases ended with
      | running sound =>
        have closed := sound.closeAll
        dsimp only
        split
        · exact .threw (closed.1.unopened closed.2)
        · split
          · dsimp only
            rw [closeAll_of_closed closed.2]
            exact .threw (closed.1.unopened closed.2)
          · have failed := closed.1.fail "The session event stream ended before the reply completed."
              (some "stream_ended") false
            dsimp only [Turn.fail] at failed ⊢
            cases failed with
            | failed closed last opened =>
              rw [closeAll_of_closed closed]
              exact .failed last opened
            | settled sound closed orderly => exact absurd rfl (orderly _ _)
      | threw sound =>
        have closed := sound.closeAll
        exact .threw (closed.1.unopened closed.2)
      | settled sound closed orderly =>
        dsimp only
        rw [closeAll_of_closed closed]
        exact .settled (sound.unopened closed) orderly
      | failed closed last opened =>
        dsimp only
        rw [closeAll_of_closed closed]
        exact .failed last opened
  · apply TurnEnds.threw
    change Opened (told ++ []) _ _
    rw [List.append_nil]
    exact opened

/-! ## The run -/

/-- The gate of a run: at most one terminal event passes. -/
def gated : Bool -> List Event -> List Event
  | _, [] => []
  | terminated, event :: rest =>
    if endsRun event && terminated then gated terminated rest
    else event :: gated (terminated || endsRun event) rest

theorem gated_plain {events : List Event} (plain : ∀ event ∈ events, endsRun event = false)
    (rest : List Event) : gated false (events ++ rest) = events ++ gated false rest := by
  induction events with
  | nil => rfl
  | cons event tail ih =>
    have head := plain event List.mem_cons_self
    rw [List.cons_append, gated, head, Bool.false_and, if_neg Bool.false_ne_true, Bool.false_or,
      ih (List.forall_mem_cons.mp plain).2]
    rfl

theorem emit_log (run : Run) (event : Event) :
    emitted (run.emit event).log = emitted run.log ++ gated run.terminated [event] ∧
      (run.emit event).terminated = (run.terminated || endsRun event) := by
  unfold Run.emit
  cases ends : endsRun event <;> cases stopped : run.terminated <;> simp [gated, ends, stopped, emitted]

theorem gated_append (terminated : Bool) (first second : List Event) :
    gated terminated (first ++ second) = gated terminated first ++ gated (terminated || first.any endsRun) second := by
  induction first generalizing terminated with
  | nil => simp [gated]
  | cons event rest ih =>
    simp only [List.cons_append, gated, List.any_cons]
    split
    · rename_i dropped
      have both := Bool.and_eq_true_iff.mp dropped
      rw [ih, both.1, both.2, Bool.true_or, Bool.true_or]
    · rw [ih, Bool.or_assoc]
      rfl

/-- What a run makes of a turn's trace: its events, through the gate. -/
theorem take_fold (outbound : Outbound) (entries : List Trace) (run : Run) :
    emitted (entries.foldl (Run.take outbound) run).log =
        emitted run.log ++ gated run.terminated (emitted entries) ∧
      (entries.foldl (Run.take outbound) run).terminated =
        (run.terminated || (emitted entries).any endsRun) := by
  induction entries generalizing run with
  | nil => simp [emitted, gated]
  | cons entry rest ih =>
    have one : emitted (run.take outbound entry).log = emitted run.log ++ gated run.terminated (emitted [entry]) ∧
        (run.take outbound entry).terminated = (run.terminated || (emitted [entry]).any endsRun) := by
      cases entry with
      | told event =>
        have step := emit_log run event
        simpa [Run.take, emitted] using step
      | heard event | posted event | returned event => simp [Run.take, emitted, gated]
      | called callback returns =>
        unfold Run.take
        dsimp only
        split <;> simp [Run.store, emitted, gated]
    have split : emitted (entry :: rest) = emitted [entry] ++ emitted rest := emitted_append [entry] rest
    have later := ih (run.take outbound entry)
    rw [one.1, one.2] at later
    rw [List.foldl_cons, later.1, later.2, split, gated_append, List.append_assoc, List.any_append, Bool.or_assoc]
    exact ⟨rfl, rfl⟩

/-- Where a run stands: going on with nothing open, or ended by its one
terminal event, before which nothing was open. -/
inductive Standing (run : Run) : Prop
  | going (opened : Opened (emitted run.log) Marks.none fun _ => false) (unterminated : run.terminated = false)
  | ended (before : List Event) (terminal : Event) (log : emitted run.log = before ++ [terminal])
      (ends : endsRun terminal = true) (opened : Opened before Marks.none fun _ => false)
      (admitted : Admits Record.blank (emitted run.log)) (terminated : run.terminated = true)

namespace Standing

variable {run : Run}

theorem of_same (standing : Standing run) {later : Run} (log : emitted later.log = emitted run.log)
    (terminated : later.terminated = run.terminated) : Standing later := by
  cases standing with
  | going opened unterminated => exact .going (log ▸ opened) (terminated.trans unterminated)
  | ended before terminal last ends opened admitted stopped =>
    exact .ended before terminal (log.trans last) ends opened (log ▸ admitted) (terminated.trans stopped)

theorem post (standing : Standing run) (events : List UserEvent) : Standing (run.post events) := by
  have silent : emitted (run.post events).log = emitted run.log := by
    rw [Run.post, emitted_append]
    exact List.append_nil _
  exact standing.of_same silent rfl

theorem forgetParkedCalls (standing : Standing run) (record : SessionRecord) (world : World) :
    Standing (run.forgetParkedCalls record world) := by
  unfold Run.forgetParkedCalls
  split
  · exact standing
  · exact standing.of_same rfl rfl

/-- An event of the agent's own, before the turn. -/
theorem emit (unterminated : run.terminated = false) {event : Event} (inside : endsRun event = false)
    (more : Opened (emitted run.log ++ [event]) Marks.none fun _ => false) :
    Opened (emitted (run.emit event).log) Marks.none (fun _ => false) ∧ (run.emit event).terminated = false := by
  have step := emit_log run event
  rw [unterminated, inside] at step
  have passed : gated false [event] = [event] := by simp [gated]
  rw [passed] at step
  exact ⟨step.1 ▸ more, step.2⟩

theorem terminal (opened : Opened (emitted run.log) Marks.none fun _ => false) (unterminated : run.terminated = false)
    {event : Event} (ends : endsRun event = true) (admitted : Admits Record.blank (emitted run.log ++ [event])) :
    Standing (run.emit event) ∧ (run.emit event).terminated = true := by
  have step := emit_log run event
  rw [unterminated, ends] at step
  have passed : gated false [event] = [event] := by simp [gated]
  rw [passed] at step
  exact ⟨.ended _ event step.1 ends opened (step.1 ▸ admitted) step.2, step.2⟩

/-- A `RUN_ERROR` ends a run that is going on, and does nothing to one that has ended. -/
theorem runError (standing : Standing run) (message code : String) :
    Standing (run.runError message code) ∧ (run.runError message code).terminated = true := by
  cases standing with
  | going opened unterminated => exact terminal opened unterminated rfl (opened.runError _)
  | ended before last log ends opened admitted terminated =>
    have unchanged : run.runError message code = run := by
      rw [Run.runError, Run.emit, endsRun, if_pos rfl, if_pos terminated]
    rw [unchanged]
    exact ⟨.ended before last log ends opened admitted terminated, terminated⟩

theorem runFinished (opened : Opened (emitted run.log) Marks.none fun _ => false)
    (unterminated : run.terminated = false) (input : RunInput) :
    Standing (run.runFinished input) ∧ (run.runFinished input).terminated = true :=
  terminal opened unterminated rfl (opened.runFinished _ rfl)

end Standing

/-- A part of a run ends: resolved only with the run ended. -/
structure Completes (result : Run × Completion) : Prop where
  standing : Standing result.1
  resolved : result.2 = .resolved -> result.1.terminated = true

section

variable (agent : Agent) (world : World) (input : RunInput) {run : Run}

theorem completes_rejected (standing : Standing run) : Completes (run, .rejected) :=
  ⟨standing, nofun⟩

theorem completes_runError (standing : Standing run) (message code : String) :
    Completes (run.runError message code, .resolved) :=
  ⟨(standing.runError message code).1, fun _ => (standing.runError message code).2⟩

theorem recordOutcome_standing (standing : Standing run) (record : SessionRecord) (outcome : TurnOutcome) :
    Standing (run.recordOutcome record outcome world).1 := by
  unfold Run.recordOutcome
  dsimp only
  split
  · exact standing.of_same rfl rfl
  · exact standing.forgetParkedCalls record world
  · exact standing
  · exact standing.of_same rfl rfl
  · split
    · exact standing
    · exact standing.of_same rfl rfl

theorem recordOutcome_unterminated (record : SessionRecord) (outcome : TurnOutcome) :
    emitted (run.recordOutcome record outcome world).1.log = emitted run.log ∧
      (run.recordOutcome record outcome world).1.terminated = run.terminated := by
  unfold Run.recordOutcome Run.forgetParkedCalls
  dsimp only
  split
  · exact ⟨rfl, rfl⟩
  · split <;> exact ⟨rfl, rfl⟩
  · exact ⟨rfl, rfl⟩
  · exact ⟨rfl, rfl⟩
  · split <;> exact ⟨rfl, rfl⟩

section

variable (opened : Opened (emitted run.log) Marks.none fun _ => false)

include opened

section

variable (unterminated : run.terminated = false)

include unterminated

theorem driveTurn_completes (orderly : Orderly (world.turn.events.map Prod.fst)) (outbound : Outbound) :
    Completes (driveTurn agent world input run outbound) := by
  have ends := runTurn_ends opened (turnOptions agent input) world.turn outbound.events orderly
  unfold driveTurn
  dsimp only
  generalize runTurn .typescript (turnOptions agent input) world.turn outbound.events = ended at ends ⊢
  have taken := take_fold outbound (ended.1.log ++ ended.2.trace) run
  rw [unterminated, Bool.false_or, emitted_append, emitted_trace, List.append_nil] at taken
  generalize (ended.1.log ++ ended.2.trace).foldl (Run.take outbound) run = after at taken ⊢
  have quiet : Opened (emitted run.log ++ emitted ended.1.log) Marks.none (fun _ => false) ->
      Opened (emitted after.log) Marks.none (fun _ => false) ∧ after.terminated = false := by
    intro still
    have plain : ∀ event ∈ emitted ended.1.log, endsRun event = false :=
      (List.forall_mem_append.mp still.inside).2
    have all : gated false (emitted ended.1.log) = emitted ended.1.log := by
      simpa [gated] using gated_plain plain []
    rw [all] at taken
    rw [taken.1, taken.2, List.any_eq_false]
    exact ⟨still, fun event member => Bool.eq_false_iff.mp (plain event member)⟩
  cases ends with
  | threw still =>
    have going := quiet still
    cases known : after.session <;> exact completes_rejected (.going going.1 going.2)
  | @settled turn outcome still orderly =>
    have going := quiet still
    cases known : after.session with
    | none => exact completes_rejected (.going going.1 going.2)
    | some record =>
      have standing := recordOutcome_standing world (.going going.1 going.2) record outcome
      have same := @recordOutcome_unterminated world after record outcome
      dsimp only
      split
      · rename_i later written
        rw [written] at same
        dsimp only at same
        have finished := Standing.runFinished (same.1.symm ▸ going.1) (same.2.trans going.2) input
        cases outcome with
        | errored sessionEnded sessionInterrupted => exact absurd rfl (orderly _ _)
        | _ => exact ⟨finished.1, fun _ => finished.2⟩
      · rename_i unwritten
        exact ⟨standing, fun resolved => (unwritten _ (Prod.ext rfl resolved)).elim⟩
  | @failed turn sessionEnded sessionInterrupted before error last opened =>
    have plain : ∀ event ∈ before, endsRun event = false :=
      (List.forall_mem_append.mp opened.inside).2
    dsimp only at taken
    rw [last, gated_plain plain, List.any_append] at taken
    have stopped : after.terminated = true := by
      rw [taken.2]
      simp [endsRun]
    have log : emitted after.log = emitted run.log ++ before ++ [Event.runError error] := by
      rw [taken.1, List.append_assoc]
      rfl
    have standing : Standing after :=
      .ended _ _ log rfl opened (log ▸ opened.runError error) stopped
    cases known : after.session with
    | none => exact completes_rejected standing
    | some record =>
      have later := recordOutcome_standing world standing record (.errored sessionEnded sessionInterrupted)
      have same := @recordOutcome_unterminated world after record (.errored sessionEnded sessionInterrupted)
      dsimp only
      split
      · rename_i done written
        rw [written] at later same
        exact ⟨later, fun _ => same.2.trans stopped⟩
      · rename_i unwritten
        exact ⟨later, fun resolved => (unwritten _ (Prod.ext rfl resolved)).elim⟩

theorem getOrCreateSession_going :
    Opened (emitted (getOrCreateSession world input run).1.log) Marks.none (fun _ => false) ∧
      (getOrCreateSession world input run).1.terminated = false := by
  unfold getOrCreateSession
  split
  · exact ⟨opened, unterminated⟩
  · split
    · exact ⟨opened, unterminated⟩
    · split
      · exact ⟨opened, unterminated⟩
      · split
        · exact ⟨opened, unterminated⟩
        · split
          · rename_i sessionId _ _
            have stored : (run.store { sessionId := sessionId } true).terminated = false := unterminated
            exact Standing.emit stored rfl (opened.custom _)
          · exact ⟨opened, unterminated⟩

theorem stayParked_completes (record : SessionRecord) (outbound : Outbound) :
    Completes (stayParked world input run record outbound) := by
  have standing : Standing run := .going opened unterminated
  unfold stayParked
  dsimp only
  split
  · have log : emitted (run.post outbound.events).log = emitted run.log := by
      rw [Run.post, emitted_append]
      exact List.append_nil _
    have still : ∀ record, Opened
        (emitted ((run.post outbound.events).store record world.storesAnswers).log) Marks.none fun _ => false :=
      fun _ => log ▸ opened
    split
    · have finished := fun record => Standing.runFinished (still record) unterminated input
      exact ⟨(finished _).1, fun _ => (finished _).2⟩
    · exact completes_rejected ((standing.post outbound.events).of_same rfl rfl)
  · exact completes_rejected standing

theorem runGated_completes (orderly : Orderly (world.turn.events.map Prod.fst)) :
    Completes (runGated agent world input run) := by
  have going := getOrCreateSession_going world input opened unterminated
  unfold runGated
  split
  · rename_i later found
    rw [found] at going
    exact completes_rejected (.going going.1 going.2)
  · rename_i later found
    rw [found] at going
    have standing : Standing later := .going going.1 going.2
    dsimp only
    split
    · exact completes_runError standing _ _
    · split
      · exact completes_rejected standing
      · split
        · exact completes_runError standing _ _
        · split
          · exact stayParked_completes world input going.1 going.2 _ _
          · exact driveTurn_completes agent world input going.1 going.2 orderly _

end

end

theorem tearDown_standing (standing : Standing run) : Standing (tearDown world run) := by
  unfold tearDown
  split
  · split
    · split
      · exact (standing.post _).forgetParkedCalls _ _
      · exact standing
    · exact standing
  · exact standing

theorem begin_going (stored : Option SessionRecord) :
    Opened (emitted (begin input { stored := stored }).log) Marks.none (fun _ => false) ∧
      (begin input { stored := stored }).terminated = false := by
  have plain : NoNullTags [] := fun _ impossible => absurd impossible List.not_mem_nil
  have started := Opened.start
    { threadId := input.threadId
      runId := input.runId
      extra := OrderedMap.ofList [("protocolVersion", .string protocolVersion)] } plain
  unfold begin
  dsimp only
  split
  · split
    · exact ⟨started, rfl⟩
    · exact Standing.emit rfl rfl (started.stateSnapshot _)
  · exact ⟨started, rfl⟩

theorem runTurnForInput_completes (stored : Option SessionRecord)
    (orderly : Orderly (world.turn.events.map Prod.fst)) :
    Completes (runTurnForInput agent world input stored) := by
  have going := begin_going input stored
  have standing : Standing (begin input { stored := stored }) := .going going.1 going.2
  unfold runTurnForInput
  dsimp only
  split
  · exact completes_runError standing _ _
  · split
    · exact completes_runError standing _ _
    · split
      · exact completes_runError standing _ _
      · have completes := runGated_completes agent world input going.1 going.2 orderly
        split
        · rename_i later done
          rw [done] at completes
          exact completes
        · rename_i later done
          rw [done] at completes
          exact completes_rejected (tearDown_standing world completes.standing)

end

/-- Every run stands at its end, and has ended unless the client went away. -/
theorem run_standing (agent : Agent) (world : World) (input : RunInput) (stored : Option SessionRecord)
    (orderly : Orderly (world.turn.events.map Prod.fst)) :
    Standing (run agent world input stored) ∧
      (world.disconnected = false -> (run agent world input stored).terminated = true) := by
  have completes := runTurnForInput_completes agent world input stored orderly
  unfold run
  split
  · rename_i later done
    rw [done] at completes
    exact ⟨completes.standing, fun _ => completes.resolved rfl⟩
  · rename_i later done
    rw [done] at completes
    split
    · rename_i gone
      exact ⟨completes.standing, fun still => absurd (gone.symm.trans still) Bool.noConfusion⟩
    · split
      · exact ⟨(completes.standing.runError _ _).1, fun _ => (completes.standing.runError _ _).2⟩
      · exact ⟨(completes.standing.runError _ _).1, fun _ => (completes.standing.runError _ _).2⟩

/-- Nothing these events opened is open. -/
def NothingOpen (past : List Event) : Prop :=
  ∀ bracket id, advance Record.blank past (.opened bracket id) = false

/-- The terminal event of a run is its last, and nothing is open when it comes. -/
def TerminalLast (events : List Event) : Prop :=
  ∀ before terminal after, events = before ++ terminal :: after -> endsRun terminal = true ->
    after = [] ∧ (∀ event ∈ before, endsRun event = false) ∧ NothingOpen before

/-- However early the subscriber leaves, what it has seen is accepted. -/
theorem Standing.accepts {run : Run} (standing : Standing run) :
    ∀ seen, seen <+: emitted run.log -> accepted seen = true := by
  rintro seen ⟨later, whole⟩
  have admitted : Admits Record.blank (emitted run.log) := by
    cases standing with
    | going opened _ => exact opened.admitted
    | ended _ _ _ _ _ admitted _ => exact admitted
  rw [← whole] at admitted
  exact (accepted_iff_admits seen).mpr ((admits_append _ _ _).mp admitted).1

theorem Standing.terminalLast {run : Run} (standing : Standing run) : TerminalLast (emitted run.log) := by
  intro before terminal after split ends
  cases standing with
  | going opened _ =>
    have inside := opened.inside terminal (split ▸ List.mem_append_right _ List.mem_cons_self)
    exact absurd (inside.symm.trans ends) Bool.noConfusion
  | ended earlier last log _ opened _ _ =>
    rw [split] at log
    have atEnd : after = [] := by
      rcases List.append_eq_append_iff.mp log with ⟨more, lead, tail⟩ | ⟨more, lead, tail⟩
      · cases more with
        | nil => exact (List.cons.inj tail).2
        | cons event more =>
          have member : terminal ∈ earlier := by
            rw [lead, (List.cons.inj tail).1]
            exact List.mem_append_right _ List.mem_cons_self
          exact absurd ((opened.inside terminal member).symm.trans ends) Bool.noConfusion
      · cases more with
        | nil => exact (List.cons.inj tail).2.symm ▸ rfl
        | cons event more =>
          have none := (List.cons.inj tail).2
          cases more <;> cases none
    subst atEnd
    have parts := List.append_inj' log rfl
    rw [parts.1]
    exact ⟨rfl, opened.inside, opened.entities⟩

/-- Whatever the session streams and whichever call fails, the events of a run
are accepted, however early the subscriber leaves; its one terminal event is the
last, with everything closed before it, and there is one unless the client went
away. -/
theorem run_valid (agent : Agent) (world : World) (input : RunInput) (stored : Option SessionRecord)
    (orderly : Orderly (world.turn.events.map Prod.fst)) :
    (∀ seen, seen <+: emitted (run agent world input stored).log -> accepted seen = true) ∧
      TerminalLast (emitted (run agent world input stored).log) ∧
      (world.disconnected = false -> ∃ before terminal,
        emitted (run agent world input stored).log = before ++ [terminal] ∧ endsRun terminal = true) := by
  have stands := run_standing agent world input stored orderly
  refine ⟨stands.1.accepts, stands.1.terminalLast, ?_⟩
  intro connected
  cases stands.1 with
  | going _ unterminated => exact absurd (unterminated.symm.trans (stands.2 connected)) Bool.noConfusion
  | ended before terminal log ends _ _ _ => exact ⟨before, terminal, log, ends⟩

/-- A preview that diverges from its message, and a park that cannot be stored. -/
def divergingWorld : World where
  creates := some "session"
  turn :=
    { events :=
        [(.startMessage "m", {}), (.delta "m" (.text "Hel"), {}), (.startThinking "t", {}),
          (.message "m" [{ type := "text", text := some "Good bye" }], {}),
          (.customToolUse "c" "show" none, { parks := false })] }

def divergingInput : RunInput where
  threadId := "thread"
  runId := "run"
  messages := [.user "u" (.text "Hello")]
  tools := ["show"]

theorem run_valid_diverging :
    (∀ seen, seen <+: emitted (run { stringify := fun _ => "" } divergingWorld divergingInput none).log ->
      accepted seen = true) ∧
      TerminalLast (emitted (run { stringify := fun _ => "" } divergingWorld divergingInput none).log) ∧
      (divergingWorld.disconnected = false -> ∃ before terminal,
        emitted (run { stringify := fun _ => "" } divergingWorld divergingInput none).log = before ++ [terminal] ∧
          endsRun terminal = true) := by
  apply run_valid
  refine ⟨by decide, by decide, ?_⟩
  intro id member other same
  have named : id = "m" := List.mem_singleton.mp member
  have lengths : 1 = 10 + other.length :=
    (congrArg String.length (named.symm.trans same)).trans (String.length_append "corrected_" other)
  omega

end ManagedAgents
end AgUi
