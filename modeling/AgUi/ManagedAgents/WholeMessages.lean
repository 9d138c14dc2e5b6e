import AgUi.ManagedAgents.Validity

namespace AgUi
namespace ManagedAgents

open Library Protocol

/-!
# Messages reach the UI whole

A message may be shown in pieces before its final text arrives.  The final text
completes what was shown, or is shown again under a corrected id where it does
not begin with it.  What is shown of a message is what the content events under
its id concatenate to.

Between its start and its end a message is open, and what was shown of it is
kept.  Nothing but its own events and the closing of all open messages touches
it, so what holds right after its final text holds at the end of the turn.
-/

/-! ## What is shown -/

/-- The message an event is part of. -/
def textMessageId : Event -> Option String
  | .textMessageStart event => some event.messageId
  | .textMessageContent event => some event.messageId
  | .textMessageEnd event => some event.messageId
  | _ => none

def deltaOf : Event -> String
  | .textMessageContent event => event.delta
  | _ => ""

/-- The events of one message, in order. -/
def messageEvents (log : List Trace) (id : String) : List Event :=
  (emitted log).filter fun event => textMessageId event = some id

/-- The text some events say. -/
def spoken : List Event -> String
  | [] => ""
  | event :: rest => deltaOf event ++ spoken rest

/-- What the UI has been shown of a message. -/
def shown (log : List Trace) (id : String) : String :=
  spoken (messageEvents log id)

/-- The message a whole text is told as. -/
def wholeMessage (id text : String) : List Event :=
  textStart id :: textContent id text ++ [textEnd id]

/-- The message is shown exactly: under its own id or, where what was shown is no
beginning of the final text, in one corrected message. -/
def Whole (log : List Trace) (id finalText : String) : Prop :=
  shown log id = finalText ∨
    (¬ (shown log id).toList <+: finalText.toList ∧
      messageEvents log (correctedId id) = wholeMessage (correctedId id) finalText)
@[simp] theorem spoken_append (first second : List Event) :
    spoken (first ++ second) = spoken first ++ spoken second := by
  induction first with
  | nil => exact String.empty_append.symm
  | cons event rest ih =>
    rw [List.cons_append, spoken, spoken, ih, String.append_assoc]

theorem messageEvents_append (first second : List Trace) (id : String) :
    messageEvents (first ++ second) id = messageEvents first id ++ messageEvents second id := by
  unfold messageEvents
  rw [emitted_append, List.filter_append]

theorem messageEvents_emit (turn : Turn) (events : List Event) (id : String) :
    messageEvents (turn.emit events).log id =
      messageEvents turn.log id ++ events.filter fun event => textMessageId event = some id := by
  unfold messageEvents
  rw [emitted_emit, List.filter_append]

/-- The content of one message, as the events of another see it. -/
theorem filter_textContent (id text other : String) :
    (textContent id text).filter (fun event => textMessageId event = some other) =
      if other = id then textContent id text else [] := by
  unfold textContent
  split
  · simp
  · by_cases same : other = id
    · simp [textMessageId, same]
    · simp [textMessageId, same, Ne.symm same]

theorem spoken_textContent (id text : String) : spoken (textContent id text) = text := by
  unfold textContent
  split
  · rename_i empty
    rw [empty]
    rfl
  · exact String.append_empty

theorem spoken_wholeMessage (id text : String) : spoken (wholeMessage id text) = text := by
  unfold wholeMessage
  rw [spoken_append, spoken, spoken_textContent]
  change "" ++ text ++ ("" ++ "") = text
  rw [String.empty_append, String.append_empty, String.append_empty]

/-! ## What leaves messages alone -/

/-- Messages may have been closed; nothing else was done to any. -/
structure Settles (turn later : Turn) : Prop where
  events : ∀ id, turn.previews.get? id = none -> messageEvents later.log id = messageEvents turn.log id
  shown : ∀ id, shown later.log id = shown turn.log id
  previews : ∀ id, later.previews.get? id = none ∨ later.previews.get? id = turn.previews.get? id
  closed : ∀ id, later.closedMessages.has id = true ↔
    turn.closedMessages.has id = true ∨ (turn.previews.get? id ≠ none ∧ later.previews.get? id = none)

namespace Settles

variable {turn later : Turn}

theorem of_same (events : ∀ id, messageEvents later.log id = messageEvents turn.log id)
    (previews : later.previews = turn.previews) (closed : later.closedMessages = turn.closedMessages) :
    Settles turn later where
  events id _ := events id
  shown id := congrArg spoken (events id)
  previews id := .inr (by rw [previews])
  closed id := by
    rw [closed, previews]
    exact (or_iff_left fun both => both.1 both.2).symm

theorem refl (turn : Turn) : Settles turn turn :=
  of_same (fun _ => rfl) rfl rfl

theorem trans {latest : Turn} (first : Settles turn later) (second : Settles later latest) : Settles turn latest where
  events id absent := by
    have still : later.previews.get? id = none :=
      (first.previews id).elim (fun none => none) fun same => same.trans absent
    rw [second.events id still, first.events id absent]
  shown id := (second.shown id).trans (first.shown id)
  previews id := by
    rcases second.previews id with none | same
    · exact .inl none
    · rw [same]
      exact first.previews id
  closed id := by
    rw [second.closed, first.closed]
    constructor
    · rintro ((before | ⟨present, gone⟩) | ⟨present, gone⟩)
      · exact .inl before
      · refine .inr ⟨present, ?_⟩
        rcases second.previews id with absent | same
        · exact absent
        · exact same.trans gone
      · refine .inr ⟨fun absent => present ?_, gone⟩
        rcases first.previews id with before | same
        · exact before
        · exact same.trans absent
    · rintro (before | ⟨present, absent⟩)
      · exact .inl (.inl before)
      · by_cases gone : later.previews.get? id = none
        · exact .inl (.inr ⟨present, gone⟩)
        · exact .inr ⟨gone, absent⟩

theorem frame (settles : Settles turn later) {id : String} (absent : turn.previews.get? id = none) :
    messageEvents later.log id = messageEvents turn.log id ∧ later.previews.get? id = none :=
  ⟨settles.events id absent, (settles.previews id).elim (fun gone => gone) fun same => same.trans absent⟩

/-- Entries that tell nothing of any message. -/
theorem record (turn : Turn) (entries : List Trace) (silent : ∀ id, messageEvents entries id = []) :
    Settles turn (turn.record entries) := by
  refine of_same ?_ rfl rfl
  intro id
  change messageEvents (turn.log ++ entries) id = _
  rw [messageEvents_append, silent, List.append_nil]

theorem emit (turn : Turn) {events : List Event} (silent : ∀ event ∈ events, textMessageId event = none) :
    Settles turn (turn.emit events) := by
  refine of_same ?_ rfl rfl
  intro id
  rw [messageEvents_emit, List.filter_eq_nil_iff.mpr, List.append_nil]
  intro event member same
  rw [silent event member] at same
  cases of_decide_eq_true same

theorem closeMessage {id : String} (isOpen : turn.previews.get? id ≠ none) : Settles turn (turn.closeMessage id) where
  events other absent := by
    have different : id ≠ other := fun same => isOpen (same ▸ absent)
    change messageEvents (turn.emit [textEnd id]).log other = _
    rw [messageEvents_emit]
    simp [textEnd, textMessageId, different]
  shown other := by
    change spoken (messageEvents (turn.emit [textEnd id]).log other) = spoken _
    rw [messageEvents_emit, spoken_append]
    by_cases same : id = other
    · simp [textEnd, textMessageId, same, spoken, deltaOf]
    · simp [textEnd, textMessageId, same, spoken]
  previews other := by
    change (turn.previews.erase id).get? other = none ∨ (turn.previews.erase id).get? other = _
    rw [OrderedMap.get?_erase]
    split
    · exact .inl rfl
    · exact .inr rfl
  closed other := by
    change (turn.closedMessages.add id).has other = true ↔ _ ∨ (_ ∧ (turn.previews.erase id).get? other = none)
    rw [OrderedSet.has_add, Bool.or_eq_true, decide_eq_true_eq, OrderedMap.get?_erase, or_comm]
    by_cases same : other = id
    · rw [same, if_pos rfl]
      exact or_congr_right (iff_of_true rfl ⟨isOpen, rfl⟩)
    · rw [if_neg same]
      exact or_congr_right (iff_of_false same fun both => both.1 both.2)

theorem closeMessages {ids : List String} (nodup : ids.Nodup)
    (isOpen : ∀ id ∈ ids, turn.previews.get? id ≠ none) :
    Settles turn (ids.foldl Turn.closeMessage turn) := by
  induction ids generalizing turn with
  | nil => exact refl turn
  | cons head tail ih =>
    have parts := List.nodup_cons.mp nodup
    apply (closeMessage (isOpen head List.mem_cons_self)).trans
    apply ih parts.2
    intro id member
    have different : id ≠ head := fun same => parts.1 (same ▸ member)
    change (turn.previews.erase head).get? id ≠ none
    rw [OrderedMap.get?_erase, if_neg different]
    exact isOpen id (List.mem_cons_of_mem _ member)

theorem closeReasonings (ids : List String) : Settles turn (ids.foldl Turn.closeReasoning turn) := by
  induction ids generalizing turn with
  | nil => exact refl turn
  | cons head tail ih =>
    refine trans ?_ ih
    refine (emit turn ?_).trans (of_same (fun _ => rfl) rfl rfl)
    intro event member
    rcases List.mem_cons.mp member with rfl | member
    · rfl
    · cases List.mem_singleton.mp member
      rfl

theorem closeAll (turn : Turn) : Settles turn (turn.closeAll .typescript) := by
  refine (closeMessages turn.previews.keys_nodup ?_).trans (closeReasonings _)
  intro id member absent
  have has := (OrderedMap.mem_keys_iff _ id).mp member
  unfold OrderedMap.has at has
  rw [absent] at has
  cases has

theorem runError (turn : Turn) (error : RunErrorEvent) : Settles turn (turn.emit [.runError error]) :=
  emit turn fun event member => by
    cases List.mem_singleton.mp member
    rfl

theorem fail (turn : Turn) (message : String) (code : Option String) (sessionInterrupted : Bool) :
    Settles turn (turn.fail .typescript message code sessionInterrupted).1 :=
  (closeAll turn).trans (runError _ _)

theorem interruptAndFail (turn : Turn) (message code : String) (replies : Replies) :
    Settles turn (turn.interruptAndFail .typescript message code replies).1 := by
  refine Settles.trans ?_ (fail _ _ _ _)
  unfold Turn.interrupt
  split
  · exact record turn _ fun _ => rfl
  · exact refl turn

theorem toolCall (turn : Turn) (options : TurnOptions) (id name : String) (input : Option Json) :
    Settles turn (turn.emitToolCall options id name input) := by
  apply emit
  intro event member
  simp only [toolCallEvents, List.mem_cons, List.not_mem_nil, or_false] at member
  rcases member with rfl | rfl | rfl <;> rfl

theorem toolResult (turn : Turn) (toolUseId content : String) :
    Settles turn (turn.emit [toolResultEvent toolUseId content]) :=
  emit turn fun event member => by
    cases List.mem_singleton.mp member
    rfl

theorem answerCustomToolUse (turn : Turn) (id text : String) (isError : Bool) (replies : Replies) :
    Settles turn (turn.answerCustomToolUse .typescript id text isError replies).1 := by
  unfold Turn.answerCustomToolUse
  split
  · have posted := record turn [.posted [.customToolResult id [.text text] isError]] fun _ => rfl
    refine (posted.trans ?_).trans
      (toolResult ((turn.post [.customToolResult id [.text text] isError]).ack [id]) id text)
    exact of_same (fun _ => rfl) rfl rfl
  · exact interruptAndFail turn _ _ replies

theorem runBackendTool (turn : Turn) (id : String) (replies : Replies) :
    Settles turn (turn.runBackendTool .typescript id replies).1 := by
  unfold Turn.runBackendTool
  split
  · exact answerCustomToolUse turn _ _ _ _
  · exact answerCustomToolUse turn _ _ _ _
  · split
    · have posted := record turn
        [.posted [.customToolResult id [.text Turn.interruptedToolText] true]] fun _ => rfl
      exact posted.trans (of_same (fun _ => rfl) rfl rfl)
    · exact refl turn

theorem customToolUse (turn : Turn) (options : TurnOptions) (id name : String) (input : Option Json)
    (replies : Replies) : Settles turn (turn.customToolUse .typescript options id name input replies).1 := by
  refine (toolCall turn options id ((options.clientTools.get? name).getD name) input).trans ?_
  unfold Turn.customToolUse
  dsimp only
  split
  · refine of_same ?_ rfl rfl
    intro other
    change messageEvents (_ ++ [Trace.called (.clientPark id) replies.parks]) other = _
    rw [messageEvents_append]
    exact List.append_nil _
  · split
    · exact runBackendTool _ _ _
    · exact answerCustomToolUse _ _ _ _ _

theorem askedBy (turn : Turn) (id : String) (permission : Option String) :
    Settles turn (turn.askedBy id permission) := by
  unfold Turn.askedBy
  split
  · exact of_same (fun _ => rfl) rfl rfl
  · exact refl turn

theorem endThinking (turn : Turn) (id : String) : Settles turn (turn.endThinking id) := by
  unfold Turn.endThinking
  split
  · exact closeReasonings [id]
  · apply emit
    intro event member
    simp only [List.mem_cons, List.not_mem_nil, or_false] at member
    rcases member with rfl | rfl <;> rfl

theorem handOver (turn : Turn) (blockedOn : List String) (replies : Replies) :
    Settles turn (turn.handOver .typescript blockedOn replies).1 := by
  unfold Turn.handOver
  dsimp only
  split
  · exact interruptAndFail turn _ _ replies
  · split
    · exact closeAll turn
    · exact refl turn

theorem requiresAction (turn : Turn) (options : TurnOptions) (eventIds : List String) (replies : Replies) :
    Settles turn (turn.requiresAction .typescript options eventIds replies).1 := by
  unfold Turn.requiresAction
  dsimp only
  split
  · exact refl turn
  · split
    · exact handOver turn _ replies
    · split
      · exact interruptAndFail turn _ _ replies
      · split
        · have confirmed : ∀ confirmations result, Settles turn
              ((turn.post (confirmations.map fun id => .toolConfirmation id result)).ack confirmations) :=
            fun _ _ => (record turn _ fun _ => rfl).trans (of_same (fun _ => rfl) rfl rfl)
          split
          · exact confirmed _ _
          · exact (confirmed _ _).trans (handOver _ _ replies)
        · exact interruptAndFail turn _ _ replies

theorem statusIdle (turn : Turn) (options : TurnOptions) (stopReason : StopReason) (replies : Replies) :
    Settles turn (turn.statusIdle .typescript options stopReason replies).1 := by
  cases stopReason with
  | endTurn => exact closeAll turn
  | retriesExhausted => exact fail turn _ _ _
  | requiresAction eventIds => exact requiresAction turn options eventIds replies
  | other type => exact interruptAndFail turn _ _ replies

end Settles

/-- The event is not about a message. -/
def SessionEvent.isElsewhere : SessionEvent -> Bool
  | .startMessage _ => false
  | .delta _ _ => false
  | .message _ _ => false
  | _ => true

/-- An event that is not about a message does no more than close those that are open. -/
theorem handle_settles (turn : Turn) (options : TurnOptions) {event : SessionEvent}
    (elsewhere : event.isElsewhere = true)
    (replies : Replies) : Settles turn (turn.handle .typescript options event replies).1 := by
  refine (Settles.record turn [.heard event] fun _ => rfl).trans ?_
  rw [Turn.handle]
  cases event with
  | startMessage id | delta id delta | message id content => cases elsewhere
  | startThinking id =>
    refine (Settles.emit _ ?_).trans (.of_same (fun _ => rfl) rfl rfl)
    intro event member
    simp only [List.mem_cons, List.not_mem_nil, or_false] at member
    rcases member with rfl | rfl <;> rfl
  | thinking id => exact .endThinking _ id
  | customToolUse id name input => exact .customToolUse _ options id name input replies
  | toolUse id name input permission =>
    exact (Settles.toolCall _ options id name input).trans (.askedBy _ id permission)
  | mcpToolUse id server name input permission =>
    exact (Settles.toolCall _ options id (server ++ ": " ++ name) input).trans (.askedBy _ id permission)
  | toolResult id content | mcpToolResult id content => exact .toolResult _ _ _
  | modelRequestEnd isError =>
    rw [Turn.react]
    split
    · exact .closeAll _
    · exact .refl _
  | error type message retryStatus =>
    rw [Turn.react, Turn.sessionError]
    split
    · exact .refl _
    · exact .fail _ _ _ _
  | statusIdle stopReason => exact .statusIdle _ options stopReason replies
  | statusTerminated | deleted => exact (Settles.closeAll _).trans (.runError _ _)
  | startOther id | other => exact .refl _

/-! ## Streams -/

/-- The messages whose final text arrives. -/
def finishedMessages (events : List SessionEvent) : List String :=
  events.filterMap fun | .message id _ => some id | _ => none

/-- A message starts at most once, and not after its final text, of which there is
one.  No message has the id another would be corrected under. -/
structure Regular (events : List SessionEvent) : Prop where
  starts : (startedMessages events).Nodup
  finals : (finishedMessages events).Nodup
  ordered : events.Pairwise fun earlier later => ∀ id content,
    earlier = .message id content -> later ≠ .startMessage id
  apart : ∀ id other, id ∈ startedMessages events ++ finishedMessages events ->
    other ∈ startedMessages events ++ finishedMessages events -> id ≠ correctedId other

theorem correctedId_injective {id other : String} (same : correctedId id = correctedId other) : id = other :=
  String.append_right_inj "corrected_" |>.mp same

theorem mem_startedMessages (events : List SessionEvent) (id : String) :
    id ∈ startedMessages events ↔ SessionEvent.startMessage id ∈ events := by
  unfold startedMessages
  rw [List.mem_filterMap]
  constructor
  · rintro ⟨event, member, started⟩
    cases event with
    | startMessage other =>
      cases started
      exact member
    | _ => cases started
  · intro member
    exact ⟨_, member, rfl⟩

theorem mem_finishedMessages (events : List SessionEvent) (id : String) :
    id ∈ finishedMessages events ↔ ∃ content, SessionEvent.message id content ∈ events := by
  unfold finishedMessages
  rw [List.mem_filterMap]
  constructor
  · rintro ⟨event, member, finished⟩
    cases event with
    | message other content =>
      cases finished
      exact ⟨content, member⟩
    | _ => cases finished
  · rintro ⟨content, member⟩
    exact ⟨_, member, rfl⟩

/-! ## One step -/

namespace Turn

/-- A final text does not come for a message that was closed short of it, and is
not empty where something else has been shown. -/
def Timely (turn : Turn) : SessionEvent -> Prop
  | .message id content =>
    (turn.closedMessages.has id = true -> shown turn.log id = textOf content) ∧
      ∀ text, turn.previews.get? id = some text -> textOf content = "" -> text = ""
  | _ => True

end Turn

/-- The final text of a message that is not closed: it is closed, and nothing
else is told than under its id and its corrected one. -/
structure Finishes (id : String) (turn later : Turn) : Prop where
  events : ∀ other, other ≠ id -> other ≠ correctedId id ->
    messageEvents later.log other = messageEvents turn.log other
  previews : later.previews = turn.previews.erase id
  closed : later.closedMessages = turn.closedMessages.add id

theorem filter_textStart (id other : String) :
    [textStart id].filter (fun event => textMessageId event = some other) =
      if other = id then [textStart id] else [] := by
  by_cases same : other = id
  · simp [textStart, textMessageId, same]
  · simp [textStart, textMessageId, same, Ne.symm same]

theorem filter_textEnd (id other : String) :
    [textEnd id].filter (fun event => textMessageId event = some other) = if other = id then [textEnd id] else [] := by
  by_cases same : other = id
  · simp [textEnd, textMessageId, same]
  · simp [textEnd, textMessageId, same, Ne.symm same]

theorem messageEvents_closeMessage (turn : Turn) (id other : String) :
    messageEvents (turn.closeMessage id).log other =
      messageEvents turn.log other ++ if other = id then [textEnd id] else [] := by
  change messageEvents (turn.emit [textEnd id]).log other = _
  rw [messageEvents_emit, filter_textEnd]

section Reconcile

variable {turn : Turn} {id finalText : String}

theorem reconcile_unshown (absent : turn.previews.get? id = none) :
    Finishes id turn (turn.reconcileMessage id finalText) ∧
      messageEvents (turn.reconcileMessage id finalText).log id =
        messageEvents turn.log id ++ wholeMessage id finalText := by
  have reconciled : turn.reconcileMessage id finalText =
      (turn.emit (textStart id :: textContent id finalText)).closeMessage id := by
    unfold Turn.reconcileMessage
    rw [absent]
  have told : ∀ other, messageEvents (turn.reconcileMessage id finalText).log other =
      messageEvents turn.log other ++ if other = id then wholeMessage id finalText else [] := by
    intro other
    rw [reconciled, messageEvents_closeMessage, messageEvents_emit, List.append_assoc]
    congr 1
    change ([textStart id] ++ textContent id finalText).filter _ ++ _ = _
    rw [List.filter_append, filter_textStart, filter_textContent]
    split
    · rfl
    · rfl
  refine ⟨⟨?_, ?_, ?_⟩, ?_⟩
  · intro other different _
    rw [told, if_neg different, List.append_nil]
  · rw [reconciled]
    rfl
  · rw [reconciled]
    rfl
  · rw [told, if_pos rfl]

theorem reconcile_begun {text : String} (isOpen : turn.previews.get? id = some text)
    (begins : text.toList <+: finalText.toList) :
    Finishes id turn (turn.reconcileMessage id finalText) ∧
      shown (turn.reconcileMessage id finalText).log id =
        shown turn.log id ++ String.ofList (finalText.toList.drop text.toList.length) := by
  have reconciled : turn.reconcileMessage id finalText =
      (turn.emit (textContent id (String.ofList (finalText.toList.drop text.toList.length)))).closeMessage id := by
    unfold Turn.reconcileMessage
    rw [isOpen]
    exact if_pos (List.isPrefixOf_iff_prefix.mpr begins)
  have told : ∀ other, messageEvents (turn.reconcileMessage id finalText).log other =
      messageEvents turn.log other ++ if other = id then
        textContent id (String.ofList (finalText.toList.drop text.toList.length)) ++ [textEnd id] else [] := by
    intro other
    rw [reconciled, messageEvents_closeMessage, messageEvents_emit, List.append_assoc, filter_textContent]
    split <;> rfl
  refine ⟨⟨?_, ?_, ?_⟩, ?_⟩
  · intro other different _
    rw [told, if_neg different, List.append_nil]
  · rw [reconciled]
    rfl
  · rw [reconciled]
    rfl
  · unfold shown
    rw [told, if_pos rfl, spoken_append, spoken_append, spoken_textContent]
    congr 1
    exact String.append_empty

theorem reconcile_diverged {text : String} (isOpen : turn.previews.get? id = some text)
    (diverged : ¬ text.toList <+: finalText.toList) (apart : id ≠ correctedId id) :
    Finishes id turn (turn.reconcileMessage id finalText) ∧
      shown (turn.reconcileMessage id finalText).log id = shown turn.log id ∧
      messageEvents (turn.reconcileMessage id finalText).log (correctedId id) =
        messageEvents turn.log (correctedId id) ++
          if finalText = "" then [] else wholeMessage (correctedId id) finalText := by
  have reconciled : turn.reconcileMessage id finalText =
      (turn.closeMessage id).emit (if finalText = "" then [] else wholeMessage (correctedId id) finalText) := by
    unfold Turn.reconcileMessage
    rw [isOpen]
    exact if_neg (mt List.isPrefixOf_iff_prefix.mp diverged)
  have corrected : ∀ other, (if finalText = "" then [] else wholeMessage (correctedId id) finalText).filter
      (fun event => textMessageId event = some other) =
        if other = correctedId id then
          if finalText = "" then [] else wholeMessage (correctedId id) finalText
        else [] := by
    intro other
    by_cases empty : finalText = ""
    · simp [empty]
    · rw [if_neg empty]
      unfold wholeMessage
      change (([textStart _] ++ textContent _ _) ++ _).filter _ = _
      rw [List.filter_append, List.filter_append, filter_textStart, filter_textContent, filter_textEnd]
      split <;> rfl
  have told : ∀ other, messageEvents (turn.reconcileMessage id finalText).log other =
      messageEvents turn.log other ++ ((if other = id then [textEnd id] else []) ++
        if other = correctedId id then
          if finalText = "" then [] else wholeMessage (correctedId id) finalText
        else []) := by
    intro other
    rw [reconciled, messageEvents_emit, messageEvents_closeMessage, List.append_assoc, corrected]
  refine ⟨⟨?_, ?_, ?_⟩, ?_, ?_⟩
  · intro other different differs
    rw [told, if_neg different, if_neg differs]
    exact List.append_nil _
  · rw [reconciled]
    rfl
  · rw [reconciled]
    rfl
  · unfold shown
    rw [told, if_pos rfl, if_neg apart, spoken_append]
    exact String.append_empty
  · rw [told, if_neg (Ne.symm apart), if_pos rfl, List.nil_append]

end Reconcile

/-! ## What a turn keeps of its messages -/

/-- None of these ids is another's corrected id. -/
def Apart (ids : List String) : Prop :=
  ∀ id other, id ∈ ids -> other ∈ ids -> id ≠ correctedId other

/-- What the turn knows of the messages of the stream, given the events to come. -/
structure Track (ids : List String) (rest : List SessionEvent) (turn : Turn) : Prop where
  known : ∀ id, turn.previews.get? id ≠ none -> id ∈ ids
  isOpen : ∀ id text, turn.previews.get? id = some text ->
    shown turn.log id = text ∧ turn.closedMessages.has id ≠ true
  unstarted : ∀ id, SessionEvent.startMessage id ∈ rest ->
    messageEvents turn.log id = [] ∧ turn.previews.get? id = none ∧ turn.closedMessages.has id ≠ true
  unfinished : ∀ id content, SessionEvent.message id content ∈ rest -> turn.previews.get? id = none ->
    turn.closedMessages.has id ≠ true -> messageEvents turn.log id = []
  uncorrected : ∀ id content, SessionEvent.message id content ∈ rest ->
    messageEvents turn.log (correctedId id) = []

/-- The messages of the events to come are among these. -/
def Within (ids : List String) (rest : List SessionEvent) : Prop :=
  ∀ id ∈ startedMessages rest ++ finishedMessages rest, id ∈ ids

namespace Track

variable {ids : List String} {rest : List SessionEvent} {event : SessionEvent} {turn later : Turn}

theorem tail (track : Track ids (event :: rest) turn) : Track ids rest turn where
  known := track.known
  isOpen := track.isOpen
  unstarted id member := track.unstarted id (List.mem_cons_of_mem _ member)
  unfinished id content member := track.unfinished id content (List.mem_cons_of_mem _ member)
  uncorrected id content member := track.uncorrected id content (List.mem_cons_of_mem _ member)

/-- No message has a corrected id. -/
theorem no_corrected (track : Track ids rest turn) (apart : Apart ids) {id : String} (member : id ∈ ids) :
    turn.previews.get? (correctedId id) = none := by
  by_contra present
  exact apart _ id (track.known _ present) member rfl

theorem settles (track : Track ids rest turn) (apart : Apart ids) (within : Within ids rest)
    (settles : Settles turn later) : Track ids rest later where
  known id present := by
    have same := (settles.previews id).resolve_left present
    exact track.known id (same ▸ present)
  isOpen id text isOpen := by
    have present : later.previews.get? id ≠ none := isOpen ▸ Option.some_ne_none text
    have same := (settles.previews id).resolve_left present
    have before := track.isOpen id text (same ▸ isOpen)
    refine ⟨(settles.shown id).trans before.1, ?_⟩
    rw [Ne, settles.closed]
    exact not_or_intro before.2 fun both => present both.2
  unstarted id member := by
    have before := track.unstarted id member
    refine ⟨(settles.events id before.2.1).trans before.1, ?_, ?_⟩
    · exact (settles.previews id).elim (fun absent => absent) fun same => same.trans before.2.1
    · rw [Ne, settles.closed]
      exact not_or_intro before.2.2 fun both => both.1 before.2.1
  unfinished id content member absent unclosed := by
    rw [Ne, settles.closed, not_or] at unclosed
    have before : turn.previews.get? id = none := by
      by_contra present
      exact unclosed.2 ⟨present, absent⟩
    rw [settles.events id before]
    exact track.unfinished id content member before unclosed.1
  uncorrected id content member := by
    have inIds : id ∈ ids := within id (List.mem_append_right _ ((mem_finishedMessages rest id).mpr ⟨content, member⟩))
    rw [settles.events _ (track.no_corrected apart inIds)]
    exact track.uncorrected id content member

/-- The text events of one open message, and what is kept of it, change together. -/
theorem update (track : Track ids rest turn) (apart : Apart ids) (within : Within ids rest) (id text : String)
    (member : id ∈ ids) (fresh : SessionEvent.startMessage id ∉ rest)
    (unclosed : turn.closedMessages.has id ≠ true) (said : shown later.log id = text)
    (events : ∀ other, other ≠ id -> messageEvents later.log other = messageEvents turn.log other)
    (previews : later.previews = turn.previews.set id text) (closed : later.closedMessages = turn.closedMessages) :
    Track ids rest later where
  known other present := by
    by_cases same : other = id
    · exact same ▸ member
    · rw [previews, OrderedMap.get?_set_of_ne _ _ same] at present
      exact track.known other present
  isOpen other kept isOpen := by
    rw [previews, OrderedMap.get?_set] at isOpen
    rw [closed]
    by_cases same : other = id
    · rw [if_pos same] at isOpen
      cases isOpen
      subst same
      exact ⟨said, unclosed⟩
    · rw [if_neg same] at isOpen
      rw [shown, events other same]
      exact track.isOpen other kept isOpen
  unstarted other started := by
    have different : other ≠ id := fun same => fresh (same ▸ started)
    rw [events other different, previews, OrderedMap.get?_set_of_ne _ _ different, closed]
    exact track.unstarted other started
  unfinished other content finished absent unclosedOther := by
    have different : other ≠ id := by
      rintro rfl
      rw [previews, OrderedMap.get?_set_self] at absent
      cases absent
    rw [previews, OrderedMap.get?_set_of_ne _ _ different] at absent
    rw [events other different]
    exact track.unfinished other content finished absent (closed ▸ unclosedOther)
  uncorrected other content finished := by
    have inIds : other ∈ ids :=
      within other (List.mem_append_right _ ((mem_finishedMessages rest other).mpr ⟨content, finished⟩))
    rw [events (correctedId other) fun same => apart id other member inIds same.symm]
    exact track.uncorrected other content finished

/-- A message is finished. -/
theorem finishes (track : Track ids rest turn) (apart : Apart ids) (within : Within ids rest) {id : String}
    (member : id ∈ ids) (unstarted : SessionEvent.startMessage id ∉ rest)
    (unfinished : id ∉ finishedMessages rest) (finishes : Finishes id turn later) : Track ids rest later where
  known other present := by
    rw [finishes.previews, OrderedMap.get?_erase] at present
    split at present
    · exact absurd rfl present
    · exact track.known other present
  isOpen other text isOpen := by
    rw [finishes.previews, OrderedMap.get?_erase] at isOpen
    split at isOpen
    · cases isOpen
    · rename_i different
      have inIds : other ∈ ids := track.known other (isOpen ▸ Option.some_ne_none text)
      rw [shown, finishes.events other different (apart other id inIds member), finishes.closed, OrderedSet.has_add,
        decide_eq_false different, Bool.false_or]
      exact track.isOpen other text isOpen
  unstarted other started := by
    have different : other ≠ id := fun same => unstarted (same ▸ started)
    have inIds : other ∈ ids :=
      within other (List.mem_append_left _ ((mem_startedMessages rest other).mpr started))
    rw [finishes.events other different (apart other id inIds member), finishes.previews, OrderedMap.get?_erase,
      if_neg different, finishes.closed, OrderedSet.has_add, decide_eq_false different, Bool.false_or]
    exact track.unstarted other started
  unfinished other content finished absent unclosed := by
    have listed := (mem_finishedMessages rest other).mpr ⟨content, finished⟩
    have different : other ≠ id := fun same => unfinished (same ▸ listed)
    have inIds : other ∈ ids := within other (List.mem_append_right _ listed)
    rw [finishes.previews, OrderedMap.get?_erase, if_neg different] at absent
    rw [finishes.closed, OrderedSet.has_add, decide_eq_false different, Bool.false_or] at unclosed
    rw [finishes.events other different (apart other id inIds member)]
    exact track.unfinished other content finished absent unclosed
  uncorrected other content finished := by
    have listed := (mem_finishedMessages rest other).mpr ⟨content, finished⟩
    have different : other ≠ id := fun same => unfinished (same ▸ listed)
    have inIds : other ∈ ids := within other (List.mem_append_right _ listed)
    rw [finishes.events (correctedId other) (fun same => apart id other member inIds same.symm)
      fun same => different (correctedId_injective same)]
    exact track.uncorrected other content finished

end Track

theorem reconcile_finishes (turn : Turn) (id finalText : String) (apart : id ≠ correctedId id) :
    Finishes id turn (turn.reconcileMessage id finalText) := by
  cases shown : turn.previews.get? id with
  | none => exact (reconcile_unshown shown).1
  | some text =>
    by_cases begins : text.toList <+: finalText.toList
    · exact (reconcile_begun shown begins).1
    · exact (reconcile_diverged shown begins apart).1

theorem Regular.tail {event : SessionEvent} {rest : List SessionEvent} (regular : Regular (event :: rest)) :
    Regular rest := by
  have started : (startedMessages rest).Sublist (startedMessages (event :: rest)) :=
    (List.sublist_cons_self event rest).filterMap _
  have finished : (finishedMessages rest).Sublist (finishedMessages (event :: rest)) :=
    (List.sublist_cons_self event rest).filterMap _
  refine ⟨regular.starts.sublist started, regular.finals.sublist finished,
    (List.pairwise_cons.mp regular.ordered).2, ?_⟩
  intro id other first second
  exact regular.apart id other ((started.append finished).subset first) ((started.append finished).subset second)

section Step

variable {ids : List String} {rest : List SessionEvent} {event : SessionEvent} {turn : Turn} {options : TurnOptions}
  {replies : Replies}

theorem Within.tail (within : Within ids (event :: rest)) : Within ids rest := by
  have started : (startedMessages rest).Sublist (startedMessages (event :: rest)) :=
    (List.sublist_cons_self event rest).filterMap _
  have finished : (finishedMessages rest).Sublist (finishedMessages (event :: rest)) :=
    (List.sublist_cons_self event rest).filterMap _
  exact fun id member => within id ((started.append finished).subset member)

theorem Within.started {id : String} (within : Within ids (.startMessage id :: rest)) : id ∈ ids :=
  within id (List.mem_append_left _ List.mem_cons_self)

theorem Within.finished {id : String} {content : List TextBlock} (within : Within ids (.message id content :: rest)) :
    id ∈ ids :=
  within id (List.mem_append_right _ List.mem_cons_self)

theorem Regular.notStartedAgain {id : String} (regular : Regular (.startMessage id :: rest)) :
    SessionEvent.startMessage id ∉ rest := fun member =>
  (List.nodup_cons.mp regular.starts).1 ((mem_startedMessages rest id).mpr member)

theorem Regular.notStartedLater {id : String} {content : List TextBlock}
    (regular : Regular (.message id content :: rest)) :
    SessionEvent.startMessage id ∉ rest := fun member =>
  (List.pairwise_cons.mp regular.ordered).1 _ member id content rfl rfl

theorem Regular.notFinishedAgain {id : String} {content : List TextBlock}
    (regular : Regular (.message id content :: rest)) : id ∉ finishedMessages rest :=
  (List.nodup_cons.mp regular.finals).1

theorem heard_settles (turn : Turn) (event : SessionEvent) : Settles turn (turn.record [.heard event]) :=
  .record turn [.heard event] fun _ => rfl

/-- One event keeps the track. -/
theorem Track.handle (options : TurnOptions) (replies : Replies) (track : Track ids (event :: rest) turn)
    (regular : Regular (event :: rest)) (apart : Apart ids) (within : Within ids (event :: rest)) :
    Track ids rest (turn.handle .typescript options event replies).1 := by
  have heard := track.settles apart within (heard_settles turn event)
  cases event with
  | startMessage id =>
    have fresh := heard.unstarted id List.mem_cons_self
    refine heard.tail.update apart within.tail id "" within.started regular.notStartedAgain
      fresh.2.2 ?_ ?_ rfl rfl
    · change spoken (messageEvents ((turn.record [.heard (.startMessage id)]).emit [textStart id]).log id) = ""
      rw [messageEvents_emit, fresh.1, filter_textStart, if_pos rfl]
      exact String.append_empty
    · intro other different
      change messageEvents ((turn.record [.heard (.startMessage id)]).emit [textStart id]).log other = _
      rw [messageEvents_emit, filter_textStart, if_neg different, List.append_nil]
  | delta id delta =>
    rw [Turn.handle, Turn.react]
    dsimp only
    unfold Turn.eventDelta
    split
    · rename_i before text isOpen
      split
      · have present : (turn.record [.heard (.delta id (.text text))]).previews.get? id ≠ none :=
          isOpen ▸ Option.some_ne_none before
        refine heard.tail.update apart within.tail id (before ++ text) (heard.known id present) ?_
          (heard.isOpen id before isOpen).2 ?_ ?_ rfl rfl
        · exact fun started => present (heard.tail.unstarted id started).2.1
        · change spoken (messageEvents ((turn.record _).emit (textContent id text)).log id) = _
          rw [messageEvents_emit, filter_textContent, if_pos rfl, spoken_append, spoken_textContent]
          exact congrArg (· ++ text) (heard.isOpen id before isOpen).1
        · intro other different
          change messageEvents ((turn.record _).emit (textContent id text)).log other = _
          rw [messageEvents_emit, filter_textContent, if_neg different, List.append_nil]
      · exact heard.tail
    · exact heard.tail
  | message id content =>
    rw [Turn.handle, Turn.react]
    dsimp only
    split
    · exact heard.tail
    · exact heard.tail.finishes apart within.tail within.finished regular.notStartedLater regular.notFinishedAgain
        (reconcile_finishes _ id _ (apart id id within.finished within.finished))
  | _ => exact track.tail.settles apart within.tail (handle_settles turn options rfl replies)

/-- What is not open and is not started or finished by an event is left as it is. -/
theorem handle_frame (options : TurnOptions) (replies : Replies) {other : String}
    (absent : turn.previews.get? other = none) (unstarted : event ≠ .startMessage other)
    (unfinished : ∀ id content, event = .message id content ->
      other ≠ id ∧ other ≠ correctedId id ∧ id ≠ correctedId id) :
    messageEvents (turn.handle .typescript options event replies).1.log other = messageEvents turn.log other ∧
      (turn.handle .typescript options event replies).1.previews.get? other = none := by
  have heard := (heard_settles turn event).events other absent
  cases event with
  | startMessage id =>
    have different : other ≠ id := fun same => unstarted (same ▸ rfl)
    refine ⟨?_, ?_⟩
    · change messageEvents ((turn.record [.heard (.startMessage id)]).emit [textStart id]).log other = _
      rw [messageEvents_emit, filter_textStart, if_neg different, List.append_nil, heard]
    · change (turn.previews.set id "").get? other = none
      rw [OrderedMap.get?_set_of_ne _ _ different, absent]
  | delta id delta =>
    rw [Turn.handle, Turn.react]
    dsimp only
    unfold Turn.eventDelta
    split
    · rename_i before text isOpen
      have different : other ≠ id := by
        rintro rfl
        rw [show (turn.record _).previews = turn.previews from rfl, absent] at isOpen
        cases isOpen
      split
      · refine ⟨?_, ?_⟩
        · change messageEvents ((turn.record _).emit (textContent id text)).log other = _
          rw [messageEvents_emit, filter_textContent, if_neg different, List.append_nil, heard]
        · change (turn.previews.set id _).get? other = none
          rw [OrderedMap.get?_set_of_ne _ _ different, absent]
      · exact ⟨heard, absent⟩
    · exact ⟨heard, absent⟩
  | message id content =>
    rcases unfinished id content rfl with ⟨different, differs, apart⟩
    rw [Turn.handle, Turn.react]
    dsimp only
    split
    · exact ⟨heard, absent⟩
    · have finishes := reconcile_finishes (turn.record [.heard (.message id content)]) id (textOf content) apart
      refine ⟨(finishes.events other different differs).trans heard, ?_⟩
      rw [finishes.previews, OrderedMap.get?_erase, if_neg different]
      exact absent
  | _ => exact (handle_settles turn options rfl replies).frame absent

/-- Right after its final text a message is whole just when the text was timely. -/
theorem whole_handle_iff {id : String} {content : List TextBlock} (track : Track ids (.message id content :: rest) turn)
    (apart : Apart ids) (within : Within ids (.message id content :: rest)) :
    Whole (turn.handle .typescript options (.message id content) replies).1.log id (textOf content) ↔
      turn.Timely (.message id content) := by
  have heard := track.settles apart within (heard_settles turn (.message id content))
  have itself := apart id id within.finished within.finished
  have uncorrected := heard.uncorrected id content List.mem_cons_self
  change Whole (Turn.react _ _ _ _ _).1.log id (textOf content) ↔
    (_ -> ManagedAgents.shown turn.log id = textOf content) ∧ _
  rw [← (heard_settles turn (.message id content)).shown id]
  unfold Turn.react
  dsimp only
  by_cases closed : turn.closedMessages.has id = true
  · have absent : turn.previews.get? id = none := by
      by_contra present
      rcases Option.ne_none_iff_exists'.mp present with ⟨text, isOpen⟩
      exact (track.isOpen id text isOpen).2 closed
    rw [if_pos (show (turn.record _).closedMessages.has id = true from closed)]
    unfold Whole
    rw [uncorrected]
    constructor
    · rintro (said | ⟨_, corrected⟩)
      · refine ⟨fun _ => said, ?_⟩
        intro text isOpen
        rw [absent] at isOpen
        cases isOpen
      · cases corrected
    · rintro ⟨said, _⟩
      exact .inl (said closed)
  · rw [if_neg (show ¬ (turn.record _).closedMessages.has id = true from closed)]
    cases before : turn.previews.get? id with
    | none =>
      have absent : (turn.record [.heard (.message id content)]).previews.get? id = none := before
      have untold := heard.unfinished id content List.mem_cons_self absent closed
      refine iff_of_true (.inl ?_) ⟨fun impossible => absurd impossible closed, fun text isOpen => by cases isOpen⟩
      unfold shown
      rw [(reconcile_unshown absent).2, untold, List.nil_append, spoken_wholeMessage]
    | some text =>
      have isOpen : (turn.record [.heard (.message id content)]).previews.get? id = some text := before
      have said := (heard.isOpen id text isOpen).1
      by_cases begins : text.toList <+: (textOf content).toList
      · refine iff_of_true (.inl ?_) ⟨fun impossible => absurd impossible closed, ?_⟩
        · rw [(reconcile_begun isOpen begins).2, said]
          rcases begins with ⟨remainder, whole⟩
          rw [← whole, List.drop_left, ← String.toList_inj, String.toList_append, String.toList_ofList, whole]
        · intro other same empty
          cases same
          rw [empty] at begins
          exact String.toList_inj.mp (List.prefix_nil.mp begins)
      · have diverged := (reconcile_diverged isOpen begins itself).2
        unfold Whole
        rw [diverged.1, diverged.2, uncorrected, said, List.nil_append]
        constructor
        · rintro (same | ⟨_, corrected⟩)
          · exact absurd (same ▸ List.prefix_rfl) begins
          · refine ⟨fun impossible => absurd impossible closed, ?_⟩
            intro other _ empty
            rw [if_pos empty] at corrected
            cases corrected
        · rintro ⟨_, kept⟩
          refine .inr ⟨begins, if_neg ?_⟩
          intro empty
          have gone := kept text rfl empty
          subst gone
          exact begins List.nil_prefix

end Step

/-! ## Turns -/

namespace Turn

variable (port : Port) (options : TurnOptions)

/-- The events a turn takes before it ends. -/
def takes (turn : Turn) : List (SessionEvent × Replies) -> List SessionEvent
  | [] => []
  | (event, replies) :: rest =>
    event :: match turn.handle port options event replies with
      | (later, none) => later.takes rest
      | (_, some _) => []

/-- Every final text the turn takes is timely. -/
def MeetsTimely (turn : Turn) : List (SessionEvent × Replies) -> Prop
  | [] => True
  | (event, replies) :: rest =>
    turn.Timely event ∧ match turn.handle port options event replies with
      | (later, none) => later.MeetsTimely rest
      | (_, some _) => True

end Turn

section Run

variable {ids : List String} {options : TurnOptions} {turn : Turn} {events : List (SessionEvent × Replies)}

/-- What is not open stays as it is if nothing to come starts or finishes it. -/
theorem consume_frame (options : TurnOptions) (events : List (SessionEvent × Replies)) {other : String}
    (absent : turn.previews.get? other = none)
    (unstarted : SessionEvent.startMessage other ∉ events.map Prod.fst)
    (unfinished : ∀ id content, SessionEvent.message id content ∈ events.map Prod.fst ->
      other ≠ id ∧ other ≠ correctedId id ∧ id ≠ correctedId id) :
    messageEvents (turn.consume .typescript options events).1.log other = messageEvents turn.log other ∧
      (turn.consume .typescript options events).1.previews.get? other = none := by
  induction events generalizing turn with
  | nil => exact ⟨rfl, absent⟩
  | cons head rest ih =>
    rcases head with ⟨event, replies⟩
    have step := handle_frame options replies absent
      (fun same => unstarted (same ▸ List.mem_cons_self))
      fun id content same => unfinished id content (same ▸ List.mem_cons_self)
    rw [Turn.consume]
    generalize turn.handle .typescript options event replies = result at step
    rcases result with ⟨later, _ | exit⟩
    · have onwards := ih step.2 (fun member => unstarted (List.mem_cons_of_mem _ member))
        fun id content member => unfinished id content (List.mem_cons_of_mem _ member)
      exact ⟨onwards.1.trans step.1, onwards.2⟩
    · exact step

theorem whole_congr {first second : List Trace} {id : String} (same : messageEvents second id = messageEvents first id)
    (corrected : messageEvents second (correctedId id) = messageEvents first (correctedId id)) (finalText : String) :
    Whole second id finalText ↔ Whole first id finalText := by
  unfold Whole shown
  rw [same, corrected]

/-- A message that has been finished, and whose ids nothing to come uses, is left whole or not. -/
structure Over (turn : Turn) (id : String) : Prop where
  itself : turn.previews.get? id = none
  corrected : turn.previews.get? (correctedId id) = none

/-- A final text leaves its message closed. -/
theorem handle_over {rest : List SessionEvent} {id : String} {content : List TextBlock} {replies : Replies}
    (track : Track ids (.message id content :: rest) turn) (regular : Regular (.message id content :: rest))
    (apart : Apart ids) (within : Within ids (.message id content :: rest)) :
    Over (turn.handle .typescript options (.message id content) replies).1 id := by
  have after := track.handle options replies regular apart within
  refine ⟨?_, after.no_corrected apart within.finished⟩
  rw [Turn.handle, Turn.react]
  dsimp only
  split
  · rename_i closed
    by_contra present
    rcases Option.ne_none_iff_exists'.mp present with ⟨text, isOpen⟩
    exact (track.isOpen id text isOpen).2 closed
  · rw [(reconcile_finishes _ id _ (apart id id within.finished within.finished)).previews, OrderedMap.get?_erase,
      if_pos rfl]

theorem consume_over (options : TurnOptions) {rest : List SessionEvent} {id : String} {content : List TextBlock}
    (settled : Over turn id) (regular : Regular (.message id content :: rest)) (apart : Apart ids)
    (within : Within ids (.message id content :: rest)) (same : events.map Prod.fst = rest) :
    Over (turn.consume .typescript options events).1 id ∧ ∀ finalText,
      Whole (turn.consume .typescript options events).1.log id finalText ↔ Whole turn.log id finalText := by
  have finished : ∀ other content, SessionEvent.message other content ∈ events.map Prod.fst ->
      other ∈ ids ∧ id ≠ other := by
    intro other content member
    rw [same] at member
    have listed := (mem_finishedMessages rest other).mpr ⟨content, member⟩
    exact ⟨within.tail other (List.mem_append_right _ listed), fun equal => regular.notFinishedAgain (equal ▸ listed)⟩
  have itself := consume_frame options events settled.itself
    (same ▸ regular.notStartedLater) fun other content member =>
      ⟨(finished other content member).2, apart id other within.finished (finished other content member).1,
        apart other other (finished other content member).1 (finished other content member).1⟩
  have corrected := consume_frame options events settled.corrected
    (by
      rw [same]
      intro started
      have listed := within.tail _ (List.mem_append_left _ ((mem_startedMessages rest _).mpr started))
      exact apart _ id listed within.finished rfl)
    fun other content member =>
      ⟨fun equal => apart other id (finished other content member).1 within.finished equal.symm,
        fun equal => (finished other content member).2 (correctedId_injective equal),
        apart other other (finished other content member).1 (finished other content member).1⟩
  exact ⟨⟨itself.2, corrected.2⟩, whole_congr itself.1 corrected.1⟩

/-- Over a stream, all messages are whole just when all their final texts are timely. -/
theorem consume_whole (options : TurnOptions) (track : Track ids (events.map Prod.fst) turn)
    (regular : Regular (events.map Prod.fst))
    (apart : Apart ids) (within : Within ids (events.map Prod.fst)) :
    (∀ id content, SessionEvent.message id content ∈ turn.takes .typescript options events ->
      Over (turn.consume .typescript options events).1 id) ∧
    ((∀ id content, SessionEvent.message id content ∈ turn.takes .typescript options events ->
      Whole (turn.consume .typescript options events).1.log id (textOf content)) ↔
        turn.MeetsTimely .typescript options events) := by
  induction events generalizing turn with
  | nil => exact ⟨fun _ _ impossible => absurd impossible List.not_mem_nil,
      iff_of_true (fun _ _ impossible => absurd impossible List.not_mem_nil) trivial⟩
  | cons head rest ih =>
    rcases head with ⟨event, replies⟩
    have after := track.handle options replies regular apart within
    -- what the step does to the message it finishes
    have finished : ∀ id content, event = .message id content ->
        Over (turn.handle .typescript options event replies).1 id ∧
        (Whole (turn.handle .typescript options event replies).1.log id (textOf content) ↔ turn.Timely event) := by
      rintro id content rfl
      exact ⟨handle_over track regular apart within, whole_handle_iff track apart within⟩
    have vacuous : (∀ id content, event ≠ .message id content) -> turn.Timely event := by
      intro other
      cases event with
      | message id content => exact absurd rfl (other id content)
      | _ => trivial
    rw [Turn.takes, Turn.MeetsTimely, Turn.consume]
    generalize turn.handle .typescript options event replies = result at after finished
    rcases result with ⟨later, _ | exit⟩
    · have onwards := ih after regular.tail within.tail
      have settled : ∀ id content, event = .message id content ->
          Over (later.consume .typescript options rest).1 id ∧
          (Whole (later.consume .typescript options rest).1.log id (textOf content) ↔ turn.Timely event) := by
        rintro id content rfl
        have settled := consume_over options (finished id content rfl).1 regular apart within rfl
        exact ⟨settled.1, (settled.2 _).trans (finished id content rfl).2⟩
      refine ⟨?_, ?_⟩
      · intro id content member
        rcases List.mem_cons.mp member with same | member
        · exact (settled id content same.symm).1
        · exact onwards.1 id content member
      · constructor
        · intro whole
          refine ⟨?_, onwards.2.mp fun id content member => whole id content (List.mem_cons_of_mem _ member)⟩
          by_cases message : ∃ id content, event = .message id content
          · rcases message with ⟨id, content, same⟩
            exact (settled id content same).2.mp (whole id content (same ▸ List.mem_cons_self))
          · exact vacuous fun id content same => message ⟨id, content, same⟩
        · rintro ⟨timely, meets⟩ id content member
          rcases List.mem_cons.mp member with same | member
          · exact (settled id content same.symm).2.mpr timely
          · exact onwards.2.mpr meets id content member
    · refine ⟨?_, ?_⟩
      · intro id content member
        exact (finished id content (List.mem_singleton.mp member).symm).1
      · constructor
        · intro whole
          refine ⟨?_, trivial⟩
          by_cases message : ∃ id content, event = .message id content
          · rcases message with ⟨id, content, same⟩
            exact (finished id content same).2.mp (whole id content (same ▸ List.mem_cons_self))
          · exact vacuous fun id content same => message ⟨id, content, same⟩
        · rintro ⟨timely, _⟩ id content member
          exact (finished id content (List.mem_singleton.mp member).symm).2.mpr timely

end Run

theorem sendOutbound_closedMessages (script : TurnScript) (outbound : List UserEvent) :
    (sendOutbound script outbound).1.closedMessages = OrderedMap.empty := by
  have results : (sendResults script outbound).1.closedMessages = OrderedMap.empty := by
    unfold sendResults
    dsimp only
    split
    · rfl
    · split <;> rfl
  unfold sendOutbound
  split
  · rename_i turn sent
    rw [sent] at results
    exact results
  · rename_i turn sent
    rw [sent] at results
    dsimp only
    split
    · exact results
    · split <;> exact results

/-- A turn that has heard nothing has shown nothing. -/
theorem track_start {script : TurnScript} {outbound : List UserEvent} {start : Turn}
    (sent : sendOutbound script outbound = (start, true)) (ids : List String) (events : List SessionEvent) :
    Track ids events start := by
  have silent := sendOutbound_silent script outbound
  have unclosed := sendOutbound_closedMessages script outbound
  rw [sent] at silent unclosed
  have untold : ∀ id, messageEvents start.log id = [] := by
    intro id
    unfold messageEvents
    rw [silent.1]
    rfl
  have absent : ∀ id, start.previews.get? id = none := by
    intro id
    rw [silent.2.messages]
    rfl
  have fresh : ∀ id, start.closedMessages.has id ≠ true := by
    intro id
    rw [show start.closedMessages = OrderedMap.empty from unclosed]
    exact Bool.false_ne_true
  refine ⟨fun id present => absurd (absent id) present, ?_, fun id _ => ⟨untold id, absent id, fresh id⟩,
    fun id _ _ _ _ => untold id, fun id _ _ => untold (correctedId id)⟩
  intro id text isOpen
  rw [absent id] at isOpen
  cases isOpen

/-- What follows the stream only closes what is open. -/
theorem runTurn_settles (options : TurnOptions) {script : TurnScript} {outbound : List UserEvent} {start : Turn}
    (opens : script.opens = true) (sent : sendOutbound script outbound = (start, true)) :
    Settles (start.consume .typescript options script.events).1 (runTurn .typescript options script outbound).1 := by
  have stream : Settles (start.consume .typescript options script.events).1
      (consumeStream .typescript options script start).1 := by
    unfold consumeStream
    generalize start.consume .typescript options script.events = consumed
    rcases consumed with ⟨turn, _ | exit⟩
    · cases script.streamEnd with
      | threw => exact .refl turn
      | ended =>
        dsimp only
        split
        · exact .closeAll turn
        · exact (Settles.closeAll turn).trans (.fail _ _ _ false)
    · exact .refl turn
  unfold runTurn
  rw [if_pos opens, sent]
  exact stream.trans (.closeAll _)

/-- However a turn ends, the messages whose final texts it took are whole just
when no final text came for a message closed short of it, and none was empty
where something else had been shown. -/
theorem messages_whole_iff (options : TurnOptions) (script : TurnScript) (outbound : List UserEvent) (start : Turn)
    (opens : script.opens = true) (sent : sendOutbound script outbound = (start, true))
    (regular : Regular (script.events.map Prod.fst)) :
    (∀ id content, SessionEvent.message id content ∈ start.takes .typescript options script.events ->
      Whole (runTurn .typescript options script outbound).1.log id (textOf content)) ↔
      start.MeetsTimely .typescript options script.events := by
  have consumed := consume_whole options (track_start sent _ _) regular regular.apart fun _ member => member
  have settles := runTurn_settles options opens sent
  rw [← consumed.2]
  have whole : ∀ id content, SessionEvent.message id content ∈ start.takes .typescript options script.events ->
      (Whole (runTurn .typescript options script outbound).1.log id (textOf content) ↔
        Whole (start.consume .typescript options script.events).1.log id (textOf content)) := by
    intro id content member
    have settled := consumed.1 id content member
    exact whole_congr (settles.events id settled.itself) (settles.events _ settled.corrected) _
  constructor
  · exact fun all id content member => (whole id content member).mp (all id content member)
  · exact fun all id content member => (whole id content member).mpr (all id content member)

/-! ### Two model requests -/

/-- A turn without tools. -/
def plainOptions : TurnOptions where
  stringify := fun _ => ""

/-- A message is shown in part when a request ends; then its final text arrives. -/
def twoRequests (isError : Bool) : TurnScript where
  events := [(.startMessage "m", {}), (.delta "m" (.text "Hel"), {}), (.modelRequestEnd (some isError), {}),
    (.message "m" [⟨"text", some "Hello"⟩], {}), (.statusIdle .endTurn, {})]

theorem regular_twoRequests (isError : Bool) : Regular ((twoRequests isError).events.map Prod.fst) where
  starts := by
    change ["m"].Nodup
    decide
  finals := by
    change ["m"].Nodup
    decide
  ordered := by
    simp [twoRequests]
  apart := by
    intro id other first second
    change id ∈ ["m", "m"] at first
    change other ∈ ["m", "m"] at second
    have same : id = "m" := by simpa using first
    have sameOther : other = "m" := by simpa using second
    subst same sameOther
    decide

/-- A successful request leaves the message open, and its final text completes it. -/
theorem whole_after_success :
    Whole (runTurn .typescript plainOptions (twoRequests false) []).1.log "m" "Hello" := by
  refine (messages_whole_iff plainOptions (twoRequests false) [] {} rfl rfl (regular_twoRequests false)).mpr ?_ "m"
    [⟨"text", some "Hello"⟩] ?_
  · refine ⟨trivial, trivial, trivial, ⟨?_, ?_⟩, trivial, trivial⟩
    · intro closed
      revert closed
      decide +kernel
    · exact fun _ _ empty => absurd empty (by decide +kernel)
  · exact List.mem_cons_of_mem _ (List.mem_cons_of_mem _ (List.mem_cons_of_mem _ List.mem_cons_self))

/-- A failed request closes the message, and its final text is dropped. -/
theorem cut_after_failure :
    Regular ((twoRequests true).events.map Prod.fst) ∧
      (runTurn .typescript plainOptions (twoRequests true) []).2 = .returned .finished ∧
      ¬ Whole (runTurn .typescript plainOptions (twoRequests true) []).1.log "m" "Hello" := by
  have cut : shown (runTurn .typescript plainOptions (twoRequests true) []).1.log "m" = "Hel" := by
    decide +kernel
  refine ⟨regular_twoRequests true, by decide +kernel, ?_⟩
  rintro (said | ⟨diverged, _⟩)
  · rw [cut] at said
    revert said
    decide
  · rw [cut] at diverged
    exact diverged (by decide)

end ManagedAgents
end AgUi
