import AgUi.Apply.Effects

namespace AgUi
namespace Apply

open Library Protocol Verify

/-!
# Nothing streamed is lost

Over an accepted stream that replays no messages and keeps its ids apart, the
text of a streamed message is the concatenation of the deltas that named it,
and so are the arguments of a tool call.  The proof follows one id through
the stream: either nothing has started under it yet, or exactly one message
(one call) is found there and holds what was streamed so far.
-/

/-! ## What a stream sends to an id -/

/-- The delta an event streams into the message with an id. -/
def contentDelta (id : String) : Event -> Option String
  | .textMessageContent event => if event.messageId = id then some event.delta else none
  | .reasoningMessageContent event => if event.messageId = id then some event.delta else none
  | _ => none

/-- The delta an event streams into the arguments of a tool call. -/
def argumentsDelta (toolCallId : String) : Event -> Option String
  | .toolCallArgs event => if event.toolCallId = toolCallId then some event.delta else none
  | _ => none

/-- The concatenation of the deltas of a stream, in order. -/
def concatenated (delta : Event -> Option String) (events : List Event) : String :=
  String.join (events.filterMap delta)

theorem concatenated_snoc (delta : Event -> Option String) (past : List Event) (event : Event) :
    concatenated delta (past ++ [event]) = concatenated delta past ++ (delta event).getD "" := by
  unfold concatenated
  rw [List.filterMap_append]
  cases sent : delta event with
  | none => simp [sent]
  | some value => simp [sent, String.join, List.foldl_append]

theorem concatenated_snoc_of_none {delta : Event -> Option String} (past : List Event) {event : Event}
    (silent : delta event = none) : concatenated delta (past ++ [event]) = concatenated delta past := by
  rw [concatenated_snoc, silent]
  exact String.append_empty

/-! ## Ids kept apart -/

/-- What a message is used for: who adds to its content. -/
inductive MessageUse where
  | text
  | reasoning
  | activity
  | toolResult
deriving DecidableEq

/-- The kind of message an event is about, and its id. -/
def messageUse : Event -> Option (MessageUse × String)
  | .textMessageStart event => some (.text, event.messageId)
  | .textMessageContent event => some (.text, event.messageId)
  | .textMessageEnd event => some (.text, event.messageId)
  | .reasoningMessageStart event => some (.reasoning, event.messageId)
  | .reasoningMessageContent event => some (.reasoning, event.messageId)
  | .reasoningMessageEnd event => some (.reasoning, event.messageId)
  | .activitySnapshot event => some (.activity, event.messageId)
  | .activityDelta event => some (.activity, event.messageId)
  | .toolCallResult event => some (.toolResult, event.messageId)
  | _ => none

/-- The tool call an event starts. -/
def startedCall : Event -> Option String
  | .toolCallStart event => some event.toolCallId
  | _ => none

/-- No id is used for two kinds of message. -/
def DistinctUses (events : List Event) : Prop :=
  ∀ first ∈ events.filterMap messageUse, ∀ second ∈ events.filterMap messageUse,
    first.2 = second.2 -> first.1 = second.1

/-- No message has the id of a tool call. -/
def CallsApart (events : List Event) : Prop :=
  ∀ used ∈ events.filterMap messageUse, used.2 ∉ events.filterMap startedCall

/-- The event brings messages that no event of their own made. -/
def replaysMessages : Event -> Bool
  | .messagesSnapshot _ => true
  | .runStarted event => !(echoed event).isEmpty
  | _ => false

/-- No event brings messages of its own, as a snapshot does. -/
def NoReplays (events : List Event) : Prop :=
  ∀ event ∈ events, replaysMessages event = false

/-- No activity is written over a message that a tool call names as its parent. -/
def SparesParents (events : List Event) : Prop :=
  ∀ past snapshot future, events = past ++ Event.activitySnapshot snapshot :: future ->
    snapshot.replace ≠ some false ->
    ∀ start, .toolCallStart start ∈ past -> start.parentMessageId ≠ some snapshot.messageId

/-- An id that text or reasoning is streamed under. -/
def StreamsMessage (events : List Event) (id : String) : Prop :=
  ∃ event ∈ events,
    (messageUse event = some (.text, id) ∨ messageUse event = some (.reasoning, id))

def startsMessage (id : String) : Event -> Bool
  | .textMessageStart event => event.messageId = id
  | .reasoningMessageStart event => event.messageId = id
  | _ => false

/-- A call makes the message with an id: its start names the id as its parent
before anything is started there. -/
def MadeByCall (id : String) (events : List Event) : Prop :=
  ∃ earlier start later, events = earlier ++ Event.toolCallStart start :: later ∧
    start.parentMessageId = some id ∧ ∀ event ∈ earlier, startsMessage id event = false

/-- The content of a streamed message.  One that a call made has none until a delta comes. -/
def HoldsText (id : String) (events : List Event) (content : Option Content) : Prop :=
  content = some (.text (concatenated (contentDelta id) events)) ∨
    content = none ∧ concatenated (contentDelta id) events = "" ∧ MadeByCall id events

def startsCall (toolCallId : String) : Event -> Bool
  | .toolCallStart event => event.toolCallId = toolCallId
  | _ => false

/-- The streams the result is about. -/
structure KeepsApart (events : List Event) : Prop where
  accepted : accepted events = true
  uses : DistinctUses events
  calls : CallsApart events
  replays : NoReplays events
  parents : SparesParents events

/-! ## One id -/

/-- What is found under an id: nothing, if nothing was started there, or one
item that holds what the stream sent so far. -/
structure OneItem {A : Type} (delta : Event -> Option String) (starts : Event -> Bool)
    (Holds : List Event -> A -> Prop) (past : List Event) (found : List A) : Prop where
  single : found = [] ∨ ∃ item, found = [item] ∧ Holds past item
  started : (∃ event ∈ past, starts event = true) -> found ≠ []
  silent : found = [] -> concatenated delta past = ""

namespace OneItem

variable {A : Type} {delta : Event -> Option String} {starts : Event -> Bool}
  {Holds : List Event -> A -> Prop} {past : List Event} {found : List A} {event : Event}

theorem blank (delta : Event -> Option String) (starts : Event -> Bool) (Holds : List Event -> A -> Prop) :
    OneItem delta starts Holds [] [] where
  single := .inl rfl
  started := by
    rintro ⟨event, impossible, _⟩
    cases impossible
  silent := fun _ => rfl

/-- An event that neither sends to the id nor changes what is there. -/
theorem keep (one : OneItem delta starts Holds past found) (quiet : delta event = none)
    (notStart : starts event = false) (holds : ∀ item, Holds past item -> Holds (past ++ [event]) item) :
    OneItem delta starts Holds (past ++ [event]) found where
  single := by
    rcases one.single with empty | ⟨item, only, held⟩
    · exact .inl empty
    · exact .inr ⟨item, only, holds item held⟩
  started := by
    rintro ⟨start, member, begins⟩
    rcases List.mem_append.mp member with earlier | newest
    · exact one.started ⟨start, earlier, begins⟩
    · rw [List.mem_singleton.mp newest, notStart] at begins
      cases begins
  silent := fun empty => (concatenated_snoc_of_none past quiet).trans (one.silent empty)

/-- An event that leaves one item with what is due. -/
theorem become {item : A} (held : Holds (past ++ [event]) item) :
    OneItem delta starts Holds (past ++ [event]) [item] where
  single := .inr ⟨item, rfl, held⟩
  started := fun _ => List.cons_ne_nil item []
  silent := fun impossible => absurd impossible (List.cons_ne_nil item [])

/-- A change of the item that is there, if any. -/
theorem change (one : OneItem delta starts Holds past found) {edit : A -> A} (quiet : delta event = none)
    (notStart : starts event = false)
    (holds : ∀ item, Holds past item -> Holds (past ++ [event]) item)
    (edits : ∀ item, Holds (past ++ [event]) item -> Holds (past ++ [event]) (edit item)) :
    OneItem delta starts Holds (past ++ [event]) (found.modifyHead edit) := by
  rcases one.single with empty | ⟨item, rfl, held⟩
  · have kept := one.keep quiet notStart holds
    rw [empty] at kept ⊢
    exact kept
  · exact become (edits item (holds item held))

end OneItem

/-! ## One message id -/

/-- The message is no activity, and holds the text its deltas come to. -/
def HoldsContent (id : String) (past : List Event) (message : Message) : Prop :=
  message.role ≠ .activity ∧ HoldsText id past message.content

abbrev OneMessage (id : String) : List Event -> List Message -> Prop :=
  OneItem (contentDelta id) (startsMessage id) (HoldsContent id)

namespace OneMessage

variable {id : String} {past : List Event} {found : List Message} {event : Event}

theorem holds_snoc (quiet : contentDelta id event = none) (message : Message)
    (held : HoldsContent id past message) : HoldsContent id (past ++ [event]) message := by
  rcases held with ⟨streamed, filled | ⟨missing, silent, earlier, start, later, rfl, named, first⟩⟩
  · rw [HoldsContent, HoldsText, concatenated_snoc_of_none past quiet]
    exact ⟨streamed, .inl filled⟩
  · rw [HoldsContent, HoldsText, concatenated_snoc_of_none _ quiet]
    exact ⟨streamed, .inr ⟨missing, silent, earlier, start, later ++ [event], List.append_assoc _ _ _, named, first⟩⟩

section

variable (one : OneMessage id past found)

include one

theorem keep (quiet : contentDelta id event = none)
    (notStart : startsMessage id event = false) : OneMessage id (past ++ [event]) found :=
  OneItem.keep one quiet notStart (holds_snoc quiet)

/-- What is touched under the id of a streamed message is the message. -/
theorem touch_eq (change : Message -> Message) : touch change found = found.modifyHead change := by
  rcases one.single with rfl | ⟨message, rfl, streamed, _⟩
  · rfl
  · exact touch_eq_modifyHead streamed

/-- A change of other fields of the message. -/
theorem touched {change : Message -> Message} (role : ∀ message, (change message).role = message.role)
    (content : ∀ message, (change message).content = message.content)
    (quiet : contentDelta id event = none) (notStart : startsMessage id event = false) :
    OneMessage id (past ++ [event]) (touch change found) := by
  rw [touch_eq one]
  apply OneItem.change one quiet notStart (holds_snoc quiet)
  intro message held
  rw [HoldsContent, role, content]
  exact held

theorem begun {fresh : Message} (streamed : fresh.role ≠ .activity)
    (blank : fresh.content = some (.text "")) (quiet : contentDelta id event = none) (base : BaseEvent) :
    OneMessage id (past ++ [event]) (beginWith fresh base found) := by
  rcases one.single with empty | ⟨message, rfl, other, holds⟩
  · have nothing := one.silent empty
    rw [empty]
    apply OneItem.become
    rw [HoldsContent, HoldsText, concatenated_snoc_of_none past quiet, nothing]
    exact ⟨streamed, .inl blank⟩
  · rw [beginWith, touch_eq_modifyHead other]
    · exact OneItem.become (holds_snoc quiet _ ⟨other, holds⟩)
    · exact fun impossible => absurd impossible (List.cons_ne_nil _ _)

theorem appended (present : found ≠ []) {delta : String}
    (sent : contentDelta id event = some delta) (base : BaseEvent) : OneMessage id (past ++ [event])
      (touch (fun message => (message.append delta).applyEventMetadata base) found) := by
  rcases one.single with empty | ⟨message, rfl, streamed, holds⟩
  · exact absurd empty present
  · rw [touch_eq_modifyHead streamed]
    apply OneItem.become
    rw [HoldsContent, HoldsText, concatenated_snoc, sent]
    have whole : (message.append delta).content = some (.text (concatenated (contentDelta id) past ++ delta)) := by
      rcases holds with filled | ⟨missing, silent, _⟩
      · simp [Message.append, Message.text, filled]
      · simp [Message.append, Message.text, missing, silent]
    exact ⟨streamed, .inl whole⟩

end

end OneMessage

section

variable {events past future : List Event} {event : Event}

/-- Only text and reasoning happen under the id of a streamed message. -/
theorem use_of_streams {id : String} (uses : DistinctUses events) (streams : StreamsMessage events id)
    (member : event ∈ events) {use : MessageUse} (used : messageUse event = some (use, id)) :
    use = .text ∨ use = .reasoning := by
  have here := List.mem_filterMap.mpr ⟨event, member, used⟩
  rcases streams with ⟨other, present, text | reasoning⟩
  · exact .inl (uses _ here _ (List.mem_filterMap.mpr ⟨other, present, text⟩) rfl)
  · exact .inr (uses _ here _ (List.mem_filterMap.mpr ⟨other, present, reasoning⟩) rfl)

theorem ne_toolCallId_of_streams {id : String} (calls : CallsApart events)
    (streams : StreamsMessage events id) {start : ToolCallStartEvent}
    (member : .toolCallStart start ∈ events) : id ≠ start.toolCallId := by
  rintro rfl
  have started : start.toolCallId ∈ events.filterMap startedCall :=
    List.mem_filterMap.mpr ⟨_, member, rfl⟩
  rcases streams with ⟨other, present, text | reasoning⟩
  · exact calls _ (List.mem_filterMap.mpr ⟨other, present, text⟩) started
  · exact calls _ (List.mem_filterMap.mpr ⟨other, present, reasoning⟩) started

theorem echoed_of_noReplays (replays : NoReplays events) {start : RunStartedEvent}
    (member : .runStarted start ∈ events) : echoed start = [] := by
  have none := replays _ member
  simpa [replaysMessages] using none

/-- What an accepted continuation goes on with has been started. -/
theorem exists_start_of_continue {bracket : Bracket} {id : String} {tag : Option String}
    (allowed : ContinueAllowed (advance Record.blank past) bracket tag id) :
    ∃ start ∈ past, bracketStart start = some (bracket, id) :=
  exists_start_of_opened past allowed.1

theorem startsMessage_of_bracketStart {start : Event} {bracket : Bracket} {id : String}
    (starts : bracketStart start = some (bracket, id))
    (streamed : bracket = .textMessage ∨ bracket = .reasoningMessage) : startsMessage id start = true := by
  cases start with
  | textMessageStart start | reasoningMessageStart start =>
    cases starts
    exact decide_eq_true rfl
  | toolCallStart start | reasoningStart start =>
    cases starts
    rcases streamed with impossible | impossible <;> cases impossible
  | _ => cases starts

theorem startsCall_of_bracketStart {start : Event} {toolCallId : String}
    (starts : bracketStart start = some (.toolCall, toolCallId)) : startsCall toolCallId start = true := by
  cases start with
  | toolCallStart start =>
    cases starts
    exact decide_eq_true rfl
  | _ => cases starts

theorem oneMessage_toolCallStart {id : String} (state : ApplyState) (start : ToolCallStartEvent)
    (different : id ≠ start.toolCallId) (one : OneMessage id past (faces state.messages id)) :
    OneMessage id (past ++ [Event.toolCallStart start])
      (faces (toolCallStart state start).1.messages id) := by
  have kept : OneMessage id (past ++ [Event.toolCallStart start]) (faces state.messages id) :=
    OneMessage.keep one rfl rfl
  rw [faces_toolCallStart]
  split
  · cases resolved : resolveTarget (faces state.messages) start with
    | existing target =>
      rw [createdFaces, List.append_nil]
      exact kept
    | created created =>
      rw [createdFaces]
      split
      · rename_i same
        rcases created_cases resolved with itself | ⟨given, unused⟩
        · exact absurd (same.trans itself) different
        · rw [← same] at unused
          rw [unused, List.nil_append]
          apply OneItem.become
          have first : ∀ earlier ∈ past, startsMessage id earlier = false := by
            intro earlier member
            rw [← Bool.not_eq_true]
            exact fun begins => one.started ⟨earlier, member, begins⟩ unused
          rw [HoldsContent, HoldsText, concatenated_snoc_of_none past rfl, one.silent unused]
          exact ⟨Role.noConfusion, .inr ⟨rfl, rfl, past, start, [], rfl, same ▸ given, first⟩⟩
      · rw [List.append_nil]
        exact kept
  · rw [List.append_nil]
    exact kept

/-- One event, seen from the id of a streamed message. -/
theorem oneMessage_step (apart : KeepsApart events) (applyPatch : ApplyPatch) (state : ApplyState)
    {id : String} (streams : StreamsMessage events id) (split : events = past ++ event :: future)
    (one : OneMessage id past (faces state.messages id)) :
    OneMessage id (past ++ [event]) (faces (reduce applyPatch state event).1.messages id) := by
  have member : event ∈ events := split ▸ List.mem_append_right _ List.mem_cons_self
  have allowed : Allows (advance Record.blank past) event :=
    allows_of_accepted (split ▸ apart.accepted : accepted (past ++ event :: future) = true)
  have others : ∀ {named : String} {use : MessageUse}, messageUse event = some (use, named) ->
      use ≠ .text -> use ≠ .reasoning -> id ≠ named := by
    rintro named use used notText notReasoning rfl
    rcases use_of_streams apart.uses streams member used with text | reasoning
    · exact notText text
    · exact notReasoning reasoning
  have inPlace : ¬ Inserts event -> faces (reduce applyPatch state event).1.messages id =
      faceNext applyPatch event id (faces state.messages id) :=
    fun stays => faces_reduce applyPatch state stays id
  cases event with
  | toolCallStart start =>
    exact oneMessage_toolCallStart state start (ne_toolCallId_of_streams apart.calls streams member) one
  | toolCallResult event =>
    have different := others rfl (by decide) (by decide)
    exact (faces_toolCallResult_of_ne state event different).symm ▸ OneMessage.keep one rfl rfl
  | messagesSnapshot event => exact absurd (apart.replays _ member) Bool.true_eq_false.mp
  | runStarted event =>
    have unchanged := messages_runStarted state event
    rw [echoed_of_noReplays apart.replays member] at unchanged
    exact (congrArg (fun messages => faces messages id) unchanged) ▸ OneMessage.keep one rfl rfl
  | textMessageStart event =>
    rw [inPlace not_false, faceNext_of_edit rfl]
    by_cases same : id = event.messageId
    · rw [if_pos same]
      apply OneMessage.begun one _ rfl rfl
      cases role : event.role with
      | none => simp [newTextMessage, role, TextMessageRole.toRole]
      | some role' => cases role' <;> simp [newTextMessage, role, TextMessageRole.toRole]
    · rw [if_neg same]
      exact OneMessage.keep one rfl (decide_eq_false (Ne.symm same))
  | reasoningMessageStart event =>
    rw [inPlace not_false, faceNext_of_edit rfl]
    by_cases same : id = event.messageId
    · rw [if_pos same]
      exact OneMessage.begun one Role.noConfusion rfl rfl _
    · rw [if_neg same]
      exact OneMessage.keep one rfl (decide_eq_false (Ne.symm same))
  | textMessageContent event =>
    rw [inPlace not_false, faceNext_of_edit rfl]
    by_cases same : id = event.messageId
    · rw [if_pos same]
      rcases exists_start_of_continue allowed.case with ⟨start, earlier, starts⟩
      refine OneMessage.appended one (one.started ⟨start, earlier, ?_⟩) ?_ _
      · exact same ▸ startsMessage_of_bracketStart starts (.inl rfl)
      · exact if_pos same.symm
    · rw [if_neg same]
      exact OneMessage.keep one (if_neg (Ne.symm same)) rfl
  | reasoningMessageContent event =>
    rw [inPlace not_false, faceNext_of_edit rfl]
    by_cases same : id = event.messageId
    · rw [if_pos same]
      rcases exists_start_of_continue allowed.case with ⟨start, earlier, starts⟩
      refine OneMessage.appended one (one.started ⟨start, earlier, ?_⟩) ?_ _
      · exact same ▸ startsMessage_of_bracketStart starts (.inr rfl)
      · exact if_pos same.symm
    · rw [if_neg same]
      exact OneMessage.keep one (if_neg (Ne.symm same)) rfl
  | textMessageEnd event | reasoningMessageEnd event =>
    rw [inPlace not_false, faceNext_of_edit rfl]
    split
    · exact OneMessage.touched one (fun _ => rfl) (fun _ => rfl) rfl rfl
    · exact OneMessage.keep one rfl rfl
  | activitySnapshot event | activityDelta event =>
    rw [inPlace not_false, faceNext_of_edit rfl]
    rw [if_neg (others rfl (by decide) (by decide))]
    exact OneMessage.keep one rfl rfl
  | reasoningEncryptedValue event =>
    rw [inPlace not_false]
    cases subtype : event.subtype with
    | toolCall =>
      rw [faceNext_of_none (by simp only [faceEdit, subtype])]
      exact OneMessage.keep one rfl rfl
    | message =>
      rw [faceNext_of_edit (by simp only [faceEdit, subtype]; rfl)]
      split
      · exact OneMessage.touched one (fun _ => rfl) (fun _ => rfl) rfl rfl
      · exact OneMessage.keep one rfl rfl
  | _ =>
    rw [inPlace not_false]
    exact OneMessage.keep one rfl rfl

/-! ## One tool call id -/

/-- A placement under an id that some start named, holding the arguments sent so far. -/
def HoldsArguments (toolCallId : String) (past : List Event) (placement : Placement) : Prop :=
  (∃ start, .toolCallStart start ∈ past ∧
    (start.toolCallId = placement.1 ∨ start.parentMessageId = some placement.1)) ∧
  placement.2.function.arguments = concatenated (argumentsDelta toolCallId) past

abbrev OneCall (toolCallId : String) : List Event -> List Placement -> Prop :=
  OneItem (argumentsDelta toolCallId) (startsCall toolCallId) (HoldsArguments toolCallId)

namespace OneCall

variable {toolCallId : String} {found : List Placement}

theorem holds_snoc (quiet : argumentsDelta toolCallId event = none) (placement : Placement)
    (held : HoldsArguments toolCallId past placement) :
    HoldsArguments toolCallId (past ++ [event]) placement := by
  rcases held with ⟨⟨start, member, named⟩, sent⟩
  rw [HoldsArguments, concatenated_snoc_of_none past quiet]
  exact ⟨⟨start, List.mem_append_left _ member, named⟩, sent⟩

theorem keep (one : OneCall toolCallId past found) (quiet : argumentsDelta toolCallId event = none)
    (notStart : startsCall toolCallId event = false) : OneCall toolCallId (past ++ [event]) found :=
  OneItem.keep one quiet notStart (holds_snoc quiet)

/-- A change of other fields of the call. -/
theorem changed (one : OneCall toolCallId past found) {edit : Placement -> Placement}
    (owner : ∀ placement, (edit placement).1 = placement.1)
    (arguments : ∀ placement, (edit placement).2.function.arguments = placement.2.function.arguments)
    (quiet : argumentsDelta toolCallId event = none) (notStart : startsCall toolCallId event = false) :
    OneCall toolCallId (past ++ [event]) (found.modifyHead edit) := by
  apply OneItem.change one quiet notStart (holds_snoc quiet)
  intro placement held
  rw [HoldsArguments, owner, arguments]
  exact held

theorem of_unencrypted {after : List Placement} (one : OneCall toolCallId past found)
    (same : after.map unencrypted = found.map unencrypted)
    (quiet : argumentsDelta toolCallId event = none) (notStart : startsCall toolCallId event = false) :
    OneCall toolCallId (past ++ [event]) after := by
  rcases one.single with empty | ⟨placement, rfl, held⟩
  · rw [empty] at same
    have nothing := List.map_eq_nil_iff.mp same
    rw [nothing, ← empty]
    exact keep one quiet notStart
  · rcases List.map_eq_singleton_iff.mp same with ⟨other, only, equal⟩
    rw [only]
    apply OneItem.become
    have owner : (unencrypted other).1 = (unencrypted placement).1 := by rw [equal]
    have function : (unencrypted other).2.function = (unencrypted placement).2.function := by rw [equal]
    rcases holds_snoc quiet placement held with ⟨⟨start, member, named⟩, sent⟩
    exact ⟨⟨start, member, owner ▸ named⟩, (congrArg FunctionCall.arguments function).trans sent⟩

end OneCall

theorem oneCall_toolCallStart {toolCallId : String} (state : ApplyState) (start : ToolCallStartEvent)
    (one : OneCall toolCallId past (placements state.messages toolCallId)) :
    OneCall toolCallId (past ++ [Event.toolCallStart start])
      (placements (toolCallStart state start).1.messages toolCallId) := by
  have quiet : argumentsDelta toolCallId (.toolCallStart start) = none := rfl
  rw [placements_toolCallStart]
  split
  · rename_i same
    subst same
    rcases one.single with empty | ⟨placement, only, held⟩
    · have nothing := one.silent empty
      rw [empty]
      apply OneItem.become
      rw [HoldsArguments, concatenated_snoc_of_none past quiet, nothing]
      exact ⟨⟨start, List.mem_append_right _ List.mem_cons_self, target_named _ start⟩, rfl⟩
    · rw [only]
      apply OneItem.become
      exact OneCall.holds_snoc quiet placement held
  · rename_i different
    exact OneCall.keep one quiet (decide_eq_false (Ne.symm different))

/-- A message that an activity may be written over holds no call. -/
theorem holdings_eq_nil (apart : KeepsApart events) {snapshot : ActivitySnapshotEvent}
    (split : events = past ++ Event.activitySnapshot snapshot :: future)
    (replaces : snapshot.replace.getD true = true) {messages : List Message}
    (ones : ∀ toolCallId, OneCall toolCallId past (placements messages toolCallId)) {target : Message}
    (search : findMessage messages snapshot.messageId = some target) : holdings target = [] := by
  have notKept : snapshot.replace ≠ some false := by
    intro keeps
    rw [keeps] at replaces
    cases replaces
  have present : ∀ {event}, event ∈ past -> event ∈ events := fun earlier =>
    split ▸ List.mem_append_left _ earlier
  have itself : .activitySnapshot snapshot ∈ events :=
    split ▸ List.mem_append_right _ List.mem_cons_self
  have named : target.id = snapshot.messageId := by
    have matched := List.find?_some search
    exact of_decide_eq_true matched
  apply List.eq_nil_iff_forall_not_mem.mpr
  intro placement member
  have owner : placement.1 = target.id := by
    rcases List.mem_map.mp member with ⟨call, _, made⟩
    rw [← made]
  have placed : placement ∈ placements messages placement.2.id :=
    List.mem_filter.mpr ⟨List.mem_flatMap.mpr ⟨target, List.mem_of_find?_eq_some search, member⟩,
      decide_eq_true rfl⟩
  rcases (ones placement.2.id).single with empty | ⟨only, listed, ⟨start, earlier, parent⟩, _⟩
  · rw [empty] at placed
    cases placed
  · rw [listed] at placed
    rw [← List.mem_singleton.mp placed, owner, named] at parent
    rcases parent with call | given
    · apply apart.calls (.activity, snapshot.messageId) (List.mem_filterMap.mpr ⟨_, itself, rfl⟩)
      exact List.mem_filterMap.mpr ⟨_, present earlier, congrArg some call⟩
    · exact apart.parents past snapshot future split notKept start earlier given

/-- One event, seen from the id of a tool call. -/
theorem oneCall_step (apart : KeepsApart events) (applyPatch : ApplyPatch) (state : ApplyState)
    (split : events = past ++ event :: future)
    (ones : ∀ toolCallId, OneCall toolCallId past (placements state.messages toolCallId))
    (toolCallId : String) :
    OneCall toolCallId (past ++ [event])
      (placements (reduce applyPatch state event).1.messages toolCallId) := by
  have member : event ∈ events := split ▸ List.mem_append_right _ List.mem_cons_self
  have allowed : Allows (advance Record.blank past) event :=
    allows_of_accepted (split ▸ apart.accepted : accepted (past ++ event :: future) = true)
  have one := ones toolCallId
  have same : argumentsDelta toolCallId event = none -> startsCall toolCallId event = false ->
      placements (reduce applyPatch state event).1.messages toolCallId =
        placements state.messages toolCallId ->
      OneCall toolCallId (past ++ [event])
        (placements (reduce applyPatch state event).1.messages toolCallId) :=
    fun quiet notStart unchanged => unchanged.symm ▸ OneCall.keep one quiet notStart
  cases event with
  | toolCallStart start => exact oneCall_toolCallStart state start one
  | toolCallArgs event =>
    rw [reduce, placements_toolCallArgs]
    by_cases equal : toolCallId = event.toolCallId
    · rw [if_pos equal]
      have sent : argumentsDelta toolCallId (.toolCallArgs event) = some event.delta := if_pos equal.symm
      rcases exists_start_of_continue allowed.case with ⟨start, earlier, starts⟩
      have begun : startsCall toolCallId start = true := equal ▸ startsCall_of_bracketStart starts
      rcases one.single with empty | ⟨placement, only, ⟨start, known, named⟩, held⟩
      · exact absurd empty (one.started ⟨start, earlier, begun⟩)
      · rw [only]
        apply OneItem.become
        rw [HoldsArguments, concatenated_snoc, sent]
        exact ⟨⟨start, List.mem_append_left _ known, named⟩, congrArg (· ++ event.delta) held⟩
    · rw [if_neg equal]
      exact OneCall.keep one (if_neg (Ne.symm equal)) rfl
  | toolCallEnd event =>
    rw [reduce, placements_toolCallEnd]
    split
    · exact OneCall.changed one (fun _ => rfl) (fun _ => rfl) rfl rfl
    · exact OneCall.keep one rfl rfl
  | toolCallResult event => exact same rfl rfl (placements_toolCallResult state event toolCallId)
  | messagesSnapshot event => exact absurd (apart.replays _ member) Bool.true_eq_false.mp
  | runStarted event =>
    apply same rfl rfl
    rw [reduce, messages_runStarted, echoed_of_noReplays apart.replays member]
    rfl
  | textMessageStart event | reasoningMessageStart event =>
    exact same rfl rfl (placements_startMessage state toolCallId rfl event.toBaseEvent)
  | textMessageContent event | reasoningMessageContent event =>
    exact same rfl rfl (placements_appendMessage state toolCallId _ _ event.toBaseEvent)
  | textMessageEnd event | reasoningMessageEnd event =>
    exact same rfl rfl (placements_finishMessage state toolCallId _ event.toBaseEvent)
  | activitySnapshot snapshot =>
    apply same rfl rfl
    apply placements_activitySnapshot
    intro target search _ replaces
    exact holdings_eq_nil apart split replaces ones search
  | activityDelta event =>
    exact same rfl rfl (placements_activityDelta state toolCallId applyPatch event)
  | reasoningEncryptedValue event =>
    exact OneCall.of_unencrypted one (placements_reasoningEncryptedValue state toolCallId event) rfl rfl
  | stateDelta event =>
    apply same rfl rfl
    rw [reduce, stateDelta]
    split <;> rfl
  | _ => exact same rfl rfl rfl

/-! ## Streams -/

theorem replay_snoc (applyPatch : ApplyPatch) (state : ApplyState) (past : List Event) (event : Event) :
    replay applyPatch state (past ++ [event]) =
      (reduce applyPatch (replay applyPatch state past) event).1 := by
  rw [replay_append]
  rfl

/-- What holds of every id after every part of the stream. -/
theorem oneItem_along (apart : KeepsApart events) (applyPatch : ApplyPatch) {initial : ApplyState}
    (empty : initial.messages = []) (split : events = past ++ future) :
    (∀ id, StreamsMessage events id ->
      OneMessage id past (faces (replay applyPatch initial past).messages id)) ∧
    (∀ toolCallId,
      OneCall toolCallId past (placements (replay applyPatch initial past).messages toolCallId)) := by
  induction past using List.reverseRecOn generalizing future with
  | nil =>
    rw [replay, List.foldl_nil, empty]
    exact ⟨fun _ _ => OneItem.blank _ _ _, fun _ => OneItem.blank _ _ _⟩
  | append_singleton past event ih =>
    rw [List.append_assoc, List.singleton_append] at split
    rcases ih split with ⟨messages, calls⟩
    rw [replay_snoc]
    exact ⟨fun id streams => oneMessage_step apart applyPatch _ streams split (messages id streams),
      oneCall_step apart applyPatch _ split calls⟩

/-- In an accepted stream whatever is streamed to was started. -/
theorem exists_startsMessage (valid : accepted events = true) {id : String}
    (streams : StreamsMessage events id) :
    ∃ start ∈ events, startsMessage id start = true := by
  rcases streams with ⟨event, member, used⟩
  rcases List.append_of_mem member with ⟨past, future, rfl⟩
  have allowed := allows_of_accepted valid
  have earlier : ∀ {bracket tag}, bracket = .textMessage ∨ bracket = .reasoningMessage ->
      ContinueAllowed (advance Record.blank past) bracket tag id ->
      ∃ start ∈ past ++ event :: future, startsMessage id start = true := by
    intro bracket tag streamed continues
    rcases exists_start_of_continue continues with ⟨start, known, starts⟩
    exact ⟨start, List.mem_append_left _ known, startsMessage_of_bracketStart starts streamed⟩
  cases event with
  | textMessageStart event | reasoningMessageStart event =>
    refine ⟨_, member, ?_⟩
    rcases used with text | reasoning
    · cases text <;> exact decide_eq_true rfl
    · cases reasoning <;> exact decide_eq_true rfl
  | textMessageContent event | textMessageEnd event =>
    rcases used with text | reasoning
    · cases text
      exact earlier (.inl rfl) allowed.case
    · cases reasoning
  | reasoningMessageContent event | reasoningMessageEnd event =>
    rcases used with text | reasoning
    · cases text
    · cases reasoning
      exact earlier (.inr rfl) allowed.case
  | _ => rcases used with text | reasoning <;> first | cases text | cases reasoning

/-- A tool call id that arguments are streamed under. -/
def StreamsCall (events : List Event) (toolCallId : String) : Prop :=
  ∃ event ∈ events,
    ((argumentsDelta toolCallId event).isSome ∨ startsCall toolCallId event = true)

theorem exists_startsCall (valid : accepted events = true) {toolCallId : String}
    (streams : StreamsCall events toolCallId) :
    ∃ start ∈ events, startsCall toolCallId start = true := by
  rcases streams with ⟨event, member, sent | starts⟩
  · rcases List.append_of_mem member with ⟨past, future, rfl⟩
    have allowed := allows_of_accepted valid
    cases event with
    | toolCallArgs event =>
      have named : event.toolCallId = toolCallId := by
        by_contra different
        simp [argumentsDelta, different] at sent
      rcases exists_start_of_continue allowed.case with ⟨start, known, starts⟩
      exact ⟨start, List.mem_append_left _ known, named ▸ startsCall_of_bracketStart starts⟩
    | _ => cases sent
  · exact ⟨event, member, starts⟩

theorem filter_of_faces {messages : List Message} {id : String} {face : Message}
    (only : faces messages id = [face]) :
    ∃ message, (messages.filter fun message => message.id = id) = [message] ∧ bare message = face := by
  rw [faces, List.filter_map] at only
  exact List.map_eq_singleton_iff.mp only

/-- Every streamed message and every tool call is in the final list exactly
once, with the concatenation of the deltas that named it. -/
theorem replay_concatenates (applyPatch : ApplyPatch) (apart : KeepsApart events) {initial final : ApplyState}
    (empty : initial.messages = []) {mutations : List AgentStateMutation}
    (runs : Stage.Runs (defaultApplyEvents applyPatch) initial events mutations final) :
    (∀ id, StreamsMessage events id -> ∃ message,
      (final.messages.filter fun message => message.id = id) = [message] ∧
      HoldsText id events message.content) ∧
    (∀ toolCallId, StreamsCall events toolCallId -> ∃ placement,
      placements final.messages toolCallId = [placement] ∧
      placement.2.function.arguments = concatenated (argumentsDelta toolCallId) events) := by
  rcases (exists_runs_iff applyPatch initial final events).mp ⟨mutations, runs⟩ with ⟨_, rfl⟩
  rcases oneItem_along apart applyPatch empty (List.append_nil events).symm with ⟨messages, calls⟩
  constructor
  · intro id streams
    have one := messages id streams
    rcases one.single with nothing | ⟨face, only, _, holds⟩
    · exact absurd nothing (one.started (exists_startsMessage apart.accepted streams))
    · rcases filter_of_faces only with ⟨message, listed, rfl⟩
      exact ⟨message, listed, holds⟩
  · intro toolCallId streams
    have one := calls toolCallId
    rcases one.single with nothing | ⟨placement, only, _, holds⟩
    · exact absurd nothing (one.started (exists_startsCall apart.accepted streams))
    · exact ⟨placement, only, holds⟩

end

/-- Two runs; text goes on in the second under the id of the first, while a
call and a reasoning message are streamed in between. -/
def resumedStream : List Event :=
  [.runStarted { threadId := "t", runId := "r1" },
   .activitySnapshot { messageId := "a", activityType := "plan", content := .object [] },
   .textMessageStart { messageId := "m" },
   .toolCallStart { toolCallId := "c", toolCallName := "search", parentMessageId := some "m" },
   .textMessageContent { messageId := "m", delta := "one" },
   .toolCallArgs { toolCallId := "c", delta := "x" },
   .reasoningMessageStart { messageId := "q" },
   .reasoningMessageContent { messageId := "q", delta := "why" },
   .toolCallArgs { toolCallId := "c", delta := "y" },
   .runError { message := "stopped" },
   .runStarted { threadId := "t", runId := "r2" },
   .textMessageStart { messageId := "m" },
   .textMessageContent { messageId := "m", delta := " two" },
   .textMessageEnd { messageId := "m" },
   .runFinished { threadId := "t", runId := "r2" }]

theorem replay_concatenates_resumed :
    (∀ id, StreamsMessage resumedStream id -> ∃ message,
      ((replay (fun _ _ => none) {} resumedStream).messages.filter fun message => message.id = id) = [message] ∧
      HoldsText id resumedStream message.content) ∧
    (∀ toolCallId, StreamsCall resumedStream toolCallId -> ∃ placement,
      placements (replay (fun _ _ => none) {} resumedStream).messages toolCallId = [placement] ∧
      placement.2.function.arguments = concatenated (argumentsDelta toolCallId) resumedStream) := by
  have spares : SparesParents resumedStream := by
    intro past snapshot future split _ start earlier
    have itself : .activitySnapshot snapshot ∈ resumedStream :=
      split ▸ List.mem_append_right _ List.mem_cons_self
    have present : .toolCallStart start ∈ resumedStream := split ▸ List.mem_append_left _ earlier
    simp only [resumedStream, List.mem_cons, reduceCtorEq, List.not_mem_nil, Event.activitySnapshot.injEq,
      Event.toolCallStart.injEq, or_false, false_or] at itself present
    subst itself present
    decide
  have apart : KeepsApart resumedStream :=
    { accepted := by decide
      uses := by unfold DistinctUses; decide
      calls := by unfold CallsApart; decide
      replays := by unfold NoReplays; decide
      parents := spares }
  rcases (exists_runs_iff (fun _ _ => none) {} _ resumedStream).mpr ⟨by decide, rfl⟩ with ⟨mutations, runs⟩
  exact replay_concatenates (fun _ _ => none) apart rfl runs

/-- An activity written over the message that holds a call, and a text message
without text that such a message was made for. -/
def overwrittenParent : List Event :=
  [.runStarted { threadId := "t", runId := "r" },
   .toolCallStart { toolCallId := "c", toolCallName := "search", parentMessageId := some "m" },
   .toolCallArgs { toolCallId := "c", delta := "x" },
   .toolCallEnd { toolCallId := "c" },
   .activitySnapshot { messageId := "m", activityType := "plan", content := .object [] },
   .runFinished { threadId := "t", runId := "r" }]

def silentParent : List Event :=
  [.runStarted { threadId := "t", runId := "r" },
   .toolCallStart { toolCallId := "c", toolCallName := "search", parentMessageId := some "m" },
   .toolCallEnd { toolCallId := "c" },
   .textMessageStart { messageId := "m" },
   .textMessageEnd { messageId := "m" },
   .runFinished { threadId := "t", runId := "r" }]

/-- An activity takes the place of the parent, and a parent that was made for a call has no content. -/
theorem replay_loses_arguments :
    (Verify.accepted overwrittenParent = true ∧ DistinctUses overwrittenParent ∧
      CallsApart overwrittenParent ∧ NoReplays overwrittenParent ∧
      concatenated (argumentsDelta "c") overwrittenParent = "x" ∧
      placements (replay (fun _ _ => none) {} overwrittenParent).messages "c" = []) ∧
    (Verify.accepted silentParent = true ∧ DistinctUses silentParent ∧
      CallsApart silentParent ∧ NoReplays silentParent ∧
      concatenated (contentDelta "m") silentParent = "" ∧
      (findMessage (replay (fun _ _ => none) {} silentParent).messages "m").map Message.content = some none) := by
  unfold DistinctUses CallsApart NoReplays
  refine ⟨⟨by decide, by decide, by decide, by decide, by decide, rfl⟩,
    ⟨by decide, by decide, by decide, by decide, by decide, rfl⟩⟩

end Apply
end AgUi
