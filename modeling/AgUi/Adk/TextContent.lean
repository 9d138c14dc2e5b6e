import AgUi.Library.Since
import AgUi.Protocol.Event

namespace AgUi
namespace Adk

open Library Protocol

/-!
# The text of model turns

A turn's text arrives in partial events and again, whole, in the event that
closes the turn; or in the closing event alone.  The translator shows partial
texts as they come.  Whether the text of a closing event has been shown it
tells from what it keeps: the message that is being streamed, and the text it
has last streamed in this run.
-/

/-! ## Events of the runner -/

/-- A text part of an ADK event, spoken or thought. -/
structure TextPart where
  text : String
  thought : Bool := false
  /-- The signature of a thought, in base 64. -/
  thoughtSignature : Option String := none

/-- An event, as far as its text goes. -/
structure ModelEvent where
  author : String := ""
  parts : List TextPart := []
  isPartial : Bool := false
  turnComplete : Bool := false
  isFinalResponse : Bool := false
  finishReason : Bool := false
  /-- A function call of the event is started in the client. -/
  startsCalls : Bool := false

namespace ModelEvent

/-- The parts that hold a text. -/
def spokenParts (event : ModelEvent) : List TextPart :=
  event.parts.filter fun part => part.text ≠ ""

def textParts (event : ModelEvent) : List String :=
  (event.spokenParts.filter fun part => !part.thought).map TextPart.text

def thoughtParts (event : ModelEvent) : List TextPart :=
  event.spokenParts.filter TextPart.thought

def combinedText (event : ModelEvent) : String :=
  String.join event.textParts

end ModelEvent

/-! ## The translator -/

structure TranslatorSettings where
  outputSchemaAgentNames : List String := []
  runId : String
  /-- The ids it makes, in order. -/
  newId : Nat -> String

/-- What the translator keeps of texts and thoughts.  That a message is being
streamed and its id are set and cleared together. -/
structure TextTranslator where
  streamingMessageId : Option String := none
  currentStreamText : String := ""
  lastStreamedText : Option String := none
  lastStreamedRunId : Option String := none
  isReasoning : Bool := false
  isStreamingReasoning : Bool := false
  currentReasoningText : String := ""
  currentReasoningMessageId : Option String := none
  made : Nat := 0

/-- The translator after a step and what the step emits. -/
abbrev Translated := TextTranslator × List Event

/-- What is done next, after what has been emitted. -/
def Translated.andThen (first : Translated) (next : TextTranslator -> Translated) : Translated :=
  ((next first.1).1, first.2 ++ (next first.1).2)

theorem Translated.andThen_assoc (first : Translated) (next later : TextTranslator -> Translated) :
    (first.andThen next).andThen later = first.andThen fun current => (next current).andThen later := by
  unfold Translated.andThen
  rw [List.append_assoc]

namespace TextTranslator

variable (settings : TranslatorSettings)

/-- A text message is open. -/
def isStreaming (translator : TextTranslator) : Bool :=
  translator.streamingMessageId.isSome

/-! ### Thoughts -/

/-- A block of thoughts begins, unless one is open. -/
def openReasoning (translator : TextTranslator) : Translated :=
  if translator.isReasoning then (translator, [])
  else
    let id := settings.newId translator.made
    ({ translator with isReasoning := true, currentReasoningMessageId := some id, made := translator.made + 1 },
      [.reasoningStart { messageId := id }])

/-- The message within the block begins, unless it is open. -/
def openReasoningMessage (translator : TextTranslator) : Translated :=
  if translator.isStreamingReasoning then (translator, [])
  else
    match translator.currentReasoningMessageId with
    | some id =>
      ({ translator with isStreamingReasoning := true, currentReasoningText := "" },
        [.reasoningMessageStart { messageId := id }])
    | none =>
      let id := settings.newId translator.made
      ({ translator with
          isStreamingReasoning := true
          currentReasoningText := ""
          currentReasoningMessageId := some id
          made := translator.made + 1 },
        [.reasoningMessageStart { messageId := id }])

/-- The signatures of the thoughts, as encrypted values of the reasoning message. -/
def encryptedValues (messageId : Option String) (thoughts : List TextPart) : List Event :=
  match messageId with
  | none => []
  | some id =>
    (thoughts.filterMap TextPart.thoughtSignature).map fun signature =>
      .reasoningEncryptedValue { subtype := .message, entityId := id, encryptedValue := signature }

def reasoningContent (thoughts : List TextPart) (translator : TextTranslator) : Translated :=
  let combined := String.join (thoughts.map TextPart.text)
  ({ translator with currentReasoningText := translator.currentReasoningText ++ combined },
    .reasoningMessageContent { messageId := translator.currentReasoningMessageId.getD "", delta := combined } ::
      encryptedValues translator.currentReasoningMessageId thoughts)

/-- Thoughts that come to a text open what they need and are one delta. -/
def translateReasoningContent (thoughts : List TextPart) (translator : TextTranslator) : Translated :=
  if String.join (thoughts.map TextPart.text) = "" then (translator, [])
  else
    ((translator.openReasoning settings).andThen (openReasoningMessage settings)).andThen (reasoningContent thoughts)

def closeReasoningMessage (translator : TextTranslator) : Translated :=
  if translator.isStreamingReasoning then
    ({ translator with isStreamingReasoning := false, currentReasoningText := "" },
      [.reasoningMessageEnd { messageId := translator.currentReasoningMessageId.getD "" }])
  else (translator, [])

def closeReasoningBlock (translator : TextTranslator) : Translated :=
  if translator.isReasoning then
    ({ translator with isReasoning := false, currentReasoningMessageId := none },
      [.reasoningEnd { messageId := translator.currentReasoningMessageId.getD "" }])
  else (translator, [])

/-- The message is closed before the block around it. -/
def closeReasoningStream (translator : TextTranslator) : Translated :=
  translator.closeReasoningMessage.andThen closeReasoningBlock

/-! ### Text -/

/-- A text message with a new id. -/
def startStream (translator : TextTranslator) : Translated :=
  let id := settings.newId translator.made
  ({ translator with streamingMessageId := some id, currentStreamText := "", made := translator.made + 1 },
    [.textMessageStart { messageId := id, role := some .assistant }])

def streamContent (text : String) (translator : TextTranslator) : Translated :=
  ({ translator with currentStreamText := translator.currentStreamText ++ text },
    [.textMessageContent { messageId := translator.streamingMessageId.getD "", delta := text }])

/-- Keep the text of the stream that ends, if it has any. -/
def saveStreamed (translator : TextTranslator) : TextTranslator :=
  if translator.currentStreamText = "" then translator
  else
    { translator with
      lastStreamedText := some translator.currentStreamText
      lastStreamedRunId := some settings.runId }

/-- The message is closed; what was streamed is kept to tell a repetition of it. -/
def endStream (translator : TextTranslator) : Translated :=
  ({ translator.saveStreamed settings with streamingMessageId := none, currentStreamText := "" },
    [.textMessageEnd { messageId := translator.streamingMessageId.getD "" }])

/-- The text is, or ends, what has last been streamed in this run. -/
def isDuplicate (translator : TextTranslator) (text : String) : Bool :=
  match translator.lastStreamedText with
  | none => false
  | some streamed =>
    translator.lastStreamedRunId = some settings.runId && (text = streamed || text.toList.isSuffixOf streamed.toList)

/-- Nothing is taken for a repetition after this. -/
def forgetStreamed (translator : TextTranslator) : TextTranslator :=
  { translator with currentStreamText := "", lastStreamedText := none, lastStreamedRunId := none }

/-- The normal emission path. -/
def emitText (event : ModelEvent) (translator : TextTranslator) : Translated :=
  let shouldSendEnd :=
    (event.turnComplete && !event.isPartial) || (event.isFinalResponse && !event.isPartial) ||
      (event.finishReason && translator.isStreaming)
  let opened : Translated :=
    if translator.isStreaming then (translator, [])
    else translator.closeReasoningStream.andThen (startStream settings)
  let shown : Translated := opened.andThen fun current =>
    -- the whole text, after its parts
    if translator.isStreaming && !event.isPartial then (current, []) else current.streamContent event.combinedText
  shown.andThen fun current => if shouldSendEnd then current.endStream settings else (current, [])

/-- What a final response asks for, once the thoughts are closed. -/
def finalResponse (event : ModelEvent) (translator : TextTranslator) : Translated :=
  if translator.isStreaming then translator.endStream settings
  else if translator.isDuplicate settings event.combinedText then (translator.forgetStreamed, [])
  else if event.combinedText = "" then (translator.forgetStreamed, [])
  else translator.emitText settings event

/-- The text of agents with an output schema is left out, and the final response is handled on its own. -/
def translateSpokenText (event : ModelEvent) (translator : TextTranslator) : Translated :=
  if event.author ≠ "" ∧ event.author ∈ settings.outputSchemaAgentNames then (translator, [])
  else if event.textParts = [] ∧ event.isFinalResponse = false then (translator, [])
  else if event.isFinalResponse then translator.closeReasoningStream.andThen (finalResponse settings event)
  else if event.combinedText = "" then (translator, [])
  else translator.emitText settings event

/-- The thoughts of an event before its text; a whole event repeats the thoughts that were streamed. -/
def translateTextContent (event : ModelEvent) (translator : TextTranslator) : Translated :=
  let thoughts : Translated :=
    if event.thoughtParts ≠ [] ∧ Not (translator.isStreamingReasoning = true ∧ event.isPartial = false) then
      translator.translateReasoningContent settings event.thoughtParts
    else (translator, [])
  thoughts.andThen (translateSpokenText settings event)

/-- At the end of a run no text message stays open. -/
def forceCloseStreamingMessage (translator : TextTranslator) : Translated :=
  match translator.streamingMessageId with
  | none => (translator, [])
  | some id =>
    ({ translator with streamingMessageId := none, currentStreamText := "" }, [.textMessageEnd { messageId := id }])

/-- `translate`, less the events of calls, responses and state, none of which is of a text message. -/
def translate (event : ModelEvent) (translator : TextTranslator) : Translated :=
  if event.author = "user" then (translator, [])
  else
    Translated.andThen
      (if event.parts.isEmpty then (translator, []) else translator.translateTextContent settings event)
      fun current => if event.startsCalls then current.forceCloseStreamingMessage else (current, [])

def translateAll (translator : TextTranslator) : List ModelEvent -> Translated
  | [] => (translator, [])
  | event :: rest => (translator.translate settings event).andThen fun current => current.translateAll rest

end TextTranslator

/-! ## Turns -/

/-- A turn of the model, and the calls and responses that follow it. -/
structure ModelTurn where
  /-- The partial events. -/
  previews : List ModelEvent := []
  closing : ModelEvent
  calls : List ModelEvent := []

namespace ModelTurn

def text (turn : ModelTurn) : String :=
  turn.closing.combinedText

def events (turn : ModelTurn) : List ModelEvent :=
  turn.previews ++ turn.closing :: turn.calls

/-- The event is an agent's whose text is shown. -/
def Shows (settings : TranslatorSettings) (event : ModelEvent) : Prop :=
  event.author ≠ "user" ∧ event.author ∉ settings.outputSchemaAgentNames

/-- A turn as a streaming model gives it: previews that add up to the text of the closing event. -/
structure Regular (settings : TranslatorSettings) (turn : ModelTurn) : Prop where
  previews : ∀ event ∈ turn.previews,
    Shows settings event ∧ event.isPartial = true ∧ event.isFinalResponse = false
  closing : Shows settings turn.closing ∧ turn.closing.isPartial = false
  whole : turn.previews ≠ [] -> String.join (turn.previews.map ModelEvent.combinedText) = turn.text
  calls : ∀ event ∈ turn.calls, event.combinedText = ""

end ModelTurn

def delta? : Event -> Option String
  | .textMessageContent e => some e.delta
  | _ => none

/-- The text that is shown. -/
def shownText (events : List Event) : String :=
  String.join (events.filterMap delta?)

/-- The text of a whole event is taken as shown before. -/
def TextTranslator.TakesAsShown (settings : TranslatorSettings) (translator : TextTranslator) (event : ModelEvent) :
    Prop :=
  translator.isStreaming = true ∨
    (event.isFinalResponse = true ∧ translator.isDuplicate settings event.combinedText = true)

instance (settings : TranslatorSettings) (translator : TextTranslator) (event : ModelEvent) :
    Decidable (translator.TakesAsShown settings event) :=
  inferInstanceAs (Decidable (_ ∨ _))

/-- The translator when the events of some turns have been translated. -/
def TextTranslator.after (settings : TranslatorSettings) (translator : TextTranslator) (turns : List ModelTurn) :
    TextTranslator :=
  (translator.translateAll settings (turns.flatMap ModelTurn.events)).1

/-! ## What is shown -/
theorem shownText_append (first second : List Event) :
    shownText (first ++ second) = shownText first ++ shownText second := by
  rw [shownText, List.filterMap_append, String.join_append]
  rfl

theorem shownText_andThen (first : Translated) (next : TextTranslator -> Translated) :
    shownText (first.andThen next).2 = shownText first.2 ++ shownText (next first.1).2 :=
  shownText_append _ _

/-- Nothing of a text is shown, and nothing of what is kept of texts changes. -/
structure Silent (translator : TextTranslator) (translated : Translated) : Prop where
  shown : shownText translated.2 = ""
  streaming : translated.1.streamingMessageId = translator.streamingMessageId
  text : translated.1.lastStreamedText = translator.lastStreamedText
  run : translated.1.lastStreamedRunId = translator.lastStreamedRunId

namespace Silent

variable {translator : TextTranslator} {settings : TranslatorSettings}

theorem refl (translator : TextTranslator) : Silent translator (translator, []) :=
  ⟨rfl, rfl, rfl, rfl⟩

theorem andThen {first : Translated} {next : TextTranslator -> Translated} (silent : Silent translator first)
    (later : ∀ current, Silent current (next current)) : Silent translator (first.andThen next) where
  shown := by
    rw [shownText_andThen, silent.shown, (later first.1).shown]
    rfl
  streaming := (later first.1).streaming.trans silent.streaming
  text := (later first.1).text.trans silent.text
  run := (later first.1).run.trans silent.run

theorem isStreaming_eq {translated : Translated} (silent : Silent translator translated) :
    translated.1.isStreaming = translator.isStreaming :=
  congrArg Option.isSome silent.streaming

theorem isDuplicate_eq {translated : Translated} (silent : Silent translator translated) (text : String) :
    translated.1.isDuplicate settings text = translator.isDuplicate settings text := by
  rw [TextTranslator.isDuplicate, TextTranslator.isDuplicate, silent.text, silent.run]

theorem encryptedValues (messageId : Option String) (thoughts : List TextPart) :
    (TextTranslator.encryptedValues messageId thoughts).filterMap delta? = [] := by
  cases messageId with
  | none => rfl
  | some id =>
    apply List.filterMap_eq_nil_iff.mpr
    intro event member
    rcases List.mem_map.mp member with ⟨signature, _, rfl⟩
    rfl

theorem closeReasoningStream (translator : TextTranslator) : Silent translator translator.closeReasoningStream := by
  have message : ∀ current : TextTranslator, Silent current current.closeReasoningMessage := by
    intro current
    unfold TextTranslator.closeReasoningMessage
    split
    · exact ⟨rfl, rfl, rfl, rfl⟩
    · exact refl current
  refine (message translator).andThen ?_
  intro current
  unfold TextTranslator.closeReasoningBlock
  split
  · exact ⟨rfl, rfl, rfl, rfl⟩
  · exact refl current

theorem translateReasoningContent (settings : TranslatorSettings) (thoughts : List TextPart)
    (translator : TextTranslator) :
    Silent translator (translator.translateReasoningContent settings thoughts) := by
  have block : ∀ current : TextTranslator, Silent current (current.openReasoning settings) := by
    intro current
    unfold TextTranslator.openReasoning
    split
    · exact refl current
    · exact ⟨rfl, rfl, rfl, rfl⟩
  have message : ∀ current : TextTranslator, Silent current (current.openReasoningMessage settings) := by
    intro current
    unfold TextTranslator.openReasoningMessage
    split
    · exact refl current
    · split <;> exact ⟨rfl, rfl, rfl, rfl⟩
  have content : ∀ current : TextTranslator, Silent current (current.reasoningContent thoughts) := by
    intro current
    refine ⟨?_, rfl, rfl, rfl⟩
    change String.join ((TextTranslator.encryptedValues _ thoughts).filterMap delta?) = ""
    rw [encryptedValues]
    rfl
  unfold TextTranslator.translateReasoningContent
  split
  · exact refl translator
  · exact ((block translator).andThen message).andThen content

end Silent

namespace TextTranslator

variable {settings : TranslatorSettings} {event : ModelEvent}

theorem shownText_emitText (event : ModelEvent) (translator : TextTranslator) :
    shownText (translator.emitText settings event).2 =
      if translator.isStreaming = true ∧ event.isPartial = false then "" else event.combinedText := by
  have opened : ∀ current : TextTranslator,
      shownText (if translator.isStreaming then (current, [])
        else current.closeReasoningStream.andThen (startStream settings) : Translated).2 = "" := by
    intro current
    split
    · rfl
    · rw [shownText_andThen, (Silent.closeReasoningStream current).shown]
      rfl
  have ended : ∀ (closes : Bool) (current : TextTranslator),
      shownText (if closes then current.endStream settings else (current, []) : Translated).2 = "" := by
    intro closes current
    cases closes <;> rfl
  unfold emitText
  rw [shownText_andThen, shownText_andThen, opened, ended, String.append_empty, String.empty_append]
  by_cases skipped : translator.isStreaming = true ∧ event.isPartial = false
  · rw [if_pos skipped, if_pos (by simp [skipped.1, skipped.2])]
    rfl
  · rw [if_neg skipped, if_neg (by simpa using skipped)]
    simp [shownText, streamContent, delta?]

theorem shownText_finalResponse (event : ModelEvent) (translator : TextTranslator) :
    shownText (translator.finalResponse settings event).2 =
      if translator.isStreaming = true ∨ translator.isDuplicate settings event.combinedText = true then ""
      else event.combinedText := by
  unfold finalResponse
  by_cases streaming : translator.isStreaming = true
  · rw [if_pos streaming, if_pos (.inl streaming)]
    rfl
  · rw [if_neg streaming]
    by_cases duplicate : translator.isDuplicate settings event.combinedText = true
    · rw [if_pos duplicate, if_pos (.inr duplicate)]
      rfl
    · rw [if_neg duplicate, if_neg (not_or_intro streaming duplicate)]
      split
      case isTrue empty => exact empty.symm
      case isFalse => rw [shownText_emitText, if_neg fun both => streaming both.1]

/-- Thoughts before a text change nothing of what it shows. -/
theorem takesAsShown_iff {translator : TextTranslator} {translated : Translated}
    (silent : Silent translator translated) :
    translated.1.TakesAsShown settings event ↔ translator.TakesAsShown settings event := by
  rw [TakesAsShown, TakesAsShown, silent.isStreaming_eq, silent.isDuplicate_eq]

theorem shownText_spoken_whole (shows : event.author ∉ settings.outputSchemaAgentNames)
    (whole : event.isPartial = false) (translator : TextTranslator) :
    shownText (translator.translateSpokenText settings event).2 =
      if translator.TakesAsShown settings event then "" else event.combinedText := by
  unfold translateSpokenText
  rw [if_neg fun both => shows both.2]
  cases final : event.isFinalResponse with
  | true =>
    have silent := Silent.closeReasoningStream translator
    rw [if_neg fun both => Bool.noConfusion both.2, if_pos rfl, shownText_andThen, silent.shown, String.empty_append,
      shownText_finalResponse, silent.isStreaming_eq, silent.isDuplicate_eq]
    simp only [TakesAsShown, final, true_and]
  | false =>
    have takes : translator.TakesAsShown settings event ↔ translator.isStreaming = true := by
      simp [TakesAsShown, final]
    by_cases empty : event.combinedText = ""
    · rw [if_neg Bool.false_ne_true, if_pos empty, empty, ite_self, ite_self]
      rfl
    · have spoken : event.textParts ≠ [] := by
        intro none
        rw [ModelEvent.combinedText, none] at empty
        exact empty rfl
      rw [if_neg fun both => spoken both.1, if_neg Bool.false_ne_true, if_neg empty, shownText_emitText]
      simp only [takes, whole, and_true]

theorem shownText_spoken_preview (shows : event.author ∉ settings.outputSchemaAgentNames)
    (preview : event.isPartial = true) (notFinal : event.isFinalResponse = false) (translator : TextTranslator) :
    shownText (translator.translateSpokenText settings event).2 = event.combinedText := by
  unfold translateSpokenText
  rw [if_neg fun both => shows both.2, notFinal, if_neg Bool.false_ne_true]
  by_cases empty : event.combinedText = ""
  · rw [if_pos empty, empty, ite_self]
    rfl
  · have spoken : event.textParts ≠ [] := by
      intro none
      rw [ModelEvent.combinedText, none] at empty
      exact empty rfl
    rw [if_neg fun both => spoken both.1, if_neg empty, shownText_emitText, preview,
      if_neg fun both => Bool.noConfusion both.2]

/-- What an event shows its text shows, once its thoughts are translated. -/
theorem shownText_translate (notUser : event.author ≠ "user") (translator : TextTranslator) (taken : Prop)
    [Decidable taken] (spoken : ∀ current : TextTranslator,
      (current.TakesAsShown settings event ↔ translator.TakesAsShown settings event) ->
        shownText (current.translateSpokenText settings event).2 = if taken then "" else event.combinedText) :
    shownText (translator.translate settings event).2 = if taken then "" else event.combinedText := by
  have closed : ∀ current : TextTranslator,
      shownText
        (if event.startsCalls then current.forceCloseStreamingMessage else (current, []) : Translated).2 = "" := by
    intro current
    cases event.startsCalls with
    | false => rfl
    | true =>
      rw [if_pos rfl, forceCloseStreamingMessage]
      split <;> rfl
  rw [translate, if_neg notUser, shownText_andThen, closed, String.append_empty]
  by_cases noParts : event.parts = []
  · have empty : event.combinedText = "" := by
      rw [ModelEvent.combinedText, ModelEvent.textParts, ModelEvent.spokenParts, noParts]
      rfl
    rw [empty, ite_self, noParts]
    rfl
  · rw [if_neg (by simpa using noParts), translateTextContent, shownText_andThen]
    split
    · have silent := Silent.translateReasoningContent settings event.thoughtParts translator
      rw [silent.shown, String.empty_append]
      exact spoken _ (takesAsShown_iff silent)
    · exact String.empty_append.trans (spoken translator Iff.rfl)

theorem shownText_whole (shows : ModelTurn.Shows settings event) (whole : event.isPartial = false)
    (translator : TextTranslator) :
    shownText (translator.translate settings event).2 =
      if translator.TakesAsShown settings event then "" else event.combinedText := by
  apply shownText_translate shows.1
  intro current same
  rw [shownText_spoken_whole shows.2 whole]
  simp only [same]

theorem shownText_preview (shows : ModelTurn.Shows settings event) (preview : event.isPartial = true)
    (notFinal : event.isFinalResponse = false) (translator : TextTranslator) :
    shownText (translator.translate settings event).2 = event.combinedText := by
  have shown := shownText_translate shows.1 translator False fun current _ =>
    (shownText_spoken_preview shows.2 preview notFinal current).trans (if_neg not_false).symm
  rwa [if_neg not_false] at shown

/-- An event without text shows none, whoever it is of. -/
theorem shownText_empty (empty : event.combinedText = "") (translator : TextTranslator) :
    shownText (translator.translate settings event).2 = "" := by
  by_cases user : event.author = "user"
  · rw [translate, if_pos user]
    rfl
  · rw [shownText_translate user translator False, if_neg not_false, empty]
    intro current _
    rw [if_neg not_false, empty, translateSpokenText]
    split
    · rfl
    · split
      · rfl
      · split
        · rw [shownText_andThen, (Silent.closeReasoningStream current).shown, shownText_finalResponse, empty, ite_self]
          rfl
        · rfl

theorem shownText_cons (translator : TextTranslator) (event : ModelEvent) (rest : List ModelEvent) :
    shownText (translator.translateAll settings (event :: rest)).2 =
      shownText (translator.translate settings event).2 ++
        shownText ((translator.translate settings event).1.translateAll settings rest).2 := by
  rw [translateAll, shownText_andThen]

theorem translateAll_append (translator : TextTranslator) (first second : List ModelEvent) :
    translator.translateAll settings (first ++ second) =
      (translator.translateAll settings first).andThen fun current => current.translateAll settings second := by
  induction first generalizing translator with
  | nil => rfl
  | cons event rest ih =>
    rw [List.cons_append, translateAll, translateAll, Translated.andThen_assoc]
    congr 1
    funext current
    exact ih current

theorem shownText_previews {previews : List ModelEvent}
    (regular : ∀ event ∈ previews,
      ModelTurn.Shows settings event ∧ event.isPartial = true ∧ event.isFinalResponse = false)
    (translator : TextTranslator) :
    shownText (translator.translateAll settings previews).2 = String.join (previews.map ModelEvent.combinedText) := by
  induction previews generalizing translator with
  | nil => rfl
  | cons event rest ih =>
    rcases regular event List.mem_cons_self with ⟨shows, preview, notFinal⟩
    rw [shownText_cons, shownText_preview shows preview notFinal,
      ih (List.forall_mem_cons.mp regular).2, List.map_cons,
      String.join_cons]

theorem shownText_calls {calls : List ModelEvent} (silent : ∀ event ∈ calls, event.combinedText = "")
    (translator : TextTranslator) : shownText (translator.translateAll settings calls).2 = "" := by
  induction calls generalizing translator with
  | nil => rfl
  | cons event rest ih =>
    rw [shownText_cons, shownText_empty (silent event List.mem_cons_self),
      ih (List.forall_mem_cons.mp silent).2]
    rfl

/-- What a turn shows. -/
theorem shownText_turn {turn : ModelTurn} (regular : turn.Regular settings) (translator : TextTranslator) :
    shownText (translator.translateAll settings turn.events).2 =
      String.join (turn.previews.map ModelEvent.combinedText) ++
        if (translator.translateAll settings turn.previews).1.TakesAsShown settings turn.closing then ""
        else turn.text := by
  rw [ModelTurn.events, translateAll_append, shownText_andThen, shownText_previews regular.previews, shownText_cons,
    shownText_whole regular.closing.1 regular.closing.2, shownText_calls regular.calls, String.append_empty]
  rfl

end TextTranslator

theorem turn_shown_iff {settings : TranslatorSettings} {turn : ModelTurn} (regular : turn.Regular settings)
    (translator : TextTranslator) :
    shownText (translator.translateAll settings turn.events).2 = turn.text ↔
      turn.text = "" ∨
        ((translator.translateAll settings turn.previews).1.TakesAsShown settings turn.closing ↔
          turn.previews ≠ []) := by
  rw [TextTranslator.shownText_turn regular]
  by_cases single : turn.previews = []
  · rw [single, List.map_nil, String.join_nil, String.empty_append]
    split
    case isTrue taken => exact eq_comm.trans (by simp [taken])
    case isFalse fresh => simp [fresh]
  · rw [regular.whole single]
    split
    case isTrue taken => simp [taken, single]
    case isFalse fresh => simp [fresh, single]

/-- Each turn shows its text just when at its closing event the text is taken
as shown exactly if it came in partial events before. -/
theorem texts_shown_iff (settings : TranslatorSettings) (translator : TextTranslator) (turns : List ModelTurn)
    (regular : ∀ turn ∈ turns, turn.Regular settings) :
    EverywhereOn
        (fun earlier turn =>
          shownText ((translator.after settings earlier).translateAll settings turn.events).2 = turn.text)
        turns ↔
      EverywhereOn
        (fun earlier turn =>
          turn.text = "" ∨
            (((translator.after settings earlier).translateAll settings turn.previews).1.TakesAsShown settings
              turn.closing ↔ turn.previews ≠ []))
        turns := by
  have member : ∀ {earlier later : List ModelTurn} {turn : ModelTurn}, turns = earlier ++ turn :: later ->
      turn ∈ turns := by
    rintro earlier later turn rfl
    exact List.mem_append_right _ List.mem_cons_self
  constructor
  · intro shown earlier turn later split
    exact (turn_shown_iff (regular turn (member split)) _).mp (shown earlier turn later split)
  · intro taken earlier turn later split
    exact (turn_shown_iff (regular turn (member split)) _).mpr (taken earlier turn later split)

instance (settings : TranslatorSettings) : DecidablePred (ModelTurn.Shows settings) :=
  fun _ => inferInstanceAs (Decidable (_ ∧ _))

def quietSettings : TranslatorSettings where
  runId := "r"
  newId made := String.ofList (List.replicate made 'i')

def saying (text : String) : List TextPart :=
  [{ text }]

/-- A turn that is streamed and ends in a call, and one that is not. -/
def talkAndAnswer : List ModelTurn :=
  [{ previews := [{ parts := saying "Let me ", isPartial := true }, { parts := saying "look.", isPartial := true }]
     closing := { parts := saying "Let me look.", startsCalls := true }
     calls := [{}] },
   { closing := { parts := saying "Found it.", isFinalResponse := true } }]

theorem regular_talkAndAnswer (turn : ModelTurn) (member : turn ∈ talkAndAnswer) : turn.Regular quietSettings := by
  simp only [talkAndAnswer, List.mem_cons, List.not_mem_nil, or_false] at member
  rcases member with rfl | rfl <;> constructor <;> decide +kernel

theorem shown_talkAndAnswer :
    EverywhereOn
      (fun earlier turn =>
        shownText ((({} : TextTranslator).after quietSettings earlier).translateAll quietSettings turn.events).2 =
          turn.text)
      talkAndAnswer :=
  (texts_shown_iff quietSettings {} talkAndAnswer regular_talkAndAnswer).mpr (by decide +kernel)

/-- Two final texts of one run, with a call between them, that are the same. -/
def sameAnswers : List ModelTurn :=
  [{ closing := { parts := saying "Done.", isFinalResponse := true }
     calls := [{ startsCalls := true }, {}] },
   { closing := { parts := saying "Done.", isFinalResponse := true } }]

/-- The last partial event of a text carries the reason the model finished for. -/
def finishedPreview : List ModelTurn :=
  [{ previews :=
       [{ parts := saying "Let me ", isPartial := true },
         { parts := saying "look.", isPartial := true, finishReason := true }]
     closing := { parts := saying "Let me look.", startsCalls := true } }]

/-- A text that is said again is dropped, and one that finishes in a preview is doubled. -/
theorem texts_dropped_or_doubled :
    (∀ turn ∈ sameAnswers, turn.Regular quietSettings) ∧
      shownText (({} : TextTranslator).translateAll quietSettings (sameAnswers.flatMap ModelTurn.events)).2 = "Done." ∧
    (∀ turn ∈ finishedPreview, turn.Regular quietSettings) ∧
      shownText (({} : TextTranslator).translateAll quietSettings (finishedPreview.flatMap ModelTurn.events)).2 =
        "Let me look.Let me look." := by
  refine ⟨?_, by decide +kernel, ?_, by decide +kernel⟩
  · intro turn member
    simp only [sameAnswers, List.mem_cons, List.not_mem_nil, or_false] at member
    rcases member with rfl | rfl <;> constructor <;> decide +kernel
  · intro turn member
    simp only [finishedPreview, List.mem_cons, List.not_mem_nil, or_false] at member
    rcases member with rfl
    constructor <;> decide +kernel

end Adk
end AgUi
