import Mathlib.Tactic.MkIffOfInductiveProp
import AgUi.Protocol.Event

namespace AgUi
namespace Langgraph

open Protocol

/-!
# The messages-tuple fallback

What a model streams arrives as events, or from older servers as tuples of a
chunk and its metadata.  Two handlers turn chunks into messages and calls, over
one slot for the message or call in progress.  They close, start and fill it on
different grounds.

The chunks here carry text and calls.  Reasoning, usage and predicted state,
which only the events mode reads, are left out, and messages and calls are both
to be emitted, as is the default.
-/

/-! ## Chunks -/

/-- A field that is left out is the empty text; the handlers read both alike. -/
structure ToolCallChunk where
  id : String := ""
  name : String := ""
  args : String := ""

structure ContentBlock where
  type : String
  text : Option String := none

inductive ChunkContent where
  | text (text : String)
  | blocks (blocks : List ContentBlock)

structure AIMessageChunk where
  id : String
  type : String := "AIMessageChunk"
  content : ChunkContent := .text ""
  toolCallChunks : List ToolCallChunk := []
  finishReason : Bool := false
  /-- A stop reason in the response metadata or beside it. -/
  stopReason : Bool := false

def resolveMessageContent : ChunkContent -> String
  | .text text => text
  | .blocks blocks => ((blocks.find? fun block => block.type = "text").bind ContentBlock.text).getD ""

/-! ## The handlers -/

structure MessageInProgress where
  id : String
  toolCallId : String := ""
  toolCallName : String := ""

/-- The message or call that is streaming, and which of the two streams is heard. -/
structure StreamHandler where
  messageInProgress : Option MessageInProgress := none
  currentTextMessageId : Option String := none
  hasFunctionStreaming : Bool := false
  emittedToolCallStartIds : List String := []
  eventsStreamActive : Bool := false

namespace StreamHandler

/-- `currentStream?.id` -/
def streamId (handler : StreamHandler) : String :=
  (handler.messageInProgress.map MessageInProgress.id).getD ""

/-- `currentStream?.toolCallId` -/
def streamCallId (handler : StreamHandler) : String :=
  (handler.messageInProgress.map MessageInProgress.toolCallId).getD ""

def clear (handler : StreamHandler) : StreamHandler :=
  { handler with messageInProgress := none }

/-- The id the run's text messages have: that of the first of them. -/
def textMessageId (handler : StreamHandler) (fallbackId : String) : String :=
  handler.currentTextMessageId.getD fallbackId

/-- Text of a message, which is started if none is in progress. -/
def addText (handler : StreamHandler) (chunk : AIMessageChunk) : StreamHandler × List Event :=
  let content := resolveMessageContent chunk.content
  match handler.messageInProgress with
  | none =>
    let messageId := handler.textMessageId chunk.id
    ({ handler with currentTextMessageId := some messageId, messageInProgress := some { id := messageId } },
      [.textMessageStart { messageId, role := some .assistant }, .textMessageContent { messageId, delta := content }])
  | some current => (handler, [.textMessageContent { messageId := current.id, delta := content }])

/-! ### Events mode -/

/-- Start a call, after the one in progress. -/
def startCall (handler : StreamHandler) (chunk : AIMessageChunk) (toolCall : ToolCallChunk) :
    StreamHandler × List Event :=
  let ended : List Event :=
    if handler.streamCallId = "" then [] else [.toolCallEnd { toolCallId := handler.streamCallId }]
  let args : List Event :=
    if toolCall.args = "" then [] else [.toolCallArgs { toolCallId := toolCall.id, delta := toolCall.args }]
  ({ handler with
      hasFunctionStreaming := true
      emittedToolCallStartIds := toolCall.id :: handler.emittedToolCallStartIds
      messageInProgress := some { id := chunk.id, toolCallId := toolCall.id, toolCallName := toolCall.name } },
    ended ++
      .toolCallStart {
        toolCallId := toolCall.id, toolCallName := toolCall.name, parentMessageId := some chunk.id } :: args)

/-- A chunk with a call's data. -/
def streamToolCall (handler : StreamHandler) (chunk : AIMessageChunk) (toolCall : ToolCallChunk) :
    StreamHandler × List Event :=
  if handler.streamId ≠ "" ∧ handler.streamCallId = "" then
    -- the end of a text, which may open a call
    let ended : List Event := [.textMessageEnd { messageId := handler.streamId }]
    if toolCall.name = "" then (handler.clear, ended)
    else
      let started := handler.clear.startCall chunk toolCall
      (started.1, ended ++ started.2)
  else if toolCall.name ≠ "" ∧ (handler.streamId = "" ∨ (toolCall.id ≠ "" ∧ toolCall.id ≠ handler.streamCallId)) then
    handler.startCall chunk toolCall
  else if handler.streamId ≠ "" ∧ toolCall.args ≠ "" then
    ({ handler with hasFunctionStreaming := true },
      [.toolCallArgs { toolCallId := handler.streamCallId, delta := toolCall.args }])
  else (handler, [])

/-- A chunk without. -/
def streamContent (handler : StreamHandler) (chunk : AIMessageChunk) : StreamHandler × List Event :=
  if handler.streamId ≠ "" ∧ handler.streamCallId ≠ "" then
    -- whatever text the chunk has goes with the end of the call
    ({ handler.clear with hasFunctionStreaming := true }, [.toolCallEnd { toolCallId := handler.streamCallId }])
  else if resolveMessageContent chunk.content ≠ "" then handler.addText chunk
  else if handler.streamId ≠ "" then (handler.clear, [.textMessageEnd { messageId := handler.streamId }])
  else (handler, [])

def onChatModelStream (handler : StreamHandler) (chunk : AIMessageChunk) : StreamHandler × List Event :=
  if chunk.finishReason then (handler, [])
  else
    match chunk.toolCallChunks with
    | toolCall :: _ => handler.streamToolCall chunk toolCall
    | [] => handler.streamContent chunk

/-- The end closes the call, or else the message, that is streaming. -/
def onChatModelEnd (handler : StreamHandler) : StreamHandler × List Event :=
  if handler.streamCallId ≠ "" then (handler.clear, [.toolCallEnd { toolCallId := handler.streamCallId }])
  else if handler.streamId ≠ "" then (handler.clear, [.textMessageEnd { messageId := handler.streamId }])
  else (handler, [])

/-! ### Tuples -/

def tupleToolCall (handler : StreamHandler) (chunk : AIMessageChunk) (toolCall : ToolCallChunk) :
    StreamHandler × List Event :=
  if toolCall.name ≠ "" then
    let ended : List Event :=
      if handler.streamId ≠ "" ∧ handler.streamCallId = "" then [.textMessageEnd { messageId := handler.streamId }]
      else []
    let toolCallId := if toolCall.id = "" then chunk.id else toolCall.id
    ({ handler with
        hasFunctionStreaming := true
        messageInProgress := some { id := chunk.id, toolCallId, toolCallName := toolCall.name } },
      ended ++ [.toolCallStart { toolCallId, toolCallName := toolCall.name, parentMessageId := some chunk.id }])
  else if toolCall.args ≠ "" ∧ handler.streamCallId ≠ "" then
    (handler, [.toolCallArgs { toolCallId := handler.streamCallId, delta := toolCall.args }])
  else (handler, [])

def tupleFinish (handler : StreamHandler) : StreamHandler × List Event :=
  (handler.clear,
    if handler.streamCallId ≠ "" then [.toolCallEnd { toolCallId := handler.streamCallId }]
    else if handler.streamId ≠ "" then [.textMessageEnd { messageId := handler.streamId }]
    else [])

/-- Chunks of messages of the model, as the runtimes spell them. -/
def isAssistant (type : String) : Bool :=
  type = "" || type = "ai" || type = "AIMessageChunk" || type = "generic"

def handleMessagesTupleEvent (handler : StreamHandler) (chunk : AIMessageChunk) : StreamHandler × List Event :=
  if isAssistant chunk.type = false then (handler, [])
  else
    match chunk.toolCallChunks with
    | toolCall :: _ => handler.tupleToolCall chunk toolCall
    | [] =>
      if chunk.finishReason || chunk.stopReason then handler.tupleFinish
      else if resolveMessageContent chunk.content = "" then (handler, [])
      else handler.addText chunk

end StreamHandler

inductive StreamInput where
  | tuple (chunk : AIMessageChunk)
  | chatModelStream (chunk : AIMessageChunk)
  | chatModelEnd

namespace StreamHandler

/-- Once the events stream is heard, the tuples are left out. -/
def handleSingleEvent (handler : StreamHandler) : StreamInput -> StreamHandler × List Event
  | .tuple chunk => if handler.eventsStreamActive then (handler, []) else handler.handleMessagesTupleEvent chunk
  | .chatModelStream chunk => { handler with eventsStreamActive := true }.onChatModelStream chunk
  | .chatModelEnd => handler.onChatModelEnd

def handleAll (handler : StreamHandler) : List StreamInput -> StreamHandler × List Event
  | [] => (handler, [])
  | input :: rest =>
    let first := handler.handleSingleEvent input
    let later := first.1.handleAll rest
    (later.1, first.2 ++ later.2)

end StreamHandler

/-! ## Turns -/

inductive TurnPiece where
  | text (content : ChunkContent)
  | toolCall (chunk : ToolCallChunk)

/-- A turn of the model, under one message id. -/
structure StreamedTurn where
  messageId : String
  identified : messageId ≠ ""
  type : String
  assistant : StreamHandler.isAssistant type = true
  pieces : List TurnPiece
  /-- The turn is closed with a finish reason; otherwise it is with a stop reason. -/
  finished : Bool

namespace StreamedTurn

def chunk (turn : StreamedTurn) : TurnPiece -> AIMessageChunk
  | .text content => { id := turn.messageId, type := turn.type, content }
  | .toolCall toolCall => { id := turn.messageId, type := turn.type, toolCallChunks := [toolCall] }

def finishChunk (turn : StreamedTurn) : AIMessageChunk :=
  { id := turn.messageId, type := turn.type, finishReason := turn.finished, stopReason := !turn.finished }

end StreamedTurn

/-- How the chunks of a turn arrive. -/
inductive StreamMode where
  | events
  | messagesTuple

def StreamMode.input (chunk : AIMessageChunk) : StreamMode -> StreamInput
  | .events => .chatModelStream chunk
  | .messagesTuple => .tuple chunk

def StreamMode.closing (turn : StreamedTurn) : StreamMode -> List StreamInput
  | .events => [.chatModelStream turn.finishChunk, .chatModelEnd]
  | .messagesTuple => [.tuple turn.finishChunk]

def StreamedTurn.inputs (mode : StreamMode) (turn : StreamedTurn) : List StreamInput :=
  turn.pieces.map (fun piece => mode.input (turn.chunk piece)) ++ mode.closing turn

/-- A piece that neither brings text nor names a call. -/
def TurnPiece.Continues : TurnPiece -> Prop
  | .text content => resolveMessageContent content = ""
  | .toolCall chunk => chunk.name = ""

def TurnPiece.arguments : TurnPiece -> String
  | .text _ => ""
  | .toolCall chunk => chunk.args

def argumentsIn (pieces : List TurnPiece) : String :=
  String.join (pieces.map TurnPiece.arguments)

/-- The arguments up to the first chunk that has no call's data. -/
def unbrokenArguments : List TurnPiece -> String
  | .toolCall chunk :: rest => chunk.args ++ unbrokenArguments rest
  | _ => ""

/-- The piece names no call. -/
def TurnPiece.Unnamed : TurnPiece -> Prop
  | .text _ => True
  | .toolCall chunk => chunk.name = ""

/-- At most one chunk names a call.  It has the call's id, no text comes after it, and its own arguments, which a tuple
loses, make up for those after the first chunk without the call's data, which the events lose. -/
inductive RegularPieces : List TurnPiece -> Prop
  | uncalled {pieces : List TurnPiece} (unnamed : ∀ piece ∈ pieces, piece.Unnamed) : RegularPieces pieces
  | called {before rest : List TurnPiece} {chunk : ToolCallChunk}
      (unnamed : ∀ piece ∈ before, piece.Unnamed) (naming : chunk.name ≠ "") (named : chunk.id ≠ "")
      (continues : ∀ piece ∈ rest, piece.Continues)
      (settled : chunk.args ++ unbrokenArguments rest = argumentsIn rest) :
      RegularPieces (before ++ .toolCall chunk :: rest)

/-- What is said: text of a message, or that there is a call. -/
inductive Said where
  | text (id delta : String)
  | call (id name : String)

def TurnPiece.said (textId : String) : TurnPiece -> List Said
  | .text content =>
    if resolveMessageContent content = "" then [] else [.text textId (resolveMessageContent content)]
  | .toolCall chunk => if chunk.name = "" then [] else [.call chunk.id chunk.name]

def Said.called? : Said -> Option (String × String)
  | .call id name => some (id, name)
  | .text _ _ => none

/-- The call a piece names. -/
def TurnPiece.called? : TurnPiece -> Option (String × String)
  | .toolCall chunk => if chunk.name = "" then none else some (chunk.id, chunk.name)
  | .text _ => none

def StreamedTurn.calls (turn : StreamedTurn) : List (String × String) :=
  turn.pieces.filterMap TurnPiece.called?

/-! ## What is emitted -/

def said? : Event -> Option Said
  | .textMessageContent e => some (.text e.messageId e.delta)
  | .toolCallStart e => some (.call e.toolCallId e.toolCallName)
  | _ => none

def Said.delta? (id : String) : Said -> Option String
  | .text messageId delta => if messageId = id then some delta else none
  | .call _ _ => none

def argsDelta (id : String) : Event -> String
  | .toolCallArgs e => if e.toolCallId = id then e.delta else ""
  | _ => ""

def textOf (id : String) (events : List Event) : String :=
  String.join ((events.filterMap said?).filterMap (Said.delta? id))

def startedCalls (events : List Event) : List (String × String) :=
  (events.filterMap said?).filterMap Said.called?

def argumentsOf (id : String) (events : List Event) : String :=
  String.join (events.map (argsDelta id))

/-- A message or call between its start and its end. -/
inductive OpenItem where
  | text (id : String)
  | call (id : String)
deriving DecidableEq

/-- One item is open at a time; what is said of it is said, and it is ended, while it is. -/
def bracketStep (current : Option OpenItem) : Event -> Option (Option OpenItem)
  | .textMessageStart e => if current = none then some (some (.text e.messageId)) else none
  | .textMessageContent e => if current = some (.text e.messageId) then some current else none
  | .textMessageEnd e => if current = some (.text e.messageId) then some none else none
  | .toolCallStart e => if current = none then some (some (.call e.toolCallId)) else none
  | .toolCallArgs e => if current = some (.call e.toolCallId) then some current else none
  | .toolCallEnd e => if current = some (.call e.toolCallId) then some none else none
  | _ => some current

/-- Whatever is started is ended, with its content in between. -/
def Bracketed (events : List Event) : Prop :=
  events.foldlM bracketStep none = some none

/-- Two streams of one meaning, in each of which every call is started and
ended once and every message opened before its content and closed after. -/
structure Agree (first second : List Event) : Prop where
  texts : ∀ id, textOf id first = textOf id second
  calls : startedCalls first = startedCalls second
  arguments : ∀ id, argumentsOf id first = argumentsOf id second
  once : ((startedCalls first).map Prod.fst).Nodup
  firstBracketed : Bracketed first
  secondBracketed : Bracketed second

/-! ## The slot -/

def MessageInProgress.item (current : MessageInProgress) : OpenItem :=
  if current.toolCallId = "" then .text current.id else .call current.toolCallId

namespace StreamHandler

def item (handler : StreamHandler) : Option OpenItem :=
  handler.messageInProgress.map MessageInProgress.item

/-- The handler takes what arrives in the mode, and its text messages have the id. -/
@[mk_iff]
structure Takes (mode : StreamMode) (pin : Option String) (handler : StreamHandler) : Prop where
  quiet : mode = .messagesTuple -> handler.eventsStreamActive = false
  pinned : handler.currentTextMessageId = pin
  identified : pin ≠ some ""

/-- Nothing is in progress. -/
@[mk_iff]
structure Idle (mode : StreamMode) (pin : Option String) (handler : StreamHandler) : Prop extends
    Takes mode pin handler where
  slot : handler.messageInProgress = none

/-- Nothing but the pinned message is in progress. -/
@[mk_iff]
structure Ready (mode : StreamMode) (pin : Option String) (handler : StreamHandler) : Prop extends
    Takes mode pin handler where
  slot : handler.messageInProgress = none ∨ ∃ id, handler.messageInProgress = some { id } ∧ pin = some id

/-- The call is in progress. -/
@[mk_iff]
structure Calling (mode : StreamMode) (pin : Option String) (callId : String) (handler : StreamHandler) : Prop extends
    Takes mode pin handler where
  named : callId ≠ ""
  slot : ∃ id name,
    id ≠ "" ∧ handler.messageInProgress = some { id, toolCallId := callId, toolCallName := name }

theorem Idle.ready {mode : StreamMode} {pin : Option String} {handler : StreamHandler} (idle : handler.Idle mode pin) :
    handler.Ready mode pin :=
  ⟨idle.toTakes, .inl idle.slot⟩

theorem Idle.item {mode : StreamMode} {pin : Option String} {handler : StreamHandler} (idle : handler.Idle mode pin) :
    handler.item = none := by
  rw [StreamHandler.item, idle.slot, Option.map_none]

theorem handleAll_append (first second : List StreamInput) : ∀ handler : StreamHandler,
    handler.handleAll (first ++ second) =
      (((handler.handleAll first).1.handleAll second).1,
        (handler.handleAll first).2 ++ ((handler.handleAll first).1.handleAll second).2) := by
  induction first with
  | nil =>
    intro handler
    rfl
  | cons input rest ih =>
    intro handler
    rw [List.cons_append, handleAll, ih, handleAll, List.append_assoc]

/-- What the handler says to its inputs, while items open and close as its slot does, and where it gets to. -/
structure Says (handler : StreamHandler) (inputs : List StreamInput) (words : List Said) (arguments : String -> String)
    (After : StreamHandler -> Prop) : Prop where
  bracketed : (handler.handleAll inputs).2.foldlM bracketStep handler.item = some (handler.handleAll inputs).1.item
  said : (handler.handleAll inputs).2.filterMap said? = words
  arguments : ∀ id, argumentsOf id (handler.handleAll inputs).2 = arguments id
  after : After (handler.handleAll inputs).1

namespace Says

variable {handler : StreamHandler} {first second : List StreamInput} {words more : List Said}
  {arguments later : String -> String} {Middle After : StreamHandler -> Prop}

theorem nil (holds : After handler) : Says handler [] [] (fun _ => "") After where
  bracketed := rfl
  said := rfl
  arguments := fun _ => rfl
  after := holds

theorem append (one : Says handler first words arguments Middle)
    (other : ∀ next, Middle next -> Says next second more later After) :
    Says handler (first ++ second) (words ++ more) (fun id => arguments id ++ later id) After := by
  have rest := other _ one.after
  constructor <;> rw [handleAll_append]
  case bracketed =>
    rw [List.foldlM_append, one.bracketed]
    exact rest.bracketed
  case said => rw [List.filterMap_append, one.said, rest.said]
  case arguments =>
    intro id
    rw [argumentsOf, List.map_append, String.join_append, ← argumentsOf, ← argumentsOf, one.arguments, rest.arguments]
  case after => exact rest.after

theorem arguing (spoken : Says handler first words arguments After) (same : ∀ id, arguments id = later id) :
    Says handler first words later After :=
  { spoken with arguments := fun id => (spoken.arguments id).trans (same id) }

end Says

end StreamHandler

/-- The id of the text messages after a piece. -/
def StreamedTurn.pinAfter (turn : StreamedTurn) (pin : Option String) : TurnPiece -> Option String
  | .text content => if resolveMessageContent content = "" then pin else some (pin.getD turn.messageId)
  | .toolCall _ => pin

/-- What of the arguments of the chunk that starts a call arrives. -/
def StreamMode.opening (chunk : ToolCallChunk) : StreamMode -> String
  | .events => chunk.args
  | .messagesTuple => ""

/-- What of the later arguments of a call arrives. -/
def StreamMode.later (pieces : List TurnPiece) : StreamMode -> String
  | .events => unbrokenArguments pieces
  | .messagesTuple => argumentsIn pieces

open StreamHandler

section Steps

variable {mode : StreamMode} (turn : StreamedTurn) {pin : Option String} {callId : String} {handler : StreamHandler}

attribute [local simp] StreamMode.input handleAll handleSingleEvent onChatModelStream handleMessagesTupleEvent
  streamContent streamToolCall addText startCall tupleToolCall tupleFinish onChatModelEnd streamId streamCallId clear
  textMessageId item MessageInProgress.item StreamedTurn.chunk StreamedTurn.finishChunk StreamedTurn.pinAfter
  TurnPiece.said bracketStep takes_iff idle_iff ready_iff calling_iff said? argsDelta argumentsOf
    StreamMode.opening List.filterMap_cons

theorem textId_ne (pin : Option String) (identified : pin ≠ some "") :
    pin.getD turn.messageId ≠ "" := by
  cases pin with
  | none => exact turn.identified
  | some id => exact fun empty => identified (congrArg some empty)

/-- In both modes a piece that names no call says its text. -/
theorem ready_step {piece : TurnPiece} (unnamed : piece.Unnamed) (ready : handler.Ready mode pin) :
    handler.Says [mode.input (turn.chunk piece)] (piece.said (pin.getD turn.messageId)) (fun _ => "")
      (Ready mode (turn.pinAfter pin piece)) := by
  rcases handler with ⟨slot, pinned, flag, ids, active⟩
  rcases ready with ⟨⟨quiet, same, identified⟩, slotted⟩
  dsimp only at quiet same slotted
  subst same
  have assistant := turn.assistant
  have textId := textId_ne turn pinned identified
  rcases slotted with idle | ⟨id, started, same⟩
  · subst idle
    cases piece with
    | text content =>
      by_cases silent : resolveMessageContent content = ""
      · cases mode <;> constructor <;> simp [silent, identified, quiet, assistant]
      · cases mode <;> constructor <;> simp [silent, textId, quiet, assistant]
    | toolCall chunk =>
      have nameless : chunk.name = "" := unnamed
      cases mode <;> constructor <;> simp [nameless, identified, quiet, assistant]
  · subst started same
    have named : id ≠ "" := fun empty => identified (congrArg some empty)
    cases piece with
    | text content =>
      by_cases silent : resolveMessageContent content = ""
      · cases mode <;> constructor <;> simp [silent, named, quiet, assistant]
      · cases mode <;> constructor <;> simp [silent, named, quiet, assistant]
    | toolCall chunk =>
      have nameless : chunk.name = "" := unnamed
      cases mode <;> constructor <;> simp [nameless, named, quiet, assistant]

/-- A piece that names a call starts it. -/
theorem ready_call {chunk : ToolCallChunk} (naming : chunk.name ≠ "") (named : chunk.id ≠ "")
    (ready : handler.Ready mode pin) :
    handler.Says [mode.input (turn.chunk (.toolCall chunk))] [.call chunk.id chunk.name]
      (fun id => if chunk.id = id then mode.opening chunk else "") (Calling mode pin chunk.id) := by
  rcases handler with ⟨slot, pinned, flag, ids, active⟩
  rcases ready with ⟨⟨quiet, same, identified⟩, slotted⟩
  dsimp only at quiet same slotted
  subst same
  have assistant := turn.assistant
  have turnId := turn.identified
  rcases slotted with idle | ⟨id, started, same⟩
  · subst idle
    by_cases empty : chunk.args = ""
    · cases mode <;> constructor <;> simp [empty, naming, named, identified, turnId, quiet, assistant]
    · cases mode <;> constructor <;> simp [empty, naming, named, identified, turnId, quiet, assistant]
  · subst started same
    have textId : id ≠ "" := fun empty => identified (congrArg some empty)
    by_cases empty : chunk.args = ""
    · cases mode <;> constructor <;> simp [empty, naming, named, textId, turnId, quiet, assistant]
    · cases mode <;> constructor <;> simp [empty, naming, named, textId, turnId, quiet, assistant]

/-- More of a call's arguments. -/
theorem calling_arguments {chunk : ToolCallChunk} (nameless : chunk.name = "")
    (calling : handler.Calling mode pin callId) :
    handler.Says [mode.input (turn.chunk (.toolCall chunk))] [] (fun id => if callId = id then chunk.args else "")
      (Calling mode pin callId) := by
  rcases handler with ⟨slot, pinned, flag, ids, active⟩
  rcases calling with ⟨⟨quiet, same, identified⟩, named, id, name, nonempty, started⟩
  dsimp only at quiet same started
  subst same started
  have assistant := turn.assistant
  by_cases empty : chunk.args = ""
  · cases mode <;> constructor <;> simp [empty, nameless, named, nonempty, identified, quiet, assistant]
  · cases mode <;> constructor <;> simp [empty, nameless, named, nonempty, identified, quiet, assistant]

/-- In the events a chunk without a call's data ends the call. -/
theorem calling_broken {content : ChunkContent} (calling : handler.Calling .events pin callId) :
    handler.Says [StreamMode.events.input (turn.chunk (.text content))] [] (fun _ => "") (Idle .events pin) := by
  rcases handler with ⟨slot, pinned, flag, ids, active⟩
  rcases calling with ⟨⟨quiet, same, identified⟩, named, id, name, nonempty, started⟩
  dsimp only at quiet same started
  subst same started
  constructor <;> simp [named, nonempty, identified]

/-- Among the tuples it is nothing. -/
theorem calling_silent {content : ChunkContent} (silent : resolveMessageContent content = "")
    (calling : handler.Calling .messagesTuple pin callId) :
    handler.Says [StreamMode.messagesTuple.input (turn.chunk (.text content))] [] (fun _ => "")
      (Calling .messagesTuple pin callId) := by
  have assistant := turn.assistant
  have quiet := calling.quiet rfl
  constructor
  case after => simpa [silent, quiet, assistant] using calling
  all_goals simp [silent, quiet, assistant]

/-- What closes a turn ends what is in progress. -/
theorem closing_idle (takes : handler.Takes mode pin)
    (held : ∀ current, handler.messageInProgress = some current -> current.id ≠ "") :
    handler.Says (mode.closing turn) [] (fun _ => "") (Idle mode pin) := by
  rcases handler with ⟨slot, pinned, flag, ids, active⟩
  rcases takes with ⟨quiet, same, identified⟩
  dsimp only at quiet same held
  subst same
  have assistant := turn.assistant
  have silent : resolveMessageContent (.text "") = "" := rfl
  cases slot with
  | none =>
    cases finished : turn.finished <;> cases mode <;> constructor <;>
      simp [StreamMode.closing, silent, finished, identified, quiet, assistant]
  | some current =>
    have nonempty := held current rfl
    by_cases called : current.toolCallId = ""
    · cases finished : turn.finished <;> cases mode <;> constructor <;>
        simp [StreamMode.closing, silent, finished, identified, quiet, assistant, nonempty, called]
    · cases finished : turn.finished <;> cases mode <;> constructor <;>
        simp [StreamMode.closing, finished, identified, quiet, assistant, nonempty, called]

theorem ready_closing (ready : handler.Ready mode pin) :
    handler.Says (mode.closing turn) [] (fun _ => "") (Idle mode pin) := by
  apply closing_idle turn ready.toTakes
  intro current same
  rcases ready.slot with idle | ⟨id, started, pinned⟩
  · rw [idle] at same
    cases same
  · rw [started] at same
    cases same
    exact fun empty => ready.identified (pinned.trans (congrArg some empty))

theorem calling_closing (calling : handler.Calling mode pin callId) :
    handler.Says (mode.closing turn) [] (fun _ => "") (Idle mode pin) := by
  apply closing_idle turn calling.toTakes
  intro current same
  rcases calling.slot with ⟨id, name, nonempty, started⟩
  rw [started] at same
  cases same
  exact nonempty

end Steps

/-! ## Turn by turn -/

section Runs

variable {mode : StreamMode} (turn : StreamedTurn) {callId : String}

theorem pinAfter_getD (pin : Option String) (piece : TurnPiece) :
    (turn.pinAfter pin piece).getD turn.messageId = pin.getD turn.messageId := by
  cases piece with
  | text content =>
    rw [StreamedTurn.pinAfter, apply_ite (fun other : Option String => other.getD turn.messageId), Option.getD_some]
    exact ite_self _
  | toolCall chunk => rfl

/-- Pieces that name no call say their texts. -/
theorem ready_run (pieces : List TurnPiece) : ∀ {pin : Option String} {handler : StreamHandler},
    (∀ piece ∈ pieces, piece.Unnamed) -> handler.Ready mode pin ->
      handler.Says (pieces.map fun piece => mode.input (turn.chunk piece))
        (pieces.flatMap (TurnPiece.said (pin.getD turn.messageId))) (fun _ => "")
        (Ready mode (pieces.foldl turn.pinAfter pin)) := by
  induction pieces with
  | nil =>
    intro pin handler unnamed ready
    exact Says.nil ready
  | cons piece rest ih =>
    intro pin handler unnamed ready
    have first := ready_step turn (unnamed piece List.mem_cons_self) ready
    refine (first.append fun next after => ?_).arguing fun id => String.append_empty
    have later := ih (fun other member => unnamed other (List.mem_cons_of_mem piece member)) after
    rw [pinAfter_getD] at later
    exact later

variable {pieces : List TurnPiece}

theorem said_of_continues (textId : String)
    (continues : ∀ piece ∈ pieces, piece.Continues) : pieces.flatMap (TurnPiece.said textId) = [] := by
  rw [List.flatMap_eq_nil_iff]
  intro piece member
  cases piece with
  | text content | toolCall chunk => exact if_pos (continues _ member)

theorem pinAfter_of_continues (pin : Option String)
    (continues : ∀ piece ∈ pieces, piece.Continues) : pieces.foldl turn.pinAfter pin = pin := by
  induction pieces with
  | nil => rfl
  | cons piece rest ih =>
    have same : turn.pinAfter pin piece = pin := by
      cases piece with
      | text content => exact if_pos (continues _ List.mem_cons_self)
      | toolCall chunk => rfl
    rw [List.foldl_cons, same]
    exact ih fun other member => continues other (List.mem_cons_of_mem piece member)

theorem TurnPiece.Continues.unnamed {piece : TurnPiece} (continues : piece.Continues) : piece.Unnamed := by
  cases piece with
  | text content => trivial
  | toolCall chunk => exact continues

/-- What is left of a turn that names no call. -/
theorem ready_closed {pin : Option String} {handler : StreamHandler}
    (unnamed : ∀ piece ∈ pieces, piece.Unnamed) (ready : handler.Ready mode pin) :
    handler.Says (pieces.map (fun piece => mode.input (turn.chunk piece)) ++ mode.closing turn)
      (pieces.flatMap (TurnPiece.said (pin.getD turn.messageId))) (fun _ => "")
      (Idle mode (pieces.foldl turn.pinAfter pin)) := by
  have both := (ready_run turn pieces unnamed ready).append fun next => ready_closing turn
  rw [List.append_nil] at both
  exact both.arguing fun id => String.append_empty

theorem argumentsIn_cons (piece : TurnPiece) (rest : List TurnPiece) :
    argumentsIn (piece :: rest) = piece.arguments ++ argumentsIn rest := by
  rw [argumentsIn, List.map_cons, String.join_cons, argumentsIn]

/-- What is left of a turn once the call has started. -/
theorem calling_closed (pieces : List TurnPiece) : ∀ {pin : Option String} {handler : StreamHandler},
    (∀ piece ∈ pieces, piece.Continues) -> handler.Calling mode pin callId ->
      handler.Says (pieces.map (fun piece => mode.input (turn.chunk piece)) ++ mode.closing turn) []
        (fun id => if callId = id then mode.later pieces else "") (Idle mode pin) := by
  induction pieces with
  | nil =>
    intro pin handler continues calling
    refine (calling_closing turn calling).arguing fun id => ?_
    cases mode with
    | events | messagesTuple => exact (ite_self "").symm
  | cons piece rest ih =>
    intro pin handler continues calling
    have continuing : ∀ other ∈ rest, other.Continues :=
      fun other member => continues other (List.mem_cons_of_mem piece member)
    have silent := continues piece List.mem_cons_self
    cases piece with
    | toolCall chunk =>
      have more : mode.later (.toolCall chunk :: rest) = chunk.args ++ mode.later rest := by
        cases mode with
        | events => rfl
        | messagesTuple => exact argumentsIn_cons _ rest
      refine ((calling_arguments turn silent calling).append fun next => ih continuing).arguing fun id => ?_
      rw [more]
      split
      · rfl
      · exact String.append_empty
    | text content =>
      cases mode with
      | events =>
        have later : ∀ next, Idle .events pin next -> Says next
            (rest.map (fun piece => StreamMode.events.input (turn.chunk piece)) ++ StreamMode.events.closing turn) []
            (fun _ => "") (Idle .events pin) := by
          intro next idle
          have closed := ready_closed turn (fun other member => (continuing other member).unnamed)
            idle.ready
          rw [pinAfter_of_continues turn pin continuing, said_of_continues _ continuing] at closed
          exact closed
        exact ((calling_broken turn calling).append later).arguing fun id => (ite_self "").symm
      | messagesTuple =>
        refine ((calling_silent turn silent calling).append fun next => ih continuing).arguing fun id => ?_
        rw [StreamMode.later, StreamMode.later, argumentsIn_cons, TurnPiece.arguments, String.empty_append,
          String.empty_append]

theorem called_of_said (textId : String) (pieces : List TurnPiece) :
    (pieces.flatMap (TurnPiece.said textId)).filterMap Said.called? = pieces.filterMap TurnPiece.called? := by
  induction pieces with
  | nil => rfl
  | cons piece rest ih =>
    rw [List.flatMap_cons, List.filterMap_append, ih, List.filterMap_cons]
    cases piece with
    | text content =>
      rw [TurnPiece.said]
      split
      · rfl
      · rfl
    | toolCall chunk =>
      rw [TurnPiece.said, TurnPiece.called?]
      split
      · rfl
      · rfl

end Runs

/-- Both modes say the same, from and to where nothing is in progress. -/
def Alike (inputs : StreamMode -> List StreamInput) (calls : List (String × String)) (pin : Option String) : Prop :=
  ∃ words arguments after,
    words.filterMap Said.called? = calls ∧
      ∀ mode (handler : StreamHandler), handler.Idle mode pin ->
        handler.Says (inputs mode) words arguments (Idle mode after)

theorem alike_append {first second : StreamMode -> List StreamInput} {calls more : List (String × String)}
    {pin : Option String} (one : Alike first calls pin) (other : ∀ after, Alike second more after) :
    Alike (fun mode => first mode ++ second mode) (calls ++ more) pin := by
  rcases one with ⟨words, arguments, middle, called, speaks⟩
  rcases other middle with ⟨rest, later, after, named, follows⟩
  refine ⟨words ++ rest, fun id => arguments id ++ later id, after, ?_, ?_⟩
  · rw [List.filterMap_append, called, named]
  · exact fun mode handler idle => (speaks mode handler idle).append (follows mode)

theorem alike_turn (turn : StreamedTurn) (regular : RegularPieces turn.pieces) (pin : Option String) :
    Alike (fun mode => turn.inputs mode) turn.calls pin := by
  unfold StreamedTurn.inputs StreamedTurn.calls
  rw [← called_of_said (pin.getD turn.messageId)]
  revert regular
  generalize turn.pieces = pieces
  intro regular
  cases regular with
  | uncalled unnamed =>
    exact ⟨_, fun _ => "", pieces.foldl turn.pinAfter pin, rfl, fun mode handler idle =>
      ready_closed turn unnamed idle.ready⟩
  | @called before rest chunk unnamed naming named continues settled =>
    refine ⟨_, fun id => if chunk.id = id then argumentsIn rest else "", before.foldl turn.pinAfter pin, rfl, ?_⟩
    intro mode handler idle
    have words : (before ++ .toolCall chunk :: rest).flatMap (TurnPiece.said (pin.getD turn.messageId)) =
        before.flatMap (TurnPiece.said (pin.getD turn.messageId)) ++ ([.call chunk.id chunk.name] ++ []) := by
      rw [List.flatMap_append, List.flatMap_cons, said_of_continues _ continues, TurnPiece.said, if_neg naming]
    have arguments : mode.opening chunk ++ mode.later rest = argumentsIn rest := by
      cases mode with
      | events => exact settled
      | messagesTuple => exact String.empty_append
    dsimp only
    rw [words, List.map_append, List.map_cons, List.append_assoc]
    refine ((ready_run turn before unnamed idle.ready).append fun next ready =>
      (ready_call turn naming named ready).append fun next => calling_closed turn rest continues).arguing fun id => ?_
    rw [String.empty_append, ← arguments]
    split
    · rfl
    · exact String.append_empty

theorem alike_turns (turns : List StreamedTurn) : ∀ (pin : Option String),
    (∀ turn ∈ turns, RegularPieces turn.pieces) ->
      Alike (fun mode => turns.flatMap (StreamedTurn.inputs mode)) (turns.flatMap StreamedTurn.calls) pin := by
  induction turns with
  | nil =>
    intro pin regular
    exact ⟨[], fun _ => "", pin, rfl, fun mode handler idle => Says.nil idle⟩
  | cons turn rest ih =>
    intro pin regular
    simp only [List.flatMap_cons]
    exact alike_append (alike_turn turn (regular turn List.mem_cons_self) pin) fun after =>
      ih after fun other member => regular other (List.mem_cons_of_mem turn member)

theorem StreamHandler.Says.closed {handler : StreamHandler} {inputs : List StreamInput} {words : List Said}
    {arguments : String -> String} {mode : StreamMode} {pin after : Option String} (idle : handler.Idle mode pin)
    (spoken : handler.Says inputs words arguments (Idle mode after)) : Bracketed (handler.handleAll inputs).2 := by
  have bracketed := spoken.bracketed
  rw [idle.item, spoken.after.item] at bracketed
  exact bracketed

/-- The two modes agree on a run whose turns are regular and whose calls have ids of their own. -/
theorem tuples_agree (turns : List StreamedTurn) (pin : Option String) (streamed tupled : StreamHandler)
    (streaming : streamed.Idle .events pin) (tupling : tupled.Idle .messagesTuple pin)
    (regular : ∀ turn ∈ turns, RegularPieces turn.pieces)
    (distinct : ((turns.flatMap StreamedTurn.calls).map Prod.fst).Nodup) :
    Agree (streamed.handleAll (turns.flatMap (StreamedTurn.inputs .events))).2
      (tupled.handleAll (turns.flatMap (StreamedTurn.inputs .messagesTuple))).2 := by
  rcases alike_turns turns pin regular with ⟨words, arguments, after, called, speaks⟩
  have first := speaks .events streamed streaming
  have second := speaks .messagesTuple tupled tupling
  have saidAlike := first.said.trans second.said.symm
  constructor
  case texts =>
    intro id
    rw [textOf, textOf, saidAlike]
  case calls => exact congrArg (List.filterMap Said.called?) saidAlike
  case arguments => exact fun id => (first.arguments id).trans (second.arguments id).symm
  case once =>
    rw [startedCalls, first.said, called]
    exact distinct
  case firstBracketed => exact first.closed streaming
  case secondBracketed => exact second.closed tupling

/-- The chunk that names a call has its first arguments. -/
def openedWithArguments : StreamedTurn where
  messageId := "m1"
  identified := by decide
  type := "AIMessageChunk"
  assistant := by decide
  pieces := [.text (.text "Let me see."), .toolCall { id := "c1", name := "search", args := "\x7b" },
    .toolCall { args := "\x7d" }]
  finished := true

/-- The first arguments in a chunk of their own. -/
def openedWithout : StreamedTurn :=
  { openedWithArguments with
    pieces := [.text (.text "Let me see."), .toolCall { id := "c1", name := "search" }, .toolCall { args := "\x7b" },
      .toolCall { args := "\x7d" }] }

theorem agree_openedWithout :
    Agree (({} : StreamHandler).handleAll ([openedWithout].flatMap (StreamedTurn.inputs .events))).2
      (({} : StreamHandler).handleAll ([openedWithout].flatMap (StreamedTurn.inputs .messagesTuple))).2 := by
  refine tuples_agree [openedWithout] none {} {} ⟨⟨fun _ => rfl, rfl, nofun⟩, rfl⟩
    ⟨⟨fun _ => rfl, rfl, nofun⟩, rfl⟩ ?_ ?_
  · intro turn member
    rw [List.mem_singleton.mp member]
    refine @RegularPieces.called [.text (.text "Let me see.")] _ _ ?_ (by decide) (by decide) ?_ (by decide)
    · intro piece member
      rw [List.mem_singleton.mp member]
      trivial
    · intro piece member
      rcases List.mem_cons.mp member with same | member
      · rw [same]
        rfl
      · rw [List.mem_singleton.mp member]
        rfl
  · decide

/-- A tuple's handler leaves the first arguments out. -/
theorem tuple_arguments_lost :
    ¬ ∀ turns : List StreamedTurn, ((turns.flatMap StreamedTurn.calls).map Prod.fst).Nodup ->
      Agree (({} : StreamHandler).handleAll (turns.flatMap (StreamedTurn.inputs .events))).2
        (({} : StreamHandler).handleAll (turns.flatMap (StreamedTurn.inputs .messagesTuple))).2 := by
  intro always
  have alike := (always [openedWithArguments] (by decide)).arguments "c1"
  exact absurd alike (by decide)

end Langgraph
end AgUi
