import AgUi.Library.Attempts
import AgUi.Middleware.EventReading

namespace AgUi
namespace Middleware
namespace Boundary

open Library Protocol Verify

/-!
# Retired events in brackets

A producer of retired events has at most one span and one text message open at
a time, and opens and closes them inside a run; the two need not be nested in
each other.
-/

/-! ## Brackets -/

namespace ThinkingType

/-- The bracket an event opens, continues or closes. -/
def bracket : ThinkingType -> Bracket
  | start => .reasoningSpan
  | textMessageStart => .reasoningMessage
  | textMessageContent => .reasoningMessage
  | textMessageEnd => .reasoningMessage
  | finish => .reasoningSpan

def opens : ThinkingType -> Bool
  | start => true
  | textMessageStart => true
  | _ => false

def closes : ThinkingType -> Bool
  | textMessageEnd => true
  | finish => true
  | _ => false

end ThinkingType

/-- The brackets a producer has open, each with the owner of its opener. -/
structure Brackets where
  span : Option Owner := none
  message : Option Owner := none

/-- An owner a retired event is attributed to; an event without a tag is the parent agent's. -/
def ownerOf (event : Json) : Owner :=
  (readTag event).bind Nullable.toOption

/-- The event goes on with an open bracket: it has no tag, or the one of the opener. -/
def Continues (opener : Option Owner) (event : Json) : Prop :=
  ∃ owner, opener = some owner ∧ (readTag event).isSome = true ∧
    (ownerOf event = none ∨ ownerOf event = owner)

namespace Brackets

def Allow (brackets : Brackets) (event : Json) : ThinkingType -> Prop
  | .start => brackets.span = none ∧ (readTag event).isSome = true
  | .textMessageStart => brackets.message = none ∧ (readTag event).isSome = true
  | .textMessageContent => Continues brackets.message event ∧ (textField event "delta").isSome = true
  | .textMessageEnd => Continues brackets.message event
  | .finish => Continues brackets.span event

def after (brackets : Brackets) (event : Json) : ThinkingType -> Brackets
  | .start => { brackets with span := some (ownerOf event) }
  | .textMessageStart => { brackets with message := some (ownerOf event) }
  | .textMessageContent => brackets
  | .textMessageEnd => { brackets with message := none }
  | .finish => { brackets with span := none }

end Brackets

/-- Inside a run, the brackets open there; a run begins with none. -/
def stepBrackets (open? : Option Brackets) (event : Json) : Option Brackets :=
  match thinkingType? event with
  | some thinking => open?.map fun brackets => brackets.after event thinking
  | none =>
    if textField event "type" = some "RUN_STARTED" then some {}
    else if textField event "type" = some "RUN_FINISHED" ∨ textField event "type" = some "RUN_ERROR" then none
    else open?

def bracketsAfter (past : List Json) : Option Brackets :=
  past.foldl stepBrackets none

/-- Retired events stand inside a run, open what is not open and continue what is;
a run that finishes has closed its brackets. -/
def Obeys (open? : Option Brackets) (event : Json) : Prop :=
  match thinkingType? event with
  | some thinking => ∃ brackets, open? = some brackets ∧ brackets.Allow event thinking
  | none => textField event "type" = some "RUN_FINISHED" -> ∀ brackets, open? = some brackets -> brackets = {}

def WellBracketed (stream : List Json) : Prop :=
  ∀ past event future, stream = past ++ event :: future -> Obeys (bracketsAfter past) event

def isModern (event : Json) : Bool :=
  (thinkingType? event).isNone

/-! ## Along a stream -/

section

variable (randomUUID : Nat -> String)

def stateAfter (past : List Json) : BoundaryState :=
  past.foldl (fun state event => (transformEvent randomUUID state event).1) {}

theorem transform_append (state : BoundaryState) (past : List Json) (event : Json) :
    transform randomUUID state (past ++ [event]) =
      transform randomUUID state past ++
        [(transformEvent randomUUID (past.foldl (fun state event => (transformEvent randomUUID state event).1) state)
          event).2] := by
  induction past generalizing state with
  | nil => rfl
  | cons first rest ih =>
    exact congrArg ((transformEvent randomUUID state first).2 :: ·) (ih _)

theorem transform_snoc (past : List Json) (event : Json) :
    transform randomUUID {} (past ++ [event]) =
      transform randomUUID {} past ++ [(transformEvent randomUUID (stateAfter randomUUID past) event).2] :=
  transform_append randomUUID {} past event

theorem stateAfter_snoc (past : List Json) (event : Json) :
    stateAfter randomUUID (past ++ [event]) = (transformEvent randomUUID (stateAfter randomUUID past) event).1 :=
  List.foldl_append ..

end

theorem bracketsAfter_snoc (past : List Json) (event : Json) :
    bracketsAfter (past ++ [event]) = stepBrackets (bracketsAfter past) event :=
  List.foldl_append ..

theorem WellBracketed.before {past : List Json} {event : Json} (brackets : WellBracketed (past ++ [event])) :
    WellBracketed past := by
  rintro earlier other future rfl
  refine brackets earlier other (future ++ [event]) ?_
  rw [List.append_assoc, List.cons_append]

theorem WellBracketed.last {past : List Json} {event : Json} (brackets : WellBracketed (past ++ [event])) :
    Obeys (bracketsAfter past) event :=
  brackets past event [] rfl

/-! ## Reading the translated events -/

theorem textField_respell {event : Json} (isObject : event.isObject = true) (thinking : ThinkingType)
    (messageId : String) :
    textField (respell thinking messageId event) "type" = some thinking.reasoningType.name ∧
      textField (respell thinking messageId event) "messageId" = some messageId := by
  have inner : (assign event "type" (.string thinking.reasoningType.name)).isObject = true := by
    rw [isObject_assign, isObject]
  unfold textField respell
  constructor
  · rw [member?_assign_of_ne _ _ (by decide), member?_assign isObject, if_pos rfl]
    rfl
  · rw [member?_assign inner, if_pos rfl]
    rfl

theorem member?_respell {event : Json} (thinking : ThinkingType) (messageId : String) {key : String}
    (notType : key ≠ "type") (notId : key ≠ "messageId") :
    (respell thinking messageId event).member? key = event.member? key := by
  unfold respell
  rw [member?_assign_of_ne _ _ notId, member?_assign_of_ne _ _ notType]

/-- The id a retired event is given: a new one for an opener, else the one that is remembered. -/
def namedId (randomUUID : Nat -> String) (state : BoundaryState) : ThinkingType -> String
  | .start => randomUUID state.minted
  | .textMessageStart => randomUUID state.minted
  | .textMessageContent => (mintedContinuationId randomUUID state.minted state.currentMessageId).1
  | .textMessageEnd => (mintedContinuationId randomUUID state.minted state.currentMessageId).1
  | .finish => (mintedContinuationId randomUUID state.minted state.currentReasoningId).1

/-- Fields a translation writes or drops. -/
def ownFields : List String :=
  ["type", "messageId", "role", "title", "delta"]

theorem translate_fields (randomUUID : Nat -> String) (state : BoundaryState) {event : Json}
    (isObject : event.isObject = true) (thinking : ThinkingType) :
    let translated := (translate randomUUID state event thinking).2
    textField translated "type" = some thinking.reasoningType.name ∧
      textField translated "messageId" = some (namedId randomUUID state thinking) ∧
      translated.member? "delta" = event.member? "delta" ∧
      ∀ key, key ∉ ownFields -> translated.member? key = event.member? key := by
  have apart : ∀ key, key ∉ ownFields ->
      key ≠ "type" ∧ key ≠ "messageId" ∧ key ≠ "role" ∧ key ≠ "title" ∧ key ≠ "delta" := by
    intro key other
    simp only [ownFields, List.mem_cons, List.not_mem_nil, or_false, not_or] at other
    exact other
  cases thinking with
  | start =>
    have inner : (delete event "title").isObject = true := by rw [isObject_delete, isObject]
    have spelled := textField_respell inner .start (randomUUID state.minted)
    refine ⟨spelled.1, spelled.2, ?_, ?_⟩
    · refine (member?_respell _ _ (by decide) (by decide)).trans ?_
      rw [member?_delete, if_neg (by decide)]
    · intro key other
      rcases apart key other with ⟨notType, notId, _, notTitle, _⟩
      refine (member?_respell _ _ notType notId).trans ?_
      rw [member?_delete, if_neg notTitle]
  | textMessageStart =>
    have spelled := textField_respell isObject .textMessageStart (randomUUID state.minted)
    have role : ∀ key, key ≠ "role" ->
        (translate randomUUID state event .textMessageStart).2.member? key =
          (respell .textMessageStart (randomUUID state.minted) event).member? key := fun key notRole =>
      member?_assign_of_ne _ _ notRole
    refine ⟨?_, ?_, ?_, ?_⟩
    · rw [textField, role "type" (by decide)]
      exact spelled.1
    · rw [textField, role "messageId" (by decide)]
      exact spelled.2
    · rw [role "delta" (by decide), member?_respell _ _ (by decide) (by decide)]
    · intro key other
      rcases apart key other with ⟨notType, notId, notRole, _⟩
      rw [role key notRole, member?_respell _ _ notType notId]
  | textMessageContent =>
    have inner : (delete event "delta").isObject = true := by rw [isObject_delete, isObject]
    have spelled := textField_respell inner .textMessageContent
      (mintedContinuationId randomUUID state.minted state.currentMessageId).1
    have written : (respell .textMessageContent
        (mintedContinuationId randomUUID state.minted state.currentMessageId).1 (delete event "delta")).isObject =
          true := by
      rw [respell, isObject_assign, isObject_assign, inner]
    have outside : ∀ key, key ≠ "delta" ->
        (translate randomUUID state event .textMessageContent).2.member? key =
          (respell .textMessageContent (mintedContinuationId randomUUID state.minted state.currentMessageId).1
            (delete event "delta")).member? key := by
      intro key notDelta
      unfold translate
      dsimp only
      split
      · exact member?_assign_of_ne _ _ notDelta
      · rfl
    refine ⟨?_, ?_, ?_, ?_⟩
    · rw [textField, outside "type" (by decide)]
      exact spelled.1
    · rw [textField, outside "messageId" (by decide)]
      exact spelled.2
    · unfold translate
      dsimp only
      cases given : event.member? "delta" with
      | some delta =>
        dsimp only
        rw [member?_assign written, if_pos rfl]
      | none =>
        dsimp only
        rw [member?_respell _ _ (by decide) (by decide), member?_delete, if_pos rfl]
    · intro key other
      rcases apart key other with ⟨notType, notId, _, _, notDelta⟩
      rw [outside key notDelta, member?_respell _ _ notType notId, member?_delete, if_neg notDelta]
  | textMessageEnd | finish =>
    have spelled := textField_respell isObject
    refine ⟨(spelled _ _).1, (spelled _ _).2, member?_respell _ _ (by decide) (by decide), ?_⟩
    intro key other
    exact member?_respell _ _ (apart key other).1 (apart key other).2.1

/-- The event the verifier finds in a translation. -/
def reasoningEvent (thinking : ThinkingType) (messageId delta : String) (tag : Tag) : Event :=
  match thinking with
  | .start => .reasoningStart { messageId := messageId, subagentRunId := tag }
  | .textMessageStart => .reasoningMessageStart { messageId := messageId, subagentRunId := tag }
  | .textMessageContent =>
    .reasoningMessageContent { messageId := messageId, delta := delta, subagentRunId := tag }
  | .textMessageEnd => .reasoningMessageEnd { messageId := messageId, subagentRunId := tag }
  | .finish => .reasoningEnd { messageId := messageId, subagentRunId := tag }

theorem isObject_cleaned (event : Json) : (cleaned event).isObject = event.isObject := by
  unfold cleaned
  rw [isObject_omitOptionalNulls, isObject_omitOptionalNulls]

theorem isObject_of_thinking {event : Json} {thinking : ThinkingType} (retired : thinkingType? event = some thinking) :
    event.isObject = true := by
  cases event with
  | object members => rfl
  | _ => cases retired

theorem read?_translate (randomUUID : Nat -> String) (state : BoundaryState) {event : Json} {thinking : ThinkingType}
    (retired : thinkingType? event = some thinking) {tag : Tag} (tagged : readTag event = some tag) {delta : String}
    (content : thinking = .textMessageContent -> textField event "delta" = some delta) :
    read? (transformEvent randomUUID state event).2 =
      some (reasoningEvent thinking (namedId randomUUID state thinking) delta tag) := by
  have isObject : (cleaned event).isObject = true := by
    rw [isObject_cleaned, isObject_of_thinking retired]
  rcases translate_fields randomUUID state isObject thinking with ⟨type, messageId, deltas, others⟩
  have readsTag : readTag (translate randomUUID state (cleaned event) thinking).2 = some tag := by
    rw [readTag, optionalText, others "subagentRunId" (by decide)]
    exact (readTag_cleaned event).trans tagged
  have readsDelta : textField (translate randomUUID state (cleaned event) thinking).2 "delta" =
      textField event "delta" := by
    rw [textField, deltas]
    exact textField_cleaned event "delta"
  rw [transformEvent_eq, retired]
  dsimp only
  unfold read?
  rw [type, readsTag]
  have reading : typeOf thinking.reasoningType.name = thinking.reasoningType := by
    cases thinking <;> decide
  simp only [Option.bind_eq_bind, Option.bind_some, reading]
  cases thinking with
  | textMessageContent =>
    simp only [ThinkingType.reasoningType, readAs, messageId, readsDelta, content rfl]
    rfl
  | start | textMessageStart | textMessageEnd | finish =>
    simp only [ThinkingType.reasoningType, readAs, messageId]
    rfl

end Boundary
end Middleware
end AgUi
