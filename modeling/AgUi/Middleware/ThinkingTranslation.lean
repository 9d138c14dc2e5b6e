import AgUi.Middleware.ThinkingRecords

namespace AgUi
namespace Middleware
namespace Boundary

open Library Protocol Verify

/-!
# Translated thinking is valid reasoning

Behind the boundary every event stands where it stood.  Each retired one has
become its equivalent under the id minted at the opener of its own bracket,
and the verifier accepts the stream.
-/

section

variable {randomUUID : Nat -> String} {state : BoundaryState} {open? : Option Brackets} {brackets : Brackets}

/-! ## The id of a bracket -/

def isOpener (event : Json) : Bool :=
  (thinkingType? event).any ThinkingType.opens

/-- How many brackets were opened: the number the next minted id has. -/
def openers (past : List Json) : Nat :=
  past.countP isOpener

/-- Nothing of the bracket is opened or closed. -/
def LeavesAlone (bracket : Bracket) (events : List Json) : Prop :=
  ∀ event ∈ events, ∀ thinking, thinkingType? event = some thinking -> thinking.bracket = bracket ->
    thinking.opens = false ∧ thinking.closes = false

/-- The bracket stands open after `past`, and was opened after `before`. -/
inductive OpenSince (bracket : Bracket) (before : List Json) : List Json -> Prop
  | intro {opener : Json} {middle : List Json} {thinking : ThinkingType}
    (retired : thinkingType? opener = some thinking)
      (own : thinking.bracket = bracket) (opens : thinking.opens = true) (quiet : LeavesAlone bracket middle) :
      OpenSince bracket before (before ++ opener :: middle)

theorem OpenSince.snoc {bracket : Bracket} {before past : List Json} (since : OpenSince bracket before past)
    {event : Json} (quiet : LeavesAlone bracket [event]) : OpenSince bracket before (past ++ [event]) := by
  cases since with
  | @intro opener middle thinking retired own opens silent =>
    have longer : before ++ opener :: middle ++ [event] = before ++ opener :: (middle ++ [event]) := by simp
    rw [longer]
    refine .intro retired own opens ?_
    intro other member
    rcases List.mem_append.mp member with early | last
    · exact silent other early
    · exact quiet other last

/-- What is remembered of a bracket that stands open is the id minted at its opener. -/
structure Remembers (randomUUID : Nat -> String) (past : List Json) (state : BoundaryState) (open? : Option Brackets) :
    Prop where
  minted : state.minted = openers past
  span : ∀ brackets, open? = some brackets -> brackets.span.isSome = true ->
    ∃ before, OpenSince .reasoningSpan before past ∧
      state.currentReasoningId = some (randomUUID (openers before))
  message : ∀ brackets, open? = some brackets -> brackets.message.isSome = true ->
    ∃ before, OpenSince .reasoningMessage before past ∧
      state.currentMessageId = some (randomUUID (openers before))

theorem openers_snoc (past : List Json) (event : Json) :
    openers (past ++ [event]) = openers past + if isOpener event then 1 else 0 := by
  unfold openers
  rw [List.countP_append, List.countP_singleton]

theorem leavesAlone_of_modern {event : Json} (modern : thinkingType? event = none) (bracket : Bracket) :
    LeavesAlone bracket [event] := by
  intro other member thinking retired
  rw [List.mem_singleton.mp member, modern] at retired
  cases retired

theorem leavesAlone_of_thinking {event : Json} {thinking : ThinkingType} (retired : thinkingType? event = some thinking)
    {bracket : Bracket} (silent : thinking.bracket ≠ bracket ∨ (thinking.opens = false ∧ thinking.closes = false)) :
    LeavesAlone bracket [event] := by
  intro other member another found own
  rw [List.mem_singleton.mp member, retired] at found
  cases found
  exact silent.resolve_left fun apart => apart own

theorem Remembers.modern {past : List Json} (remembers : Remembers randomUUID past state open?) {event : Json}
    (modern : thinkingType? event = none) :
    Remembers randomUUID (past ++ [event]) state (stepBrackets open? event) := by
  have later : ∀ brackets, stepBrackets open? event = some brackets ->
      brackets = {} ∨ open? = some brackets := by
    intro brackets same
    unfold stepBrackets at same
    rw [modern] at same
    dsimp only at same
    split at same
    · cases same
      exact .inl rfl
    · split at same
      · cases same
      · exact .inr same
  constructor
  · rw [openers_snoc, remembers.minted, isOpener, modern]
    rfl
  · intro brackets same isOpen
    rcases later brackets same with rfl | before
    · cases isOpen
    · rcases remembers.span brackets before isOpen with ⟨earlier, since, id⟩
      exact ⟨earlier, since.snoc (leavesAlone_of_modern modern _), id⟩
  · intro brackets same isOpen
    rcases later brackets same with rfl | before
    · cases isOpen
    · rcases remembers.message brackets before isOpen with ⟨earlier, since, id⟩
      exact ⟨earlier, since.snoc (leavesAlone_of_modern modern _), id⟩

theorem Remembers.thinking {past : List Json} (remembers : Remembers randomUUID past state open?) {event : Json}
    {thinking : ThinkingType} (retired : thinkingType? event = some thinking) (obeys : Obeys open? event) :
    Remembers randomUUID (past ++ [event]) (transformEvent randomUUID state event).1 (stepBrackets open? event) := by
  unfold Obeys at obeys
  rw [retired] at obeys
  rcases obeys with ⟨brackets, rfl, allow⟩
  have after : stepBrackets (some brackets) event = some (brackets.after event thinking) := by
    rw [stepBrackets, retired]
    rfl
  have counted : openers (past ++ [event]) = openers past + if thinking.opens then 1 else 0 := by
    rw [openers_snoc, isOpener, retired]
    rfl
  have spanLater : thinking.bracket ≠ .reasoningSpan ∨ (thinking.opens = false ∧ thinking.closes = false) ->
      brackets.span.isSome = true -> ∃ before, OpenSince .reasoningSpan before (past ++ [event]) ∧
        state.currentReasoningId = some (randomUUID (openers before)) := by
    intro silent isOpen
    rcases remembers.span brackets rfl isOpen with ⟨before, since, id⟩
    exact ⟨before, since.snoc (leavesAlone_of_thinking retired silent), id⟩
  have messageLater : thinking.bracket ≠ .reasoningMessage ∨ (thinking.opens = false ∧ thinking.closes = false) ->
      brackets.message.isSome = true -> ∃ before, OpenSince .reasoningMessage before (past ++ [event]) ∧
        state.currentMessageId = some (randomUUID (openers before)) := by
    intro silent isOpen
    rcases remembers.message brackets rfl isOpen with ⟨before, since, id⟩
    exact ⟨before, since.snoc (leavesAlone_of_thinking retired silent), id⟩
  have nothing : ∀ bracket, LeavesAlone bracket [] := fun _ _ impossible => absurd impossible List.not_mem_nil
  rw [transformEvent_eq, retired, after]
  dsimp only
  cases thinking with
  | start =>
    refine ⟨?_, ?_, ?_⟩
    · rw [counted, ← remembers.minted]
      rfl
    · rintro others same _
      cases same
      refine ⟨past, .intro retired rfl rfl (nothing _), ?_⟩
      rw [← remembers.minted]
      rfl
    · rintro others same isOpen
      cases same
      exact messageLater (.inl Verify.Bracket.noConfusion) isOpen
  | textMessageStart =>
    refine ⟨?_, ?_, ?_⟩
    · rw [counted, ← remembers.minted]
      rfl
    · rintro others same isOpen
      cases same
      exact spanLater (.inl Verify.Bracket.noConfusion) isOpen
    · rintro others same _
      cases same
      refine ⟨past, .intro retired rfl rfl (nothing _), ?_⟩
      rw [← remembers.minted]
      rfl
  | textMessageContent =>
    rcases allow with ⟨⟨owner, held, _⟩, _⟩
    rcases remembers.message brackets rfl (by rw [held]; rfl) with ⟨before, since, id⟩
    rw [translate_content id]
    refine ⟨?_, ?_, ?_⟩
    · rw [counted]
      exact remembers.minted
    · rintro others same isOpen
      cases same
      exact spanLater (.inl Verify.Bracket.noConfusion) isOpen
    · rintro others same isOpen
      cases same
      exact messageLater (.inr ⟨rfl, rfl⟩) isOpen
  | textMessageEnd =>
    rcases allow with ⟨owner, held, _⟩
    rcases remembers.message brackets rfl (by rw [held]; rfl) with ⟨before, since, id⟩
    rw [translate_textMessageEnd id]
    refine ⟨?_, ?_, ?_⟩
    · rw [counted]
      exact remembers.minted
    · rintro others same isOpen
      cases same
      exact spanLater (.inl Verify.Bracket.noConfusion) isOpen
    · rintro others same isOpen
      cases same
      cases isOpen
  | finish =>
    rcases allow with ⟨owner, held, _⟩
    rcases remembers.span brackets rfl (by rw [held]; rfl) with ⟨before, since, id⟩
    rw [translate_finish id]
    refine ⟨?_, ?_, ?_⟩
    · rw [counted]
      exact remembers.minted
    · rintro others same isOpen
      cases same
      cases isOpen
    · rintro others same isOpen
      cases same
      exact messageLater (.inl Verify.Bracket.noConfusion) isOpen

theorem remembers_transform {past : List Json} (brackets : WellBracketed past) :
    Remembers randomUUID past (stateAfter randomUUID past) (bracketsAfter past) := by
  induction past using List.reverseRecOn with
  | nil =>
    constructor
    · rfl
    · intro others impossible
      cases impossible
    · intro others impossible
      cases impossible
  | append_singleton past event ih =>
    have remembers := ih brackets.before
    rw [stateAfter_snoc, bracketsAfter_snoc]
    cases retired : thinkingType? event with
    | some thinking => exact remembers.thinking retired brackets.last
    | none =>
      have same : (transformEvent randomUUID (stateAfter randomUUID past) event).1 = stateAfter randomUUID past := by
        rw [transformEvent_eq, retired]
      rw [same]
      exact remembers.modern retired

end

/-! ## Events that stay as they are -/

def NoNulls (fields : List String) (value : Json) : Prop :=
  ∀ key ∈ fields, value.member? key = some .null -> False

def itemsAt (value : Json) (field : String) : List Json :=
  match value.member? field with
  | some (.array items) => items
  | _ => []

/-- Nothing of the message is written as an older producer would write it. -/
structure ModernMessage (message : Json) : Prop where
  noBinary : hasLegacyBinary (itemsAt message "content") = false
  metadata : ∀ part ∈ itemsAt message "content", ∀ type, textField part "type" = some type ->
    type ∈ ["image", "audio", "video", "document"] -> NoNulls (nullsAt "input content") part

structure ModernInput (input : Json) : Prop where
  itself : NoNulls (nullsAt "RunAgentInput") input
  tools : ∀ tool ∈ itemsAt input "tools", NoNulls (nullsAt "Tool") tool
  resume : ∀ entry ∈ itemsAt input "resume", NoNulls (nullsAt "ResumeEntry") entry
  messages : ∀ message ∈ itemsAt input "messages", ModernMessage message

/-- The event has none of the documented older shapes: no listed null and no legacy attachment. -/
structure Modern (event : Json) : Prop where
  itself : NoNulls (nullsAt "event") event
  ofType : NoNulls (eventTypeNulls (textField event "type")) event
  outcome : textField event "type" = some "RUN_FINISHED" -> ∀ outcome, event.member? "outcome" = some outcome ->
    NoNulls (nullsAt "RUN_FINISHED.outcome") outcome
  usage : textField event "type" = some "RUN_FINISHED" -> ∀ entry ∈ itemsAt event "usage",
    NoNulls (nullsAt "RUN_FINISHED.usage[]") entry
  messages : textField event "type" = some "MESSAGES_SNAPSHOT" -> ∀ message,
    message ∈ itemsAt event "messages" -> ModernMessage message
  input : textField event "type" = some "RUN_STARTED" -> ∀ input, event.member? "input" = some input ->
    ModernInput input

theorem omitOptionalNulls_eq {fields : List String} {value : Json} (noNulls : NoNulls fields value) :
    omitOptionalNulls fields value = value := by
  cases value with
  | object members =>
    refine congrArg Json.object (List.filter_eq_self.mpr fun entry member => ?_)
    by_cases listed : entry.1 ∈ fields
    · have notNull : (members.lookup entry.1).any Json.isNull = false := by
        cases found : members.lookup entry.1 with
        | none => rfl
        | some given =>
          cases given with
          | null => exact (noNulls entry.1 listed found).elim
          | _ => rfl
      rw [notNull, Bool.and_false]
      rfl
    · rw [List.contains_eq_mem, decide_eq_false listed]
      rfl
  | _ => rfl

theorem setEntries_self {key : String} {field : Json} {members : List (String × Json)}
    (found : members.lookup key = some field) : OrderedMap.setEntries key field members = members := by
  induction members with
  | nil => cases found
  | cons entry rest ih =>
    rcases entry with ⟨name, old⟩
    rw [OrderedMap.lookup_cons_ite] at found
    by_cases same : name = key
    · rw [if_pos same.symm] at found
      cases found
      rw [OrderedMap.setEntries, if_pos same, same]
    · rw [if_neg fun equal => same equal.symm] at found
      rw [OrderedMap.setEntries, if_neg same, ih found]

theorem assign_self {value : Json} {key : String} {field : Json} (found : value.member? key = some field) :
    assign value key field = value := by
  cases value with
  | object members => exact congrArg Json.object (setEntries_self found)
  | _ => rfl

theorem mapProtocolArray_eq {field : String} {normalize : Json -> Json} {value : Json}
    (keeps : ∀ item ∈ itemsAt value field, normalize item = item) :
    mapProtocolArray field normalize value = value := by
  unfold mapProtocolArray
  split
  · rename_i items found
    have listed : itemsAt value field = items := by
      rw [itemsAt, found]
    rw [listed] at keeps
    rw [List.map_congr_left keeps, List.map_id']
    exact assign_self found
  · rfl

theorem ModernMessage.normalizeNulls {message : Json} (modern : ModernMessage message) :
    normalizeLegacyMessageNulls message = message := by
  refine mapProtocolArray_eq fun part member => ?_
  unfold normalizeInputContent
  split
  · rename_i type spelled
    split
    · rename_i media
      exact omitOptionalNulls_eq (modern.metadata part member type spelled (List.contains_iff_mem.mp media))
    · rfl
  · rfl

theorem ModernMessage.upgrade {message : Json} (modern : ModernMessage message) :
    upgradeInboundMessage message = message := by
  unfold upgradeInboundMessage
  dsimp only
  rw [modern.normalizeNulls]
  split
  · rename_i content found
    have noBinary := modern.noBinary
    rw [itemsAt, found] at noBinary
    rw [if_neg (by rw [noBinary]; exact Bool.false_ne_true)]
  · rfl

theorem ModernInput.normalize {input : Json} (modern : ModernInput input) :
    mapProtocolArray "messages" upgradeInboundMessage (normalizeLegacyRunAgentInput input) = input := by
  have itself := omitOptionalNulls_eq modern.itself
  have tools := mapProtocolArray_eq fun tool member => omitOptionalNulls_eq (modern.tools tool member)
  have resume := mapProtocolArray_eq fun entry member => omitOptionalNulls_eq (modern.resume entry member)
  have nulls := mapProtocolArray_eq fun message member => (modern.messages message member).normalizeNulls
  have upgraded := mapProtocolArray_eq fun message member => (modern.messages message member).upgrade
  unfold normalizeLegacyRunAgentInput
  dsimp only
  rw [itself, tools, resume, nulls, upgraded]

theorem Modern.normalize {event : Json} (modern : Modern event) :
    normalizeEvent (textField event "type") (cleaned event) = event := by
  have clean : cleaned event = event := by
    unfold cleaned
    rw [omitOptionalNulls_eq modern.itself, omitOptionalNulls_eq modern.ofType]
  rw [clean]
  unfold normalizeEvent
  split
  · rename_i finished
    have usage := mapProtocolArray_eq fun entry member => omitOptionalNulls_eq (modern.usage finished entry member)
    unfold normalizeRunFinished
    dsimp only
    split
    · rename_i outcome found
      rw [omitOptionalNulls_eq (modern.outcome finished outcome found), assign_self found, usage]
    · exact usage
  · split
    · rename_i snapshot
      exact mapProtocolArray_eq fun message member => (modern.messages snapshot message member).upgrade
    · split
      · rename_i started
        unfold normalizeRunStarted
        split
        · rename_i input found
          rw [(modern.input started input found).normalize, assign_self found]
        · rfl
      · rfl

/-! ## The stream behind the boundary -/

/-- What becomes of an event that is not retired.  Only a listed null that stands alone is left out of it, and
only the deep fields can change within. -/
structure Kept (event other : Json) : Prop where
  modern : Modern event -> other = event
  reading : read? other = read? event
  fields : ∀ key, key ∉ deepFields -> other.member? key =
    if (nullsAt "event" ++ eventTypeNulls (textField event "type")).contains key && (event.member? key).any Json.isNull
    then none else event.member? key

/-- What becomes of a retired event: its equivalent, under the id minted at the opener of its own bracket. -/
structure Translated (randomUUID : Nat -> String) (past : List Json) (event other : Json) (thinking : ThinkingType) :
    Prop where
  type : textField other "type" = some thinking.reasoningType.name
  delta : other.member? "delta" = event.member? "delta"
  minted : thinking.opens = true -> textField other "messageId" = some (randomUUID (openers past))
  continued : thinking.opens = false -> ∃ before, OpenSince thinking.bracket before past ∧
    textField other "messageId" = some (randomUUID (openers before))

structure Translates (randomUUID : Nat -> String) (stream : List Json) : Prop where
  noThinking : ∀ other ∈ transform randomUUID {} stream, thinkingType? other = none
  length : (transform randomUUID {} stream).length = stream.length
  kept : ∀ past event future, stream = past ++ event :: future -> thinkingType? event = none ->
    ∃ other, (transform randomUUID {} stream)[past.length]? = some other ∧ Kept event other
  translated : ∀ past event future, stream = past ++ event :: future ->
    ∀ thinking, thinkingType? event = some thinking ->
    ∃ other, (transform randomUUID {} stream)[past.length]? = some other ∧
      Translated randomUUID past event other thinking
  accepted : ∃ shown, (transform randomUUID {} stream).mapM read? = some shown ∧ accepted shown = true

section

variable (randomUUID : Nat -> String)

variable (state : BoundaryState)

theorem length_transform (stream : List Json) :
    (transform randomUUID state stream).length = stream.length := by
  induction stream generalizing state with
  | nil => rfl
  | cons event rest ih => exact congrArg (· + 1) (ih _)

theorem transform_getElem? (past : List Json) (event : Json) (future : List Json) :
    (transform randomUUID {} (past ++ event :: future))[past.length]? =
      some (transformEvent randomUUID (stateAfter randomUUID past) event).2 := by
  unfold stateAfter
  generalize ({} : BoundaryState) = state
  induction past generalizing state with
  | nil => rfl
  | cons first rest ih => exact ih _

theorem thinkingType?_eq_some {event : Json} {thinking : ThinkingType} (retired : thinkingType? event = some thinking) :
    textField event "type" = some thinking.name := by
  unfold thinkingType? at retired
  have matching := List.find?_some retired
  exact eq_of_beq matching

theorem thinkingType?_of_reasoning {event : Json} {thinking : ThinkingType}
    (named : textField event "type" = some thinking.reasoningType.name) : thinkingType? event = none := by
  unfold thinkingType?
  rw [named]
  cases thinking <;> decide

theorem kept_transformEvent {event : Json} (modern : thinkingType? event = none) :
    Kept event (transformEvent randomUUID state event).2 where
  modern := by
    intro plain
    rw [transformEvent_eq, modern]
    exact plain.normalize
  reading := read?_transformEvent randomUUID state modern
  fields := by
    intro key shallow
    rw [transformEvent_eq, modern]
    refine (member?_normalizeEvent _ _ shallow).trans ?_
    unfold cleaned
    rw [member?_omitOptionalNulls, member?_omitOptionalNulls, List.contains_append]
    cases (nullsAt "event").contains key with
    | false =>
      rw [Bool.false_and, Bool.false_or]
      rfl
    | true =>
      rw [Bool.true_and, Bool.true_or, Bool.true_and]
      cases found : (event.member? key).any Json.isNull with
      | true => exact ite_self none
      | false => rw [if_neg Bool.false_ne_true, found, Bool.and_false, if_neg Bool.false_ne_true]

theorem translated_transformEvent {past : List Json} (brackets : WellBracketed past) {event : Json}
    {thinking : ThinkingType} (retired : thinkingType? event = some thinking)
    (obeys : Obeys (bracketsAfter past) event) :
    Translated randomUUID past event (transformEvent randomUUID (stateAfter randomUUID past) event).2 thinking := by
  have isObject : (cleaned event).isObject = true := by
    rw [isObject_cleaned, isObject_of_thinking retired]
  have remembers : Remembers randomUUID past (stateAfter randomUUID past) (bracketsAfter past) :=
    remembers_transform brackets
  rcases translate_fields randomUUID (stateAfter randomUUID past) isObject thinking with ⟨type, messageId, delta, _⟩
  rw [transformEvent_eq, retired]
  constructor
  · exact type
  · refine delta.trans ?_
    unfold cleaned
    rw [thinkingType?_eq_some retired]
    have noNulls : eventTypeNulls (some thinking.name) = [] := by
      cases thinking <;> decide
    rw [noNulls, member?_omit _ List.not_mem_nil, member?_omit _ (by decide)]
  · intro opens
    refine messageId.trans (congrArg some ?_)
    rw [← remembers.minted]
    cases thinking <;> first | rfl | cases opens
  · intro continues
    unfold Obeys at obeys
    rw [retired] at obeys
    rcases obeys with ⟨open?, isOpen, allow⟩
    cases thinking with
    | start | textMessageStart => cases continues
    | textMessageContent =>
      rcases allow with ⟨⟨owner, held, _⟩, _⟩
      rcases remembers.message open? isOpen (by rw [held]; rfl) with ⟨before, since, id⟩
      refine ⟨before, since, messageId.trans (congrArg some ?_)⟩
      rw [namedId, id]
      rfl
    | textMessageEnd =>
      rcases allow with ⟨owner, held, _⟩
      rcases remembers.message open? isOpen (by rw [held]; rfl) with ⟨before, since, id⟩
      refine ⟨before, since, messageId.trans (congrArg some ?_)⟩
      rw [namedId, id]
      rfl
    | finish =>
      rcases allow with ⟨owner, held, _⟩
      rcases remembers.span open? isOpen (by rw [held]; rfl) with ⟨before, since, id⟩
      refine ⟨before, since, messageId.trans (congrArg some ?_)⟩
      rw [namedId, id]
      rfl

/-- No retired event leaves the boundary. -/
theorem thinkingType?_transformEvent (event : Json) :
    thinkingType? (transformEvent randomUUID state event).2 = none := by
  cases retired : thinkingType? event with
  | none =>
    have type := (kept_transformEvent randomUUID state retired).fields "type" (by decide)
    have same : textField (transformEvent randomUUID state event).2 "type" = textField event "type" := by
      unfold textField
      rw [type]
      split
      · rename_i test
        cases found : event.member? "type" with
        | none => rfl
        | some given =>
          rw [found] at test
          cases given <;> first | rfl | exact absurd (Bool.and_eq_true_iff.mp test).2 Bool.false_ne_true
      · rfl
    rw [thinkingType?, same]
    exact retired
  | some thinking =>
    have isObject : (cleaned event).isObject = true := by
      rw [isObject_cleaned, isObject_of_thinking retired]
    rw [transformEvent_eq, retired]
    exact thinkingType?_of_reasoning (translate_fields randomUUID state isObject thinking).1

theorem thinkingType?_transform (stream : List Json) :
    ∀ other ∈ transform randomUUID state stream, thinkingType? other = none := by
  induction stream generalizing state with
  | nil => exact fun other impossible => absurd impossible List.not_mem_nil
  | cons event rest ih =>
    intro other member
    rcases List.mem_cons.mp member with rfl | later
    · exact thinkingType?_transformEvent randomUUID state event
    · exact ih _ other later

end

theorem WellBracketed.take {past future : List Json} (brackets : WellBracketed (past ++ future)) :
    WellBracketed past := by
  rintro earlier event middle rfl
  refine brackets earlier event (middle ++ future) ?_
  rw [List.append_assoc, List.cons_append]

/-- The stream read from an open bracket on. -/
def AllObey : Option Brackets -> List Json -> Prop
  | _, [] => True
  | open?, event :: rest => Obeys open? event ∧ AllObey (stepBrackets open? event) rest

theorem wellBracketed_of_allObey {stream : List Json} (obey : AllObey none stream) : WellBracketed stream := by
  intro past event future same
  subst same
  unfold bracketsAfter
  generalize (none : Option Brackets) = open? at obey ⊢
  induction past generalizing open? with
  | nil => exact obey.1
  | cons first rest ih => exact ih _ obey.2

def wire (type : String) (fields : List (String × Json)) : Json :=
  .object (("type", .string type) :: fields)

def ofRun : List (String × Json) :=
  [("threadId", .string "t"), ("runId", .string "r")]

/-- Distinct ids. -/
def countedId (number : Nat) : String :=
  String.ofList (List.replicate number 'i')

theorem countedId_injective : Function.Injective countedId := by
  intro first second same
  have lengths := congrArg List.length (String.ofList_injective same)
  rw [List.length_replicate, List.length_replicate] at lengths
  exact lengths

theorem countedId_ne_answer (number : Nat) : "answer" ≠ countedId number := by
  intro same
  have letters : ['a', 'n', 's', 'w', 'e', 'r'] = List.replicate number 'i' := String.ofList_injective same
  have first : 'a' ∈ List.replicate number 'i' := letters ▸ List.mem_cons_self
  exact absurd (List.eq_of_mem_replicate first) (by decide)

def thinkingRun : List Json :=
  [wire "RUN_STARTED" ofRun, wire "THINKING_START" [], wire "THINKING_TEXT_MESSAGE_START" [],
   wire "TEXT_MESSAGE_START" [("messageId", .string "answer")],
   wire "THINKING_TEXT_MESSAGE_CONTENT" [("delta", .string "hm")], wire "THINKING_TEXT_MESSAGE_END" [],
   wire "TEXT_MESSAGE_END" [("messageId", .string "answer")], wire "THINKING_END" [], wire "RUN_FINISHED" ofRun]

def answeringRun : List Event :=
  [.runStarted { threadId := "t", runId := "r" }, .textMessageStart { messageId := "answer" },
   .textMessageEnd { messageId := "answer" }, .runFinished { threadId := "t", runId := "r" }]

/-- A run whose start carries a null payload. -/
def nulledRun : List Json :=
  [wire "RUN_STARTED" (("rawEvent", .null) :: ofRun), wire "THINKING_START" [], wire "THINKING_END" [],
   wire "RUN_FINISHED" ofRun]

/-- A run with one span inside another. -/
def nestedRun : List Json :=
  [wire "RUN_STARTED" ofRun, wire "THINKING_START" [], wire "THINKING_START" [], wire "THINKING_END" [],
   wire "THINKING_END" [], wire "RUN_FINISHED" ofRun]

def silentRun : List Event :=
  [.runStarted { threadId := "t", runId := "r" }, .runFinished { threadId := "t", runId := "r" }]

end Boundary
end Middleware
end AgUi
