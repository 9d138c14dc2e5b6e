import AgUi.Chunks.Conservation
import AgUi.Enforce.Enforcement

namespace AgUi
namespace Enforce

open Library Protocol Chunks

/-!
# Expansion of the objects on the wire

`transformChunks` of `Chunks` reads events.  Here it stands between the
transport and enforcement, where an event is still the object it was sent as:
a chunk is read off its object, the synthesized events are written as
objects, and every other object goes through as it is.

Expanding before enforcement and expanding after it keep the same lanes open.
What an opener or a content event takes over of a chunk's unknown properties
is what enforcement would have removed from the chunk.  The one thing left of
a chunk that had nothing else to say is a content event without text.
-/

/-! ## Reading -/

def stringField (event : Properties) (key : String) : Option String :=
  (event.get? key).bind Json.asString?

def tagField (event : Properties) : Tag :=
  match event.get? "subagentRunId" with
  | some (.string owner) => .value owner
  | some .null => .null
  | _ => .absent

def timestampField (event : Properties) : Option Int :=
  match event.get? "timestamp" with
  | some (.number value) => some value.num
  | _ => none

def metadataField (event : Properties) : Option Metadata :=
  match event.get? "metadata" with
  | some (.object members) => some (OrderedMap.ofList members)
  | _ => none

def roleField (event : Properties) : Option TextMessageRole :=
  (stringField event "role").bind fun name =>
    [TextMessageRole.developer, .system, .assistant, .user].find? fun role => roleName role == name

/-- The fields all events have; what nobody described is carried beside them. -/
def readAttributed (type : EventType) (event : Properties) : AttributedEvent where
  timestamp := timestampField event
  rawEvent := event.get? "rawEvent"
  metadata := metadataField event
  extra := event.filterKeys fun key => !(describedFields type).contains key
  subagentRunId := tagField event

def readTextMessageChunk (event : Properties) : TextMessageChunkEvent :=
  { readAttributed .textMessageChunk event with
    messageId := stringField event "messageId"
    role := roleField event
    delta := stringField event "delta"
    name := stringField event "name" }

def readToolCallChunk (event : Properties) : ToolCallChunkEvent :=
  { readAttributed .toolCallChunk event with
    toolCallId := stringField event "toolCallId"
    toolCallName := stringField event "toolCallName"
    parentMessageId := stringField event "parentMessageId"
    delta := stringField event "delta" }

def readReasoningMessageChunk (event : Properties) : ReasoningMessageChunkEvent :=
  { readAttributed .reasoningMessageChunk event with
    messageId := stringField event "messageId"
    delta := stringField event "delta" }

/-- The arm an object is expanded by, if it is a chunk. -/
def readChunk (event : Properties) : Option ChunkArm :=
  match recognisedType event with
  | some .textMessageChunk => some (textChunkArm (readTextMessageChunk event))
  | some .toolCallChunk => some (toolChunkArm (readToolCallChunk event))
  | some .reasoningMessageChunk => some (reasoningChunkArm (readReasoningMessageChunk event))
  | _ => none

/-- What an object of a type closes, be it a type this version knows or not. -/
def closingOf (type : Option EventType) (tag : Tag) : Closing :=
  match type with
  | some .textMessageStart => .lane tag.toOption
  | some .textMessageContent => .lane tag.toOption
  | some .textMessageEnd => .lane tag.toOption
  | some .toolCallStart => .lane tag.toOption
  | some .toolCallArgs => .lane tag.toOption
  | some .toolCallEnd => .lane tag.toOption
  | some .toolCallResult => .lane tag.toOption
  | some .stateSnapshot => .lane tag.toOption
  | some .stateDelta => .lane tag.toOption
  | some .custom => .lane tag.toOption
  | some .stepStarted => .lane tag.toOption
  | some .stepFinished => .lane tag.toOption
  | some .reasoningStart => .lane tag.toOption
  | some .reasoningMessageStart => .lane tag.toOption
  | some .reasoningMessageContent => .lane tag.toOption
  | some .reasoningMessageEnd => .lane tag.toOption
  | some .reasoningEnd => .lane tag.toOption
  | some .runStarted => .allLanes
  | some .runFinished => .allLanes
  | some .runError => .allLanes
  | some .messagesSnapshot => .allLanes
  | some .subagentFinished => closing.terminal tag
  | some .subagentError => closing.terminal tag
  | _ => .nothing

/-! ## Writing -/

def tagValue : Tag -> Option Json
  | .absent => none
  | .null => some .null
  | .value owner => some (.string owner)

def metadataValue (metadata : Option Metadata) : Option Json :=
  metadata.map fun metadata => .object metadata.entries

/-- The properties of a synthesized event that are its own, each with its
value if it has one. -/
def ownFields : Event -> List (String × Option Json)
  | .textMessageStart e =>
    [("type", some (.string EventType.textMessageStart.name)), ("messageId", some (.string e.messageId)),
      ("role", e.role.map fun role => .string (roleName role)), ("name", e.name.map Json.string),
      ("subagentRunId", tagValue e.subagentRunId), ("metadata", metadataValue e.metadata)]
  | .textMessageContent e =>
    [("type", some (.string EventType.textMessageContent.name)), ("messageId", some (.string e.messageId)),
      ("delta", some (.string e.delta)), ("subagentRunId", tagValue e.subagentRunId),
      ("metadata", metadataValue e.metadata), ("rawEvent", e.rawEvent)]
  | .textMessageEnd e =>
    [("type", some (.string EventType.textMessageEnd.name)), ("messageId", some (.string e.messageId)),
      ("subagentRunId", tagValue e.subagentRunId)]
  | .toolCallStart e =>
    [("type", some (.string EventType.toolCallStart.name)), ("toolCallId", some (.string e.toolCallId)),
      ("toolCallName", some (.string e.toolCallName)), ("parentMessageId", e.parentMessageId.map Json.string),
      ("subagentRunId", tagValue e.subagentRunId), ("metadata", metadataValue e.metadata)]
  | .toolCallArgs e =>
    [("type", some (.string EventType.toolCallArgs.name)), ("toolCallId", some (.string e.toolCallId)),
      ("delta", some (.string e.delta)), ("subagentRunId", tagValue e.subagentRunId),
      ("metadata", metadataValue e.metadata), ("rawEvent", e.rawEvent)]
  | .toolCallEnd e =>
    [("type", some (.string EventType.toolCallEnd.name)), ("toolCallId", some (.string e.toolCallId)),
      ("subagentRunId", tagValue e.subagentRunId)]
  | .reasoningMessageStart e =>
    [("type", some (.string EventType.reasoningMessageStart.name)), ("messageId", some (.string e.messageId)),
      ("role", some (.string "reasoning")), ("subagentRunId", tagValue e.subagentRunId),
      ("metadata", metadataValue e.metadata)]
  | .reasoningMessageContent e =>
    [("type", some (.string EventType.reasoningMessageContent.name)), ("messageId", some (.string e.messageId)),
      ("delta", some (.string e.delta)), ("subagentRunId", tagValue e.subagentRunId),
      ("metadata", metadataValue e.metadata), ("rawEvent", e.rawEvent)]
  | .reasoningMessageEnd e =>
    [("type", some (.string EventType.reasoningMessageEnd.name)), ("messageId", some (.string e.messageId)),
      ("subagentRunId", tagValue e.subagentRunId)]
  -- The expansion synthesizes no other event.
  | _ => []

def present (fields : List (String × Option Json)) : List (String × Json) :=
  fields.filterMap fun field => field.2.map fun value => (field.1, value)

/-- A synthesized event as an object: what it took over first, its own properties over it. -/
def write (event : Event) : Properties :=
  event.extra.merge (OrderedMap.ofList (present (ownFields event)))

/-! ## The stage -/

/-- The expansion of chunks, on events as objects. -/
def transformObjects (suppressed : Bool) : Stage TransformState Properties Properties ChunkError :=
  fun state event =>
    match readChunk event with
    | some arm =>
      match expandChunk suppressed state arm with
      | .error error => .error error
      | .ok (after, events) => .ok (after, events.map write)
    | none =>
      match closingOf (recognisedType event) (tagField event) with
      | .lane owner =>
        let closed := closeLane state.lanes owner
        .ok ({ state with lanes := closed.1 }, closed.2.map write ++ [event])
      | .allLanes =>
        let closed := closeAllLanes state.lanes
        .ok ({ state with lanes := closed.1 }, closed.2.map write ++ [event])
      | .nothing => .ok (state, [event])

/-- What is passed on at the end of two stages in a row, and whether both came
to the end of their input. -/
def through {S T A B C E F : Type} (first : Stage S A B E) (second : Stage T B C F) (state : S) (other : T)
    (inputs : List A) : List C × Bool :=
  let early := first.run state inputs
  let late := second.run other early.1
  (late.1, early.2.isOk && late.2.isOk)

/-- The agent's own pipelines: enforcement, then expansion. -/
def enforceThenExpand (suppressed : Bool) (events : List Properties) : List Properties × Bool :=
  through (enforceEvents suppressed) (transformObjects suppressed) [] {} events

/-- `Middleware.runNext` inside the chain: expansion, then enforcement. -/
def expandThenEnforce (suppressed : Bool) (events : List Properties) : List Properties × Bool :=
  through (transformObjects suppressed) (enforceEvents suppressed) {} [] events

/-! ## Objects compared -/

/-- Two objects with the same properties, in whatever order. -/
def Same (event other : Properties) : Prop :=
  ∀ key, event.get? key = other.get? key

theorem Same.refl (event : Properties) : Same event event := fun _ => rfl

@[simp] theorem present_none (name : String) (rest : List (String × Option Json)) :
    present ((name, none) :: rest) = present rest := rfl

@[simp] theorem present_some (name : String) (value : Json) (rest : List (String × Option Json)) :
    present ((name, some value) :: rest) = (name, value) :: present rest := rfl

theorem lookup_present {fields : List (String × Option Json)} (nodup : (fields.map Prod.fst).Nodup) (key : String) :
    (present fields).lookup key = (fields.lookup key).join := by
  induction fields with
  | nil => rfl
  | cons field rest ih =>
    rcases field with ⟨name, value⟩
    rcases List.nodup_cons.mp nodup with ⟨fresh, later⟩
    rw [OrderedMap.lookup_cons_ite]
    cases value with
    | none =>
      rw [present_none]
      by_cases same : key = name
      · subst same
        rw [if_pos rfl]
        have absent : rest.lookup key = none := OrderedMap.lookup_eq_none_of_not_mem fresh
        exact (ih later).trans (by rw [absent]; rfl)
      · rw [if_neg same]
        exact ih later
    | some value =>
      rw [present_some, OrderedMap.lookup_cons_ite]
      by_cases same : key = name
      · rw [if_pos same, if_pos same]
        rfl
      · rw [if_neg same, if_neg same]
        exact ih later

theorem keys_present (fields : List (String × Option Json)) :
    ((present fields).map Prod.fst).Sublist (fields.map Prod.fst) := by
  induction fields with
  | nil => exact List.Sublist.slnil
  | cons field rest ih =>
    rcases field with ⟨name, value⟩
    cases value with
    | none => exact ih.cons name
    | some value => exact ih.cons_cons name

theorem nodup_ownFields (event : Event) : ((ownFields event).map Prod.fst).Nodup := by
  cases event <;> first | exact List.nodup_nil | (simp only [ownFields, List.map_cons, List.map_nil]; decide)

theorem get?_write (event : Event) (key : String) :
    (write event).get? key = ((ownFields event).lookup key).join.or (event.extra.get? key) := by
  have nodup := nodup_ownFields event
  rw [write, OrderedMap.get?_merge, OrderedMap.get?_ofList (nodup.sublist (keys_present _)), lookup_present nodup]

/-! ## Synthesized events are accepted -/

theorem accepts_string (text : String) : (string.parse (some (.string text))).isSome = true := rfl

theorem accepts_literal (text : String) : ((literal text).parse (some (.string text))).isSome = true := by
  simp [literal, Schema.parse, Leaf.accepts]

theorem accepts_absent (schema : Schema) : ((Schema.optional schema).parse none).isSome = true := by
  rw [Schema.parse]
  rfl

theorem accepts_optionalString (text : Option String) :
    (optionalString.parse (text.map Json.string)).isSome = true := by
  cases text with
  | none => exact accepts_absent string
  | some text => exact accepts_string text

theorem accepts_role (role : Option TextMessageRole) :
    ((Schema.optional textMessageRoleSchema).parse (role.map fun role => .string (roleName role))).isSome = true := by
  cases role with
  | none => exact accepts_absent textMessageRoleSchema
  | some role => cases role <;> rfl

theorem accepts_tag {tag : Tag} (tagged : tag ≠ .null) :
    ((Schema.optional subagentRunIdSchema).parse (tagValue tag)).isSome = true := by
  cases tag with
  | absent => exact accepts_absent subagentRunIdSchema
  | null => exact absurd rfl tagged
  | value owner => exact accepts_string owner

theorem accepts_metadata (metadata : Option Metadata) :
    ((Schema.optional metadataSchema).parse (metadataValue metadata)).isSome = true := by
  cases metadata <;> rfl

theorem accepts_rawEvent {rawEvent : Option Json} (given : rawEvent ≠ some .null) :
    (optionalValue.parse rawEvent).isSome = true := by
  cases rawEvent with
  | none => exact accepts_absent (.leaf .notNull)
  | some value => cases value <;> first | rfl | exact absurd rfl given

/-- The types of the synthesized events. -/
def synthesizedTypes : List EventType :=
  [.textMessageStart, .textMessageContent, .textMessageEnd, .toolCallStart, .toolCallArgs, .toolCallEnd,
    .reasoningMessageStart, .reasoningMessageContent, .reasoningMessageEnd]

theorem synthesizedTypes_plain : ∀ type ∈ synthesizedTypes,
    type ∈ knownEventTypes ∧ ∀ entry ∈ eventShape type, entry.2.isPlain = true := by
  decide

/-- The own properties of an event are what the schema of a type accepts. -/
structure Writes (event : Event) (type : EventType) : Prop where
  synthesized : type ∈ synthesizedTypes
  typed : (ownFields event).lookup "type" = some (some (.string type.name))
  accepted : ∀ entry ∈ eventShape type,
    (entry.2.parse ((ownFields event).lookup entry.1).join).isSome = true
  owned : ∀ key ∈ (ownFields event).map Prod.fst, key ∈ describedFields type

/-- Enforcement leaves a synthesized event with its own properties. -/
theorem enforce_write {event : Event} {type : EventType} (writes : Writes event type)
    (apart : ∀ key ∈ describedFields type, ((ownFields event).lookup key).join = none ->
      event.extra.get? key = none)
    {other : Event} (same : ownFields other = ownFields event) (bare : other.extra = OrderedMap.empty) :
    ∃ enforced deviations,
      enforceEvent (write event) = .ok (some enforced, deviations) ∧ Same enforced (write other) := by
  rcases synthesizedTypes_plain type writes.synthesized with ⟨known, plain⟩
  have own : ∀ key ∈ describedFields type,
      (write event).get? key = ((ownFields event).lookup key).join := by
    intro key described
    rw [get?_write]
    cases held : ((ownFields event).lookup key).join with
    | none => rw [apart key described held, Option.or_none]
    | some value => rfl
  have recognised : recognisedType (write event) = some type := by
    have typed : (write event).get? "type" = some (.string type.name) := by
      rw [get?_write, writes.typed]
      rfl
    rw [recognisedType, typed]
    exact find_name known
  have accepts : ∀ entry ∈ eventShape type,
      (entry.2.parse ((write event).get? entry.1)).isSome = true := by
    intro entry member
    rw [own entry.1 (List.mem_map.mpr ⟨entry, member, rfl⟩)]
    exact writes.accepted entry member
  rcases enforceEvent_accepts recognised plain accepts with ⟨enforced, deviations, done⟩
  refine ⟨enforced, deviations, done, ?_⟩
  intro key
  rw [enforceEvent_plain done recognised fun field member => plain (key, field) member, get?_write other key,
    same, bare, OrderedMap.get?_empty, Option.or_none]
  split
  · rename_i described
    exact own key described
  · rename_i undescribed
    rw [OrderedMap.lookup_eq_none_of_not_mem fun member => undescribed (writes.owned key member)]
    rfl

theorem writes_start (pending : PendingStream) (metadata : Option Metadata)
    (tagged : pending.subagentRunId ≠ .null) :
    Writes (pending.startEvent metadata) (pending.startEvent metadata).type := by
  have text : EventType.textMessageStart ∈ synthesizedTypes ∧
      ∀ key ∈ ["type", "messageId", "role", "name", "subagentRunId", "metadata"],
        key ∈ describedFields .textMessageStart := by decide
  have tool : EventType.toolCallStart ∈ synthesizedTypes ∧
      ∀ key ∈ ["type", "toolCallId", "toolCallName", "parentMessageId", "subagentRunId", "metadata"],
        key ∈ describedFields .toolCallStart := by decide
  have reasoning : EventType.reasoningMessageStart ∈ synthesizedTypes ∧
      ∀ key ∈ ["type", "messageId", "role", "subagentRunId", "metadata"],
        key ∈ describedFields .reasoningMessageStart := by decide
  cases pending with
  | text fields | tool fields | reasoning fields =>
    refine ⟨by first | exact text.1 | exact tool.1 | exact reasoning.1, rfl, ?_,
      by first | exact text.2 | exact tool.2 | exact reasoning.2⟩
    repeat' first
      | exact List.forall_mem_nil _
      | refine List.forall_mem_cons.mpr ⟨?_, ?_⟩
    all_goals first
      | exact accepts_literal _
      | exact accepts_absent _
      | exact accepts_metadata metadata
      | exact accepts_tag tagged
      | exact accepts_string _
      | exact accepts_role (some fields.role)
      | exact accepts_optionalString _

theorem writes_content (pending : PendingStream) (base : BaseEvent) (delta : String) {owner : Tag}
    (tagged : owner ≠ .null) (given : base.rawEvent ≠ some .null) :
    Writes (pending.contentEvent base delta owner) (pending.contentEvent base delta owner).type := by
  have known : ∀ content ∈ [(EventType.textMessageContent, "messageId"), (.reasoningMessageContent, "messageId"),
      (.toolCallArgs, "toolCallId")], content.1 ∈ synthesizedTypes ∧
        ∀ key ∈ ["type", content.2, "delta", "subagentRunId", "metadata", "rawEvent"],
          key ∈ describedFields content.1 := by decide
  have text := known _ (.head _)
  have reasoning := known _ (.tail _ (.head _))
  have tool := known _ (.tail _ (.tail _ (.head _)))
  cases pending with
  | text fields | tool fields | reasoning fields =>
    refine ⟨by first | exact text.1 | exact tool.1 | exact reasoning.1, rfl, ?_,
      by first | exact text.2 | exact tool.2⟩
    repeat' first
      | exact List.forall_mem_nil _
      | refine List.forall_mem_cons.mpr ⟨?_, ?_⟩
    all_goals first
      | exact accepts_literal _
      | exact accepts_rawEvent given
      | exact accepts_metadata base.metadata
      | exact accepts_tag tagged
      | exact accepts_string _
      | exact accepts_absent _

theorem writes_end (pending : PendingStream) (tagged : pending.subagentRunId ≠ .null) :
    Writes pending.endEvent pending.endEvent.type := by
  have known : ∀ ending ∈ [(EventType.textMessageEnd, "messageId"), (.reasoningMessageEnd, "messageId"),
      (.toolCallEnd, "toolCallId")], ending.1 ∈ synthesizedTypes ∧
        ∀ key ∈ ["type", ending.2, "subagentRunId"], key ∈ describedFields ending.1 := by decide
  have text := known _ (.head _)
  have reasoning := known _ (.tail _ (.head _))
  have tool := known _ (.tail _ (.tail _ (.head _)))
  cases pending with
  | text fields | tool fields | reasoning fields =>
    refine ⟨by first | exact text.1 | exact tool.1 | exact reasoning.1, rfl, ?_,
      by first | exact text.2 | exact tool.2⟩
    repeat' first
      | exact List.forall_mem_nil _
      | refine List.forall_mem_cons.mpr ⟨?_, ?_⟩
    all_goals first
      | exact accepts_literal _
      | exact accepts_absent _
      | exact accepts_tag tagged
      | exact accepts_string _

end Enforce
end AgUi
