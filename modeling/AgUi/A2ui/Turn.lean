import AgUi.A2ui.Stream
import AgUi.Verify.Insertion

namespace AgUi
namespace A2ui

open Library Protocol Chunks Apply Middleware Verify

/-!
# A turn of the A2UI middleware

`A2UIMiddleware.run` recovers what the history left unanswered, adds a user
action to it, runs the agent behind it and announces the recovered results
after the `RUN_STARTED` of the stream that comes back.

The tool and the guidelines it adds for the agent are left out: nothing reads
them on the way back.
-/

/-! ## The input -/

/-- `A2UI_SCHEMA_CONTEXT_DESCRIPTION`. -/
def a2uiSchemaContextDescription : String :=
  "A2UI Component Schema — available components for generating UI surfaces. " ++
    "Use these component names and properties when creating A2UI operations."

/-- What counts as true in JavaScript. -/
def isTruthy : Json -> Bool
  | .null => false
  | .bool value => value
  | .number value => value ≠ 0
  | .string value => value ≠ ""
  | _ => true

/-- `value ?? undefined`. -/
def present (value : Option Json) : Option Json :=
  value.filter fun value => !value.isNull

/-- `Object.keys(value).length > 0`. -/
def hasKeys : Json -> Bool
  | .object members => !members.isEmpty
  | .array items => !items.isEmpty
  | .string value => value ≠ ""
  | _ => false

section Turn

variable (reading : Reading) (sha256 : String -> String) (config : A2UIMiddlewareConfig) (randomUUID : Nat -> String)
  (applyPatch : ApplyPatch) (suppressed : Bool)

/-- The component schema among the context entries, where it can be parsed. -/
def schemaContext (context : List (String × String)) : Option Json :=
  (context.find? fun entry => entry.1 = a2uiSchemaContextDescription).bind fun entry => reading.parse entry.2

/-- The id of the catalog the frontend registered. -/
def extractFrontendCatalogId (context : List (String × String)) : Option String :=
  (((schemaContext reading context).bind fun parsed => parsed.member? "catalogId").bind Json.asString?).filter
    fun id => id ≠ ""

/-- The catalog to validate against: the configured one, then that of the context. -/
def getValidationCatalog (context : List (String × String)) : Option Json :=
  ((config.schema.or (schemaContext reading context)).bind fun schema => schema.member? "components").bind
    fun components => if hasKeys components then some (.object [("components", components)]) else none

def schemaIsEmpty (schema : Json) : Bool :=
  match schema with
  | .array items => items.isEmpty
  | schema => !hasKeys ((present (schema.member? "components")).getD (.object []))

/-- The configured schema takes the place of the frontend's. -/
def injectSchemaContext (input : A2UIInput) : A2UIInput :=
  match config.schema with
  | none => input
  | some schema =>
    if schemaIsEmpty schema then input
    else
      { input with
        context := input.context.filter (fun entry => entry.1 ≠ a2uiSchemaContextDescription) ++
          [(a2uiSchemaContextDescription, reading.stringify schema)] }

/-- The sentence by which the model is told of a user's action. -/
def formatUserActionResult (action : Json) : String :=
  let named := fun (key unknown : String) => ((present (action.member? key)).map reading.display).getD unknown
  let component := ((action.member? "sourceComponentId").filter isTruthy).map fun id =>
    " (component: " ++ reading.display id ++ ")"
  let context := ((action.member? "context").filter isTruthy).map reading.stringify
  "User performed action \"" ++ named "name" "unknown_action" ++ "\" on surface \"" ++
    named "surfaceId" "unknown_surface" ++ "\"" ++ component.getD "" ++ ". Context: " ++ context.getD "\x7b\x7d"

/-- A user action is appended as a call of the logging tool and its result. -/
def processUserAction (input : A2UIInput) : A2UIInput :=
  match ((input.forwardedProps.bind fun props => props.member? "a2uiAction").bind fun action =>
      action.member? "userAction").filter isTruthy with
  | none => input
  | some userAction =>
    let actionId := sha256 input.runId
    let call : ToolCall :=
      { id := actionId, function := { name := logA2UIEventToolName, arguments := reading.stringify userAction } }
    { input with
      messages := input.messages ++
        [{ id := "a2ui-action-assistant-" ++ actionId
           role := .assistant
           content := some (.text "")
           toolCalls := some [call] },
          { id := "a2ui-action-result-" ++ actionId
            role := .tool
            toolCallId := some actionId
            content := some (.text (formatUserActionResult reading userAction)) }] }

/-! ## The run -/

/-- A recovered result and the failure of its surface. -/
def announcement (result : ToolCallResultEvent) : List Action :=
  .answers result ::
    shows [buildLifecycleActivity config result.toolCallId
      [("status", .string "failed"),
        ("error", .string "The previous interface did not finish. Please try again.")]]

/-- After a `RUN_STARTED` the recovered results are announced. -/
def announce (results : List ToolCallResultEvent) : Action -> List Action
  | .forwards (.runStarted event) => .forwards (.runStarted event) :: results.flatMap (announcement config)
  | action => [action]

/-- What is seen of the agent's stream, once the input is made ready. -/
def turnStream (input : A2UIInput) (agentMessages : List Message) (events : List Event) : List Action :=
  let frontendCatalogId := extractFrontendCatalogId reading input.context
  let recovery := recoverUnansweredCalls config.getA2UIToolNames randomUUID input
  let enhanced := processUserAction reading sha256 recovery.1
  let finalInput := injectSchemaContext reading config enhanced
  let catalog := getValidationCatalog reading config finalInput.context
  processStream reading config frontendCatalogId catalog (fun position => randomUUID (recovery.2.length + position))
    (runNextWithState applyPatch suppressed finalInput.toRunInput agentMessages events)

/-- The actions of a turn in which the agent emits `events`. -/
def run (input : A2UIInput) (agentMessages : List Message) (events : List Event) : List Action :=
  (turnStream reading sha256 config randomUUID applyPatch suppressed input agentMessages events).flatMap
    (announce config (recoverUnansweredCalls config.getA2UIToolNames randomUUID input).2)

end Turn

/-! ## What is put in -/

/-- The entities only the middleware knows of. -/
def Strange (randomUUID : Nat -> String) : Bucket -> String -> Prop
  | .message, id => ∃ position, id = randomUUID position
  | .activity, id => ∃ discriminator, id = surfaceMessageId discriminator
  | _, _ => False

/-- The agent names no id drawn here, and no tagged delta patches a surface. -/
structure Undisturbed (randomUUID : Nat -> String) (events : List Event) : Prop where
  ids : ∀ event ∈ events, ∀ position, Key.owner .message (randomUUID position) ∉ named event
  deltas : ∀ event : ActivityDeltaEvent, .activityDelta event ∈ events ->
    event.subagentRunId.toOption ≠ none -> ∀ discriminator, event.messageId ≠ surfaceMessageId discriminator

theorem named_of_compared {event : Event} {key : Key} (compared : key ∈ comparedKeys event) :
    key ∈ named event := by
  cases event with
  | activitySnapshot e | toolCallResult e => cases compared
  | activityDelta e =>
    rw [comparedKeys] at compared
    split at compared
    · exact compared
    · cases compared
  | _ => exact compared

theorem delta_of_compared {event : Event} {id : String} (compared : Key.owner .activity id ∈ comparedKeys event) :
    ∃ delta,
      event = .activityDelta delta ∧ delta.subagentRunId.toOption ≠ none ∧ delta.messageId = id := by
  cases event with
  | activityDelta e =>
    rw [comparedKeys] at compared
    split at compared
    · rename_i tagged
      refine ⟨e, rfl, Option.isSome_iff_ne_none.mp tagged, ?_⟩
      cases List.mem_singleton.mp compared
      rfl
    · cases compared
  | reasoningEncryptedValue e =>
    cases subtype : e.subtype <;> simp [comparedKeys, named, subtype] at compared
  | _ => simp [comparedKeys, named] at compared

theorem Undisturbed.unaware {randomUUID : Nat -> String} {events : List Event}
    (undisturbed : Undisturbed randomUUID events) {event : Event} (member : event ∈ events) :
    Unaware (Strange randomUUID) event := by
  intro bucket id strange compared
  cases bucket with
  | message =>
    rcases strange with ⟨position, rfl⟩
    exact undisturbed.ids event member position (named_of_compared compared)
  | activity =>
    rcases strange with ⟨discriminator, rfl⟩
    rcases delta_of_compared compared with ⟨delta, rfl, tagged, same⟩
    exact undisturbed.deltas delta member tagged discriminator same
  | toolCall | reasoning => exact strange

/-! ## What an accepted stream is turned into -/

section Carries

variable {reading : Reading} {config : A2UIMiddlewareConfig} {frontendCatalogId : Option String} {catalog : Option Json}
  {randomUUID drawn : Nat -> String} {results : List ToolCallResultEvent}

/-- Put where the record of the agent's stream is `record`, the actions are
admitted and leave that record at `after`. -/
def Carries (config : A2UIMiddlewareConfig) (randomUUID : Nat -> String) (results : List ToolCallResultEvent)
    (record : Record) (actions : List Action) (after : Record) : Prop :=
  ∀ other, SameApart (Strange randomUUID) record other ->
    Admits other (output (actions.flatMap (announce config results))) ∧
      SameApart (Strange randomUUID) after (advance other (output (actions.flatMap (announce config results))))

theorem Carries.append {record middle after : Record} {first second : List Action}
    (one : Carries config randomUUID results record first middle)
    (two : Carries config randomUUID results middle second after) :
    Carries config randomUUID results record (first ++ second) after := by
  intro other same
  have early := one other same
  have late := two _ early.2
  rw [List.flatMap_append, output_append]
  refine ⟨(admits_append _ _ _).mpr ⟨early.1, late.1⟩, ?_⟩
  rw [advance, List.foldl_append]
  exact late.2

/-- The results recovered have ids drawn for them. -/
def Drawn (randomUUID : Nat -> String) (results : List ToolCallResultEvent) : Prop :=
  ∀ result ∈ results, ∃ position, result.messageId = randomUUID position

/-- A result of the middleware under an id drawn for it, or a surface. -/
inductive Ours (randomUUID : Nat -> String) : Action -> Prop
  | answers (event : ToolCallResultEvent) (position : Nat) (id : event.messageId = randomUUID position) :
      Ours randomUUID (.answers event)
  | shows (surface : Surface) : Ours randomUUID (.shows surface.event)

variable {actions : List Action}

section

variable (ours : ∀ action ∈ actions, Ours randomUUID action)

include ours

theorem harmless_ours {event : Event} (member : event ∈ output actions) : Harmless (Strange randomUUID) event := by
  rcases List.mem_filterMap.mp member with ⟨action, among, emitted⟩
  cases ours action among with
  | answers event position id =>
    cases emitted
    exact harmless_toolCallResult ⟨position, id⟩
  | shows surface =>
    cases emitted
    exact harmless_activitySnapshot ⟨surface.discriminator, rfl⟩

theorem announce_ours : actions.flatMap (announce config results) = actions := by
  have same : ∀ action ∈ actions, announce config results action = [action] := by
    intro action member
    cases ours action member <;> rfl
  rw [List.flatMap_congr same, List.flatMap_singleton']

theorem carries_ours {record : Record} (active : actions = [] ∨ record .phase = .active) :
    Carries config randomUUID results record actions record := by
  intro other same
  rw [announce_ours ours]
  refine same.inserted (fun event => harmless_ours ours) ?_
  rcases active with rfl | going
  · exact .inl rfl
  · exact .inr going

end

variable {action : Action}

theorem ours_shows {surfaces : List Surface} (member : action ∈ shows surfaces) : Ours randomUUID action := by
  rcases List.mem_map.mp member with ⟨surface, _, rfl⟩
  exact .shows surface

theorem ours_announcements (drawn : Drawn randomUUID results)
    (member : action ∈ results.flatMap (announcement config)) : Ours randomUUID action := by
  rcases List.mem_flatMap.mp member with ⟨result, among, member⟩
  rcases List.mem_cons.mp member with rfl | shown
  · rcases drawn result among with ⟨position, id⟩
    exact .answers result position id
  · exact ours_shows shown

/-- An event of the agent, with what is announced after it. -/
theorem carries_forwards (drawn : Drawn randomUUID results) {record : Record} {event : Event}
    (allowed : Allows record event) (unaware : Unaware (Strange randomUUID) event) :
    Carries config randomUUID results record [.forwards event] (next record event) := by
  intro other same
  have step := same.step unaware allowed
  rw [List.flatMap_singleton]
  cases event with
  | runStarted start =>
    have active : next record (.runStarted start) .phase = .active := phase_next _ _
    have harmless : ∀ event ∈ output (results.flatMap (announcement config)),
        Harmless (Strange randomUUID) event :=
      fun event => harmless_ours fun action => ours_announcements drawn
    have announced := step.2.inserted harmless (.inr active)
    exact ⟨⟨step.1, announced.1⟩, announced.2⟩
  | _ => exact ⟨⟨step.1, trivial⟩, step.2⟩

theorem carries_flush (drawn : Drawn randomUUID results) {record : Record} {held : Option EventWithState}
    (admitted : Admits record (held.toList.map EventWithState.event))
    (unaware : ∀ event ∈ held.toList.map EventWithState.event, Unaware (Strange randomUUID) event) :
    Carries config randomUUID results record (flush held)
      (advance record (held.toList.map EventWithState.event)) := by
  cases held with
  | none => exact fun _ same => ⟨trivial, same⟩
  | some held => exact carries_forwards drawn admitted.1 (unaware _ List.mem_cons_self)

variable {state : SurfaceState}

/-- Surfaces are shown ahead of an event only inside a run. -/
theorem active_of_showBefore {record : Record} {observed : EventWithState}
    {held : Option EventWithState} (heldFinishes : ∀ one ∈ held, isHeld one = true)
    (admitted : Admits record (held.toList.map EventWithState.event ++ [observed.event])) :
    (showBefore reading config frontendCatalogId catalog state observed.event).2 = [] ∨ record .phase = .active := by
  cases held with
  | some one =>
    have finishes : one.event.type = .runFinished := of_decide_eq_true (heldFinishes one rfl)
    have phase := admitted.1.phase
    cases event : one.event with
    | runFinished e =>
      rw [event] at phase
      exact .inr phase
    | _ =>
      rw [event] at finishes
      cases finishes
  | none =>
    have phase := admitted.1.phase
    cases event : observed.event with
    | toolCallStart e | toolCallArgs e =>
      rw [event] at phase
      exact .inr phase
    | _ => exact .inl rfl

/-- A tool result leaves the run going on. -/
theorem active_of_showAfter {record : Record} {event : Event} (allowed : Allows record event) :
    (showAfter reading config state event).2 = [] ∨ next record event .phase = .active := by
  have phase := allowed.phase
  cases event with
  | toolCallResult e => exact .inr ((phase_next _ _).trans phase)
  | _ => exact .inl rfl

theorem carries_shows {record : Record} {surfaces : List Surface} (active : surfaces = [] ∨ record .phase = .active) :
    Carries config randomUUID results record (shows surfaces) record := by
  refine carries_ours (fun action => ours_shows) ?_
  rcases active with rfl | going
  · exact .inl rfl
  · exact .inr going

/-- A step carries what was held and the event up to what is then held. -/
theorem carries_onNext (drawn : Drawn randomUUID results) {state : StreamState} {record : Record}
    {observed : EventWithState} (heldFinishes : ∀ one ∈ state.heldRunFinished, isHeld one = true)
    (admitted : Admits record (state.heldRunFinished.toList.map EventWithState.event ++ [observed.event]))
    (unaware : ∀ event ∈ state.heldRunFinished.toList.map EventWithState.event ++ [observed.event],
      Unaware (Strange randomUUID) event) :
    Carries config randomUUID results record (onNext reading config frontendCatalogId catalog state observed).2
      (advance record (handedOn (onNext reading config frontendCatalogId catalog state observed).2)) := by
  have parts := (admits_append _ _ _).mp admitted
  have shown : Carries config randomUUID results record
      (shows (showBefore reading config frontendCatalogId catalog state.surfaces observed.event).2) record :=
    carries_shows (active_of_showBefore heldFinishes admitted)
  have flushed := shown.append
    (carries_flush drawn parts.1 (List.forall_mem_append.mp unaware).1)
  have last : Unaware (Strange randomUUID) observed.event :=
    unaware _ (List.mem_append_right _ (List.mem_singleton.mpr rfl))
  have forwarded := flushed.append (carries_forwards drawn parts.2.1 last)
  have shownAfter : Carries config randomUUID results _ (shows (showAfter reading config
      (showBefore reading config frontendCatalogId catalog state.surfaces observed.event).1 observed.event).2) _ :=
    carries_shows (active_of_showAfter parts.2.1)
  have detected := forwarded.append shownAfter
  rw [List.append_assoc, List.singleton_append] at detected
  unfold onNext
  dsimp only
  cases event : observed.event with
  | runFinished finish =>
    rw [event] at flushed
    simp only [handedOn_append, handedOn_shows, handedOn_flush, List.nil_append]
    exact flushed
  | _ =>
    rw [event] at detected
    simp only [handedOn_append, handedOn_shows, handedOn_flush, handedOn_forwards, List.nil_append]
    rw [advance, List.foldl_append]
    exact detected

theorem carries_hear (drawn : Drawn randomUUID results) {state : StreamState} {record : Record}
    {observed : List EventWithState} (heldFinishes : ∀ one ∈ state.heldRunFinished, isHeld one = true)
    (admitted : Admits record
      (state.heldRunFinished.toList.map EventWithState.event ++ observed.map EventWithState.event))
    (unaware : ∀ event,
      event ∈ state.heldRunFinished.toList.map EventWithState.event ++ observed.map EventWithState.event ->
        Unaware (Strange randomUUID) event) :
    Carries config randomUUID results record (hear reading config frontendCatalogId catalog state observed).2
      (advance record (handedOn (hear reading config frontendCatalogId catalog state observed).2)) := by
  induction observed generalizing state record with
  | nil => exact fun _ same => ⟨trivial, same⟩
  | cons one rest ih =>
    have hands : handedOn (onNext reading config frontendCatalogId catalog state one).2 ++
        (onNext reading config frontendCatalogId catalog state one).1.heldRunFinished.toList.map
          EventWithState.event =
        state.heldRunFinished.toList.map EventWithState.event ++ [one.event] := onNext_hands state one
    rw [List.map_cons, ← List.singleton_append, ← List.append_assoc] at admitted unaware
    have step : Carries config randomUUID results record
        (onNext reading config frontendCatalogId catalog state one).2 _ :=
      carries_onNext drawn heldFinishes ((admits_append _ _ _).mp admitted).1
        (List.forall_mem_append.mp unaware).1
    rw [← hands, List.append_assoc] at admitted unaware
    have stillFinishes : ∀ held,
        held ∈ (onNext reading config frontendCatalogId catalog state one).1.heldRunFinished ->
          isHeld held = true := by
      intro held member
      rw [held_onNext] at member
      exact (Option.mem_filter_iff.mp member).2
    have later := ih stillFinishes ((admits_append _ _ _).mp admitted).2
      (List.forall_mem_append.mp unaware).2
    have whole := step.append later
    rw [hear]
    dsimp only
    rw [handedOn_append, advance, List.foldl_append]
    exact whole

variable {ownIds : Nat -> String}

theorem ours_settle (own : ∀ position, ∃ other, ownIds position = randomUUID other) {messages : List Message}
    (member : action ∈ settle reading config catalog ownIds state messages) : Ours randomUUID action := by
  rcases List.mem_flatten.mp member with ⟨settled, among, member⟩
  rcases List.mem_mapIdx.mp among with ⟨position, _, rfl⟩
  rcases List.mem_cons.mp member with rfl | shown
  · rcases own position with ⟨other, same⟩
    exact .answers _ other same
  · exact ours_shows shown

/-- Only the end of a stream answers, under ids drawn for it. -/
theorem drawn_of_answers {source : List EventWithState × Except ChunkError TransformState}
    {event : ToolCallResultEvent}
    (member : .answers event ∈ processStream reading config frontendCatalogId catalog ownIds source) :
    ∃ position, event.messageId = ownIds position := by
  rcases List.mem_append.mp member with heard | ended
  · have silent : answersOf (hear reading config frontendCatalogId catalog {} source.1).2 = [] :=
      hear_silent {} source.1
    rw [answersOf, List.map_eq_nil_iff, List.filterMap_eq_nil_iff] at silent
    cases silent _ heard
  · unfold onEnd at ended
    split at ended
    · rcases List.mem_append.mp ended with flushed | failed
      · rcases List.mem_map.mp flushed with ⟨_, _, impossible⟩
        cases impossible
      · cases List.mem_singleton.mp failed
    · split at ended
      · cases List.mem_singleton.mp ended
      · rcases List.mem_append.mp ended with settled | last
        · have own : Ours ownIds (.answers event) := ours_settle (fun position => ⟨position, rfl⟩) settled
          cases own with
          | answers _ position id => exact ⟨position, id⟩
        · simp at last

theorem carries_end (record : Record) (ends : action = .completes ∨ ∃ error, action = .fails error) :
    Carries config randomUUID results record [action] record := by
  intro other same
  rcases ends with rfl | ⟨error, rfl⟩ <;> exact ⟨trivial, same⟩

theorem carries_onEnd (own : ∀ position, ∃ other, ownIds position = randomUUID other)
    (drawn : Drawn randomUUID results) {state : StreamState} {record : Record}
    (heldFinishes : ∀ one ∈ state.heldRunFinished, isHeld one = true)
    (admitted : Admits record (state.heldRunFinished.toList.map EventWithState.event))
    (unaware : ∀ event ∈ state.heldRunFinished.toList.map EventWithState.event,
      Unaware (Strange randomUUID) event) (ending : Except ChunkError TransformState) :
    Carries config randomUUID results record (onEnd reading config catalog ownIds state ending)
      (advance record (state.heldRunFinished.toList.map EventWithState.event)) := by
  unfold onEnd
  cases ending with
  | error error => exact (carries_flush drawn admitted unaware).append (carries_end _ (.inr ⟨_, rfl⟩))
  | ok final =>
    cases held : state.heldRunFinished with
    | none => exact carries_end record (.inl rfl)
    | some one =>
      rw [held] at admitted unaware heldFinishes
      have finishes : one.event.type = .runFinished := of_decide_eq_true (heldFinishes one rfl)
      have active : record .phase = .active := by
        have phase := admitted.1.phase
        cases event : one.event with
        | runFinished e =>
          rw [event] at phase
          exact phase
        | _ =>
          rw [event] at finishes
          cases finishes
      have settled : Carries config randomUUID results record
          (settle reading config catalog ownIds state.surfaces one.messages) record :=
        carries_ours (fun action => ours_settle own) (.inr active)
      exact settled.append ((carries_forwards drawn admitted.1 (unaware _ List.mem_cons_self)).append
        (carries_end _ (.inl rfl)))

/-- What is emitted for an accepted stream is accepted. -/
theorem carries_processStream
    (own : ∀ position, ∃ other, ownIds position = randomUUID other) (drawn : Drawn randomUUID results)
    (source : List EventWithState × Except ChunkError TransformState)
    (admitted : Admits Record.blank (source.1.map EventWithState.event))
    (undisturbed : Undisturbed randomUUID (source.1.map EventWithState.event)) :
    Admits Record.blank (output ((processStream reading config frontendCatalogId catalog ownIds source).flatMap
      (announce config results))) := by
  have unaware : ∀ event ∈ source.1.map EventWithState.event, Unaware (Strange randomUUID) event :=
    fun event => undisturbed.unaware
  have hands : handedOn (hear reading config frontendCatalogId catalog {} source.1).2 ++
      (hear reading config frontendCatalogId catalog {} source.1).1.heldRunFinished.toList.map EventWithState.event =
        source.1.map EventWithState.event := hear_hands {} source.1
  have heard : Carries config randomUUID results Record.blank
      (hear reading config frontendCatalogId catalog {} source.1).2 _ :=
    carries_hear drawn (fun _ none => nomatch none) admitted unaware
  rw [← hands] at admitted unaware
  have finishes : ∀ held,
      held ∈ (hear reading config frontendCatalogId catalog {} source.1).1.heldRunFinished -> isHeld held = true := by
    intro held member
    rw [held_hear] at member
    split at member
    · cases member
    · exact (Option.mem_filter_iff.mp member).2
  have ended : Carries config randomUUID results _ (onEnd reading config catalog ownIds _ source.2) _ :=
    carries_onEnd own drawn finishes ((admits_append _ _ _).mp admitted).2
      (List.forall_mem_append.mp unaware).2 source.2
  exact ((heard.append ended) Record.blank (.refl _)).1

end Carries

/-! ## How often a result is announced -/

/-- The event is the tool result with an id. -/
def isResultWith (messageId : String) : Event -> Bool
  | .toolCallResult event => event.messageId = messageId
  | _ => false

/-- How often the output has the tool result with an id. -/
def timesAnswered (messageId : String) (actions : List Action) : Nat :=
  (output actions).countP (isResultWith messageId)

theorem timesAnswered_append (messageId : String) (first second : List Action) :
    timesAnswered messageId (first ++ second) = timesAnswered messageId first + timesAnswered messageId second := by
  rw [timesAnswered, output_append, List.countP_append]
  rfl

section Counting

variable {reading : Reading} {config : A2UIMiddlewareConfig} {frontendCatalogId : Option String} {catalog : Option Json}
  {results : List ToolCallResultEvent} {messageId : String}

theorem timesAnswered_shows (surfaces : List Surface) : timesAnswered messageId (shows surfaces) = 0 := by
  refine List.countP_eq_zero.mpr fun event member => ?_
  rcases List.mem_filterMap.mp member with ⟨action, among, emitted⟩
  rcases List.mem_map.mp among with ⟨surface, _, rfl⟩
  cases emitted
  exact Bool.false_ne_true

theorem timesAnswered_announcements (results : List ToolCallResultEvent) :
    timesAnswered messageId (results.flatMap (announcement config)) =
      results.countP fun result => result.messageId = messageId := by
  induction results with
  | nil => rfl
  | cons result rest ih =>
    have own : timesAnswered messageId (announcement config result) =
        if result.messageId = messageId then 1 else 0 := by
      rw [announcement, ← List.singleton_append, timesAnswered_append, timesAnswered_shows]
      simp [timesAnswered, output, Action.emitted, isResultWith, List.countP_cons]
    rw [List.flatMap_cons, timesAnswered_append, ih, own, List.countP_cons, Nat.add_comm]
    simp

/-- Announcing repeats the recovered results for every `RUN_STARTED`. -/
theorem timesAnswered_announce (actions : List Action) :
    timesAnswered messageId (actions.flatMap (announce config results)) =
      timesAnswered messageId actions +
        (handedOn actions).countP (fun event => event.type = .runStarted) *
          results.countP fun result => result.messageId = messageId := by
  induction actions with
  | nil => simp [timesAnswered, output, handedOn]
  | cons action rest ih =>
    have first : timesAnswered messageId (announce config results action) = timesAnswered messageId [action] +
        (handedOn [action]).countP (fun event => event.type = .runStarted) *
          results.countP fun result => result.messageId = messageId := by
      cases action with
      | forwards event =>
        cases event with
        | runStarted start =>
          have announced : timesAnswered messageId (announce config results (.forwards (.runStarted start))) =
              0 + timesAnswered messageId (results.flatMap (announcement config)) := by
            rw [announce, ← List.singleton_append, timesAnswered_append]
            rfl
          rw [announced, timesAnswered_announcements]
          simp [timesAnswered, output, Action.emitted, isResultWith, handedOn, Action.isResult, Event.type]
        | _ => exact (Nat.add_eq_left.mpr (Nat.zero_mul _)).symm
      | _ => exact (Nat.add_eq_left.mpr (Nat.zero_mul _)).symm
    have counted := timesAnswered_append messageId [action] rest
    have handed := handedOn_append [action] rest
    rw [List.singleton_append] at counted handed
    rw [List.flatMap_cons, timesAnswered_append, ih, first, counted, handed, List.countP_append,
      Nat.add_mul]
    omega

theorem timesAnswered_eq_zero {actions : List Action}
    (handed : ∀ event ∈ handedOn actions, isResultWith messageId event = false)
    (own : ∀ event, .answers event ∈ actions -> event.messageId ≠ messageId) :
    timesAnswered messageId actions = 0 := by
  refine List.countP_eq_zero.mpr fun event member => ?_
  rcases List.mem_filterMap.mp member with ⟨action, among, emitted⟩
  cases action with
  | forwards one =>
    cases emitted
    rw [handed event (List.mem_filterMap.mpr ⟨.forwards event, List.mem_filter.mpr ⟨among, rfl⟩, rfl⟩)]
    exact Bool.false_ne_true
  | answers one =>
    cases emitted
    rw [isResultWith, decide_eq_true_iff]
    exact own one among
  | shows one =>
    cases emitted
    exact Bool.false_ne_true
  | _ => cases emitted

end Counting

/-! ## Recovery of a turn -/

section Turn

variable (reading : Reading) (sha256 : String -> String) (config : A2UIMiddlewareConfig) (randomUUID : Nat -> String)
  (applyPatch : ApplyPatch) (suppressed : Bool)

theorem recovered_cases (names : List String) (input : A2UIInput) :
    (recoverUnansweredCalls names randomUUID input).2 = [] ∨
      (recoverUnansweredCalls names randomUUID input).2 = recoveredResults names randomUUID input.messages := by
  unfold recoverUnansweredCalls
  split
  · exact .inl rfl
  · dsimp only
    split
    · exact .inr rfl
    · exact .inr rfl

/-- Each recovered result has an id of its own, drawn before those of the stream. -/
theorem messageId_recovered (names : List String) (input : A2UIInput) {result : ToolCallResultEvent}
    (member : result ∈ (recoverUnansweredCalls names randomUUID input).2) :
    ∃ position, position < (recoverUnansweredCalls names randomUUID input).2.length ∧
      result.messageId = randomUUID position := by
  rcases recovered_cases randomUUID names input with none | same
  · rw [none] at member
    cases member
  · rw [same] at member ⊢
    rcases List.mem_mapIdx.mp member with ⟨position, inside, rfl⟩
    refine ⟨position, ?_, rfl⟩
    rw [recoveredResults, List.length_mapIdx]
    exact inside

theorem nodup_messageIds (injective : ∀ first second, randomUUID first = randomUUID second -> first = second)
    (names : List String) (input : A2UIInput) :
    ((recoverUnansweredCalls names randomUUID input).2.map ToolCallResultEvent.messageId).Nodup := by
  rcases recovered_cases randomUUID names input with none | same
  · rw [none]
    exact List.nodup_nil
  · rw [same, List.Nodup, List.pairwise_iff_getElem]
    intro first second _ _ earlier equal
    simp only [recoveredResults, List.getElem_map, List.getElem_mapIdx, recoveredResult] at equal
    exact absurd (injective first second equal) (Nat.ne_of_lt earlier)

theorem handedOn_turnStream (input : A2UIInput) (agentMessages : List Message) (events : List Event) :
    handedOn (turnStream reading sha256 config randomUUID applyPatch suppressed input agentMessages events) =
      (runNext suppressed events).1 :=
  (processStream_inserts _ _ _ _ _ _ _ _ _ _).handedOn

/-- Every `RUN_STARTED` announces a recovered result once. -/
theorem timesAnswered_run (injective : ∀ first second, randomUUID first = randomUUID second -> first = second)
    (input : A2UIInput) (agentMessages : List Message) (events : List Event)
    (undisturbed : Undisturbed randomUUID (runNext suppressed events).1) {result : ToolCallResultEvent}
    (member : result ∈ (recoverUnansweredCalls config.getA2UIToolNames randomUUID input).2) :
    timesAnswered result.messageId
        (run reading sha256 config randomUUID applyPatch suppressed input agentMessages events) =
      (runNext suppressed events).1.countP fun event => event.type = .runStarted := by
  rcases messageId_recovered randomUUID config.getA2UIToolNames input member with ⟨position, inside, drawn⟩
  have own : (recoverUnansweredCalls config.getA2UIToolNames randomUUID input).2.countP
      (fun other => other.messageId = result.messageId) = 1 := by
    have counted := List.count_eq_one_of_mem
      (nodup_messageIds randomUUID injective config.getA2UIToolNames input) (List.mem_map_of_mem member)
    rw [List.count, List.countP_map] at counted
    refine Eq.trans (List.countP_congr fun other _ => ?_) counted
    simp
  have handed := handedOn_turnStream reading sha256 config randomUUID applyPatch suppressed input agentMessages events
  have unanswered : timesAnswered result.messageId
      (turnStream reading sha256 config randomUUID applyPatch suppressed input agentMessages events) = 0 := by
    refine timesAnswered_eq_zero (fun event among => ?_) fun event among equal => ?_
    · rw [handed] at among
      cases event with
      | toolCallResult e =>
        refine decide_eq_false fun equal => undisturbed.ids _ among position ?_
        rw [named, equal, drawn]
        exact List.mem_singleton.mpr rfl
      | _ => rfl
    · rcases drawn_of_answers among with ⟨other, id⟩
      have same := injective _ _ ((equal.symm.trans id).symm.trans drawn)
      omega
  rw [run, timesAnswered_announce, unanswered, own, handed, Nat.mul_one, Nat.zero_add]

/-- A turn that resumes nothing answers every rendering call its history left
unanswered, and an accepted stream stays accepted, with each recovered result
announced once if the agent starts one run. -/
theorem recovery_correct (injective : ∀ first second, randomUUID first = randomUUID second -> first = second)
    (input : A2UIInput) (agentMessages : List Message) (events : List Event)
    (valid : accepted (runNext suppressed events).1 = true)
    (undisturbed : Undisturbed randomUUID (runNext suppressed events).1) :
    (input.isResume = false ->
      Recovers config.getA2UIToolNames input.messages
        (recoverUnansweredCalls config.getA2UIToolNames randomUUID input).2
        (recoverUnansweredCalls config.getA2UIToolNames randomUUID input).1.messages
        (placedResults config.getA2UIToolNames randomUUID input.messages)) ∧
    accepted (output (run reading sha256 config randomUUID applyPatch suppressed input agentMessages events)) = true ∧
    ((runNext suppressed events).1.countP (fun event => event.type = .runStarted) = 1 ->
      ∀ result ∈ (recoverUnansweredCalls config.getA2UIToolNames randomUUID input).2,
        timesAnswered result.messageId
          (run reading sha256 config randomUUID applyPatch suppressed input agentMessages events) = 1) := by
  refine ⟨recoverUnansweredCalls_recovers config.getA2UIToolNames randomUUID, ?_, fun once result member => ?_⟩
  · rw [accepted_iff_admits] at valid ⊢
    have drawn : Drawn randomUUID (recoverUnansweredCalls config.getA2UIToolNames randomUUID input).2 := by
      intro result member
      rcases messageId_recovered randomUUID config.getA2UIToolNames input member with ⟨position, _, id⟩
      exact ⟨position, id⟩
    have own : ∀ position, ∃ other, randomUUID
        ((recoverUnansweredCalls config.getA2UIToolNames randomUUID input).2.length + position) = randomUUID other :=
      fun position => ⟨_, rfl⟩
    unfold run turnStream
    dsimp only
    refine carries_processStream own drawn _ ?_ ?_
    · rw [runNextWithState_events]
      exact valid
    · rw [runNextWithState_events]
      exact undisturbed
  · rw [timesAnswered_run reading sha256 config randomUUID applyPatch suppressed injective input agentMessages events
      undisturbed member]
    exact once

end Turn

/-! ### Turns on fixed inputs -/

/-- Ids told apart by their length. -/
def tally (position : Nat) : String :=
  String.ofList (List.replicate position '|')

theorem tally_injective (first second : Nat) (same : tally first = tally second) : first = second := by
  have lengths := congrArg String.length same
  simpa [tally] using lengths

/-- A conversation that broke off before its surface was rendered. -/
def brokenOff : A2UIInput :=
  { runId := "run"
    messages := [{ id := "asked", role := .assistant, toolCalls := some [renderCall "call" "render_a2ui"] }] }

def turnOn (input : A2UIInput) (events : List Event) : List Action :=
  run .blank (fun text => text) {} tally (fun document _ => some document) true input input.messages events

theorem recovery_correct_brokenOff :
    Recovers ["render_a2ui"] brokenOff.messages (recoverUnansweredCalls ["render_a2ui"] tally brokenOff).2
        (recoverUnansweredCalls ["render_a2ui"] tally brokenOff).1.messages
        (placedResults ["render_a2ui"] tally brokenOff.messages) ∧
      accepted (output (turnOn brokenOff plainRun)) = true ∧
      ∀ result ∈ (recoverUnansweredCalls ["render_a2ui"] tally brokenOff).2,
        timesAnswered result.messageId (turnOn brokenOff plainRun) = 1 := by
  have expanded : (runNext true plainRun).1 = plainRun := rfl
  have correct := recovery_correct .blank (fun text => text) {} tally (fun document _ => some document) true
    tally_injective brokenOff brokenOff.messages plainRun rfl
    { ids := by
        intro event member position
        rw [expanded] at member
        rcases List.mem_pair.mp member with rfl | rfl <;> exact List.not_mem_nil
      deltas := by
        intro event member
        rw [expanded] at member
        rcases List.mem_pair.mp member with impossible | impossible <;> cases impossible }
  exact ⟨correct.1 rfl, correct.2.1, correct.2.2 rfl⟩

def twoPlainRuns : List Event :=
  plainRun ++ plainRun

def refused : List Event :=
  [.runError { message := "refused" }]

/-- A subagent patches an activity that has the id of the surface. -/
def patchedSurface : List Event :=
  [.runStarted { threadId := "thread", runId := "run" },
    .activityDelta
      { subagentRunId := .value "worker"
        messageId := "a2ui-surface-call"
        activityType := "a2ui-surface"
        patch := .array [] },
    .runFinished { threadId := "thread", runId := "run" }]

/-- A turn that resumes an approval leaves its history alone, and so does an
id taken over by another tool's call.  A result is announced again in every
run, and not at all without one.  A tagged patch of the announced surface is
refused. -/
theorem recovery_refuted :
    PendingRender ["render_a2ui"]
      (recoverUnansweredCalls ["render_a2ui"] tally { brokenOff with resume := some [.null] }).1.messages "call" ∧
    (unansweredToolCalls (recoverUnansweredCalls ["render_a2ui"] tally
      { brokenOff with messages := repeatedCall }).1.messages).any
        (fun call => call.function.name = "render_a2ui") = true ∧
    (accepted twoPlainRuns = true ∧ timesAnswered (tally 0) (turnOn brokenOff twoPlainRuns) = 2) ∧
    (accepted refused = true ∧ timesAnswered (tally 0) (turnOn brokenOff refused) = 0) ∧
    (accepted patchedSurface = true ∧ accepted (output (turnOn brokenOff patchedSurface)) = false) := by
  refine ⟨⟨renderCall "call" "render_a2ui", rfl, by decide⟩, by decide, ⟨rfl, ?_⟩, ⟨rfl, ?_⟩, rfl, ?_⟩ <;> decide

end A2ui
end AgUi
