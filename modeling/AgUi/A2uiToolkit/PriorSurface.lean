import AgUi.A2uiToolkit.Validate
import AgUi.Library.Layers

namespace AgUi
namespace A2uiToolkit

open Library Protocol

/-!
# The prior surface

What a surface looked like is not stored anywhere.  `findPriorSurface` finds
it in the history of the messages: it reads them from the newest backwards and
keeps the first value it meets of each field.

A value that is set to `undefined` is told from one that is not set, so that
the data has two layers of `Option`.  `JSON.parse` is a parameter, `none` where
it throws.
-/

def A2UI_OPERATIONS_KEY : String := "a2ui_operations"

/-- What an edit of a surface starts from. -/
structure PriorSurface where
  components : List Json
  data : Option Json
  catalogId : Option String

/-- The fields of a surface that were set. -/
structure Fields where
  catalogId : Option String := none
  components : Option (List Json) := none
  data : Option (Option Json) := none

namespace Fields

/-- Newer fields with older ones under them. -/
def onTop (newer older : Fields) : Fields where
  catalogId := newer.catalogId.or older.catalogId
  components := newer.components.or older.components
  data := newer.data.or older.data

instance : Monoid Fields where
  mul := onTop
  one := {}
  mul_assoc first second third := by
    change onTop (onTop first second) third = onTop first (onTop second third)
    unfold onTop
    simp only [Option.or_assoc]
  one_mul fields := by
    change onTop {} fields = fields
    simp only [onTop, Option.none_or]
  mul_one fields := by
    change onTop fields {} = fields
    simp only [onTop, Option.or_none]

/-- Nothing older can add to the fields. -/
def complete (fields : Fields) : Bool :=
  fields.components.isSome && fields.catalogId.isSome && fields.data.isSome

theorem mul_of_complete {fields : Fields} (all : fields.complete = true) (older : Fields) :
    fields * older = fields := by
  rcases fields with ⟨catalogId, components, data⟩
  cases catalogId <;> cases components <;> cases data <;> first | rfl | cases all

def toSurface (fields : Fields) : PriorSurface where
  components := fields.components.getD []
  data := fields.data.join
  catalogId := fields.catalogId

end Fields

/-! ## The operations of a message -/

section

variable (surfaceId : String)

/-- The part of an operation under a key, where it names the surface. -/
def partFor (key : String) (op : Json) : Option Json :=
  (op.member? key).filter fun part => textMember? part "surfaceId" = some surfaceId

def arrayMember? (value : Json) (key : String) : Option (List Json) :=
  match value.member? key with
  | some (.array items) => some items
  | _ => none

/-- Where the operations of a message leave the surface. -/
structure MessageState where
  mentions : Bool := false
  deleted : Bool := false
  fields : Fields := {}

def MessageState.put (state : MessageState) (fields : Fields) : MessageState where
  mentions := true
  deleted := false
  fields := fields * state.fields

def MessageState.putPart (state : MessageState) (part : Option Json) (read : Json -> Fields) : MessageState :=
  match part with
  | some part => state.put (read part)
  | none => state

/-- An operation on the surface; a deletion in the same message forgets what came before it. -/
def walkOp (state : MessageState) (op : Json) : MessageState :=
  if (partFor surfaceId "deleteSurface" op).isSome then { mentions := true, deleted := true }
  else
    let state := state.putPart (partFor surfaceId "createSurface" op) fun cs =>
      { catalogId := textMember? cs "catalogId" }
    let state := state.putPart (partFor surfaceId "updateComponents" op) fun uc =>
      { components := arrayMember? uc "components" }
    state.putPart (partFor surfaceId "updateDataModel" op) fun ud => { data := some (ud.member? "value") }

/-- What one message says of the surface, after all its operations. -/
def messageState (ops : List Json) : MessageState :=
  ops.foldl (walkOp surfaceId) {}

/-! ## The search -/

/-- `msg.type ?? msg.role` -/
def roleOf (msg : Json) : Option Json :=
  match msg.member? "type" with
  | none => msg.member? "role"
  | some .null => msg.member? "role"
  | some role => some role

/-- The operations a tool message carries. -/
def operationsOf (parse : String -> Option Json) (msg : Json) : Option (List Json) :=
  match (roleOf msg).bind Json.asString?, textMember? msg "content" with
  | some role, some content =>
    if role = "tool" ∨ role = "ToolMessage" then
      (parse content).bind fun parsed => arrayMember? parsed A2UI_OPERATIONS_KEY
    else none
  | _, _ => none

variable (parse : String -> Option Json)

/-- The walk from the newest message on; `found` is what it has found once it has met a message about the surface. -/
def walkBack (found : Option Fields) : List Json -> Option PriorSurface
  | [] => found.map Fields.toSurface
  | msg :: older =>
    match operationsOf parse msg with
    | none => walkBack found older
    | some ops =>
      let state := messageState surfaceId ops
      if state.mentions then
        match found, state.deleted with
        | none, true => none
        | some _, true => walkBack found older
        | _, false =>
          let fields := (found.getD {}) * state.fields
          if fields.complete then some fields.toSurface else walkBack (some fields) older
      else walkBack found older

/-- The search begins at the latest message. -/
def findPriorSurface (messages : List Json) : Option PriorSurface :=
  walkBack surfaceId parse none messages.reverse

/-! ## Replay -/

/-- What an operation does to the surface, a step at a time. -/
def layersOf (op : Json) : List (Layer Fields) :=
  if (partFor surfaceId "deleteSurface" op).isSome then [.cleared]
  else
    ((partFor surfaceId "createSurface" op).map fun cs =>
        Layer.sets false { catalogId := textMember? cs "catalogId" }).toList ++
      ((partFor surfaceId "updateComponents" op).map fun uc =>
        Layer.sets false { components := arrayMember? uc "components" }).toList ++
      ((partFor surfaceId "updateDataModel" op).map fun ud =>
        Layer.sets false { data := some (ud.member? "value") }).toList

/-- All operations of the history in their order, each applied to the surface that the ones before it left. -/
def replay (messages : List Json) : Option PriorSurface :=
  (((messages.flatMap fun msg => (operationsOf parse msg).getD []).flatMap (layersOf surfaceId)).foldl Layer.lay
    none).map Fields.toSurface

/-! ## A message as a layer -/

/-- What the walk through a message keeps of a layer. -/
def MessageState.ofLayer : Layer Fields -> MessageState
  | .silent => {}
  | .cleared => { mentions := true, deleted := true }
  | .sets _ fields => { mentions := true, fields := fields }

theorem MessageState.put_ofLayer (layer : Layer Fields) (fields : Fields) :
    (MessageState.ofLayer layer).put fields = MessageState.ofLayer (layer.andThen (.sets false fields)) := by
  have alone : fields * ({} : Fields) = fields := mul_one fields
  cases layer with
  | silent | cleared => exact congrArg (MessageState.mk true false) alone
  | sets anew older => rfl

theorem MessageState.putPart_ofLayer (layer : Layer Fields) (part : Option Json) (read : Json -> Fields) :
    (MessageState.ofLayer layer).putPart part read =
      MessageState.ofLayer ((part.map fun part => Layer.sets false (read part)).toList.foldl Layer.andThen layer) := by
  cases part with
  | none => rfl
  | some part => exact MessageState.put_ofLayer layer (read part)

theorem walkOp_ofLayer (layer : Layer Fields) (op : Json) :
    walkOp surfaceId (MessageState.ofLayer layer) op =
      MessageState.ofLayer ((layersOf surfaceId op).foldl Layer.andThen layer) := by
  unfold walkOp layersOf
  split
  · cases layer <;> rfl
  · dsimp only
    rw [MessageState.putPart_ofLayer, MessageState.putPart_ofLayer, MessageState.putPart_ofLayer, List.foldl_append,
      List.foldl_append]

/-- The layer that the operations of a message come to. -/
def layerOf (ops : List Json) : Layer Fields :=
  (ops.flatMap (layersOf surfaceId)).foldl Layer.andThen .silent

theorem messageState_eq (ops : List Json) :
    messageState surfaceId ops = MessageState.ofLayer (layerOf surfaceId ops) := by
  have walked : ∀ layer : Layer Fields, ops.foldl (walkOp surfaceId) (MessageState.ofLayer layer) =
      MessageState.ofLayer ((ops.flatMap (layersOf surfaceId)).foldl Layer.andThen layer) := by
    induction ops with
    | nil => exact fun _ => rfl
    | cons op ops ih =>
      intro layer
      rw [List.foldl_cons, walkOp_ofLayer, ih, List.flatMap_cons, List.foldl_append]
  exact walked .silent

/-- The layer of a message. -/
def messageLayer (msg : Json) : Layer Fields :=
  layerOf surfaceId ((operationsOf parse msg).getD [])

/-- The layers of a history, the newest first. -/
def historyLayers (messages : List Json) : List (Layer Fields) :=
  messages.reverse.map (messageLayer surfaceId parse)

theorem replay_eq (messages : List Json) :
    replay surfaceId parse messages =
      if Layer.standing (historyLayers surfaceId parse messages) then
        some (Layer.current (historyLayers surfaceId parse messages)).toSurface
      else none := by
  have laid : ∀ under : Option Fields,
      ((messages.flatMap fun msg => (operationsOf parse msg).getD []).flatMap (layersOf surfaceId)).foldl Layer.lay
          under =
        (messages.map (messageLayer surfaceId parse)).foldl Layer.lay under := by
    induction messages with
    | nil => exact fun _ => rfl
    | cons msg messages ih =>
      intro under
      rw [List.flatMap_cons, List.flatMap_append, List.foldl_append, ih, List.map_cons,
        List.foldl_cons, messageLayer, layerOf, Layer.lay_foldl_andThen]
      rfl
  have inOrder : messages.map (messageLayer surfaceId parse) = (historyLayers surfaceId parse messages).reverse := by
    unfold historyLayers
    rw [← List.map_reverse, List.reverse_reverse]
  unfold replay
  rw [laid, inOrder, Layer.foldl_lay_reverse]
  split <;> rfl

theorem walkBack_silent {msg : Json} (layer : messageLayer surfaceId parse msg = .silent) (found : Option Fields)
    (older : List Json) : walkBack surfaceId parse found (msg :: older) = walkBack surfaceId parse found older := by
  unfold messageLayer at layer
  rw [walkBack]
  cases carried : operationsOf parse msg with
  | none => rfl
  | some ops =>
    rw [carried, Option.getD_some] at layer
    have state := messageState_eq surfaceId ops
    rw [layer] at state
    simp only [state, MessageState.ofLayer, Bool.false_eq_true, if_false]

theorem walkBack_cleared {msg : Json} (layer : messageLayer surfaceId parse msg = .cleared) (found : Option Fields)
    (older : List Json) :
    walkBack surfaceId parse found (msg :: older) = found.bind fun _ => walkBack surfaceId parse found older := by
  unfold messageLayer at layer
  rw [walkBack]
  cases carried : operationsOf parse msg with
  | none =>
    rw [carried] at layer
    cases layer
  | some ops =>
    rw [carried, Option.getD_some] at layer
    have state := messageState_eq surfaceId ops
    rw [layer] at state
    simp only [state, MessageState.ofLayer, if_true]
    cases found <;> rfl

theorem walkBack_sets {msg : Json} {anew : Bool} {fields : Fields}
    (layer : messageLayer surfaceId parse msg = .sets anew fields) (found : Option Fields) (older : List Json) :
    walkBack surfaceId parse found (msg :: older) =
      if (found.getD 1 * fields).complete then some (found.getD 1 * fields).toSurface
      else walkBack surfaceId parse (some (found.getD 1 * fields)) older := by
  unfold messageLayer at layer
  rw [walkBack]
  cases carried : operationsOf parse msg with
  | none =>
    rw [carried] at layer
    cases layer
  | some ops =>
    rw [carried, Option.getD_some] at layer
    have state := messageState_eq surfaceId ops
    rw [layer] at state
    simp only [state, MessageState.ofLayer, if_true]
    cases found <;> rfl

/-- Once it has met a message about the surface, the walk adds up all that was set, a deletion or not. -/
theorem walkBack_found (found : Fields) (messages : List Json) :
    walkBack surfaceId parse (some found) messages =
      some (found * Layer.every (messages.map (messageLayer surfaceId parse))).toSurface := by
  induction messages generalizing found with
  | nil =>
    have alone : found * (1 : Fields) = found := mul_one found
    exact congrArg (fun fields : Fields => some fields.toSurface) alone.symm
  | cons msg older ih =>
    rw [List.map_cons]
    cases layer : messageLayer surfaceId parse msg with
    | silent => rw [walkBack_silent surfaceId parse layer, ih, Layer.every]
    | cleared =>
      rw [walkBack_cleared surfaceId parse layer, Option.bind_some, ih, Layer.every]
    | sets anew fields =>
      rw [walkBack_sets surfaceId parse layer, Option.getD_some, Layer.every, ← mul_assoc]
      split
      · rename_i all
        rw [Fields.mul_of_complete all]
      · exact ih (found * fields)

theorem walkBack_eq (messages : List Json) :
    walkBack surfaceId parse none messages =
      if Layer.standing (messages.map (messageLayer surfaceId parse)) then
        some (Layer.every (messages.map (messageLayer surfaceId parse))).toSurface
      else none := by
  induction messages with
  | nil => rfl
  | cons msg older ih =>
    rw [List.map_cons]
    cases layer : messageLayer surfaceId parse msg with
    | silent => rw [walkBack_silent surfaceId parse layer, ih, Layer.standing, Layer.every]
    | cleared => exact walkBack_cleared surfaceId parse layer none older
    | sets anew fields =>
      rw [walkBack_sets surfaceId parse layer, Option.getD_none, one_mul, Layer.standing, if_pos rfl, Layer.every]
      split
      · rename_i all
        rw [Fields.mul_of_complete all]
      · exact walkBack_found surfaceId parse fields older

/-! ## What shows through a deletion -/

/-- Of every field: it was set after the last deletion, or what the messages before left of it is what an unset field
reads as. -/
structure ShowsNothing (current stale : Fields) : Prop where
  catalogId : current.catalogId.isSome = true ∨ stale.catalogId = none
  components : current.components.isSome = true ∨ stale.components.getD [] = []
  data : current.data.isSome = true ∨ stale.data.join = none

theorem toSurface_mul_iff (current stale : Fields) :
    (current * stale).toSurface = current.toSurface ↔ ShowsNothing current stale := by
  rcases current with ⟨catalogId, components, data⟩
  rcases stale with ⟨staleCatalogId, staleComponents, staleData⟩
  have shown : (Fields.mk catalogId components data * Fields.mk staleCatalogId staleComponents staleData).toSurface =
      { components := (components.or staleComponents).getD []
        data := (data.or staleData).join
        catalogId := catalogId.or staleCatalogId } := rfl
  rw [shown]
  constructor
  · intro same
    have parts := PriorSurface.mk.inj same
    constructor
    · cases catalogId with
      | none => exact Or.inr parts.2.2
      | some _ => exact Or.inl rfl
    · cases components with
      | none => exact Or.inr parts.1
      | some _ => exact Or.inl rfl
    · cases data with
      | none => exact Or.inr parts.2.1
      | some _ => exact Or.inl rfl
  · intro nothing
    apply PriorSurface.mk.injEq .. |>.mpr
    refine ⟨?_, ?_, ?_⟩
    · cases components with
      | none => exact nothing.components.resolve_left Bool.false_ne_true
      | some _ => rfl
    · cases data with
      | none => exact nothing.data.resolve_left Bool.false_ne_true
      | some _ => rfl
    · cases catalogId with
      | none => exact nothing.catalogId.resolve_left Bool.false_ne_true
      | some _ => rfl

/-- The search finds what replay leaves exactly where the newest message about the surface deletes it or nothing older
shows through the last deletion. -/
theorem findPriorSurface_eq_replay_iff (messages : List Json) :
    (findPriorSurface surfaceId parse messages = replay surfaceId parse messages ∧
      (findPriorSurface surfaceId parse messages = none ↔ replay surfaceId parse messages = none)) ↔
      Layer.standing (historyLayers surfaceId parse messages) = false ∨
        ShowsNothing (Layer.current (historyLayers surfaceId parse messages))
          (Layer.stale (historyLayers surfaceId parse messages)) := by
  have found : findPriorSurface surfaceId parse messages =
      if Layer.standing (historyLayers surfaceId parse messages) then
        some (Layer.every (historyLayers surfaceId parse messages)).toSurface
      else none := walkBack_eq surfaceId parse messages.reverse
  rw [found, replay_eq]
  cases Layer.standing (historyLayers surfaceId parse messages) with
  | false => exact ⟨fun _ => Or.inl rfl, fun _ => ⟨rfl, Iff.rfl⟩⟩
  | true =>
    rw [if_pos rfl, if_pos rfl, Layer.every_eq, ← toSurface_mul_iff]
    constructor
    · exact fun same => Or.inr (Option.some.inj same.1)
    · intro nothing
      rw [nothing.resolve_left nofun]
      exact ⟨rfl, Iff.rfl⟩

end

/-- The results of three calls: the surface is created with data, it is deleted, it is created again. -/
def recreatedTexts : List (String × Json) :=
  [("\x7b\"a2ui_operations\":[\x7b\"createSurface\":\x7b\"surfaceId\":\"s\",\"catalogId\":\"c\"\x7d\x7d," ++
      "\x7b\"updateDataModel\":\x7b\"surfaceId\":\"s\",\"value\":1\x7d\x7d]\x7d",
      .object [("a2ui_operations", .array
        [.object [("createSurface", .object [("surfaceId", .string "s"), ("catalogId", .string "c")])],
         .object [("updateDataModel", .object [("surfaceId", .string "s"), ("value", .number 1)])]])]),
   ("\x7b\"a2ui_operations\":[\x7b\"deleteSurface\":\x7b\"surfaceId\":\"s\"\x7d\x7d]\x7d",
      .object [("a2ui_operations", .array [.object [("deleteSurface", .object [("surfaceId", .string "s")])]])]),
   ("\x7b\"a2ui_operations\":[\x7b\"createSurface\":\x7b\"surfaceId\":\"s\",\"catalogId\":\"d\"\x7d\x7d]\x7d",
      .object [("a2ui_operations", .array
        [.object [("createSurface", .object [("surfaceId", .string "s"), ("catalogId", .string "d")])]])])]

def recreatedMessages : List Json :=
  recreatedTexts.map fun entry => .object [("role", .string "tool"), ("content", .string entry.1)]

def parseRecreated (text : String) : Option Json :=
  recreatedTexts.lookup text

/-- The data from before the deletion shows through. -/
theorem findPriorSurface_shows_deleted_data :
    findPriorSurface "s" parseRecreated recreatedMessages ≠ replay "s" parseRecreated recreatedMessages := by
  intro same
  have data := congrArg (fun surface => (surface.bind PriorSurface.data).isSome) same
  exact absurd data (by decide)

end A2uiToolkit
end AgUi
