import AgUi.Adk.TextContent
import AgUi.Library.JsonText

namespace AgUi
namespace Adk

open Library Protocol

/-!
# Streamed arguments

A function call whose arguments are streamed arrives in chunks.  Each brings
fragments of arguments, and a fragment says which argument it is of by a path.
The translator writes the JSON text of the arguments by hand: a brace and a
name at the first fragment of each path, then escaped text, and one closing
quote and brace at the end.
-/

/-! ## Chunks -/

/-- A piece of one argument, at its path. -/
structure PartialArg where
  jsonPath : Option String := none
  stringValue : Option String := none

/-- A call that streams its arguments comes with its name first and with pieces of arguments then. -/
structure FunctionCallChunk where
  name : Option String := none
  partialArgs : List PartialArg := []
  willContinue : Option Bool := none

/-! ## The translator -/

structure StreamedCallSettings extends TranslatorSettings where
  /-- What is told of each tool whose arguments predict a state. -/
  predictStateByTool : OrderedMap String (List Json) := OrderedMap.empty
  /-- The tools whose calls are ended later. -/
  streamingLroToolNames : List String := []

/-- The call that is streaming, and the arguments of it that are written in part. -/
structure StreamedCallTranslator where
  text : TextTranslator := {}
  activeStreamingFcId : Option String := none
  activeStreamingFcName : Option String := none
  openPaths : List String := []
  startedPaths : List String := []
  predictiveStateToolCallIds : List String := []
  emittedPredictStateForTools : List String := []
  emittedToolCallIds : List String := []
  completedStreamingFcNames : List String := []
  lastCompletedStreamingFcName : Option String := none
  lastCompletedStreamingFcId : Option String := none

/-- `json.dumps` of a string, without its quotes. -/
def jsonEscaped (text : String) : String :=
  String.ofList (JsonText.escape text.toList)

/-- The text as `json.dumps` writes it. -/
def jsonDumps (text : String) : String :=
  "\"" ++ jsonEscaped text ++ "\""

/-- `lstrip("$.")`. -/
def pathKey (path : String) : String :=
  String.ofList (path.toList.dropWhile fun char => char = '$' || char = '.')

namespace StreamedCallTranslator

variable (settings : StreamedCallSettings)

/-- The state predicted from a tool's arguments is announced once for each tool. -/
def predictState (name : String) (translator : StreamedCallTranslator) (id : String) :
    StreamedCallTranslator × List Event :=
  match settings.predictStateByTool.get? name with
  | none => (translator, [])
  | some mappings =>
    let noted := { translator with predictiveStateToolCallIds := id :: translator.predictiveStateToolCallIds }
    if translator.emittedPredictStateForTools.contains name then (noted, [])
    else
      ({ noted with emittedPredictStateForTools := name :: translator.emittedPredictStateForTools },
        [.custom { name := "PredictState", value := .array mappings }])

/-- The first chunk. -/
def startCall (name : String) (translator : StreamedCallTranslator) : StreamedCallTranslator × List Event :=
  let id := settings.newId translator.text.made
  let closed := ({ translator.text with made := translator.text.made + 1 } : TextTranslator).forceCloseStreamingMessage
  let active : StreamedCallTranslator :=
    { translator with
      text := closed.1
      activeStreamingFcId := some id
      activeStreamingFcName := some name
      openPaths := []
      startedPaths := [] }
  let predicted := active.predictState settings name id
  ({ predicted.1 with emittedToolCallIds := id :: predicted.1.emittedToolCallIds },
    closed.2 ++ predicted.2 ++ [.toolCallStart { toolCallId := id, toolCallName := name }])

/-- The piece of the JSON text that one fragment becomes. -/
def argDelta (translator : StreamedCallTranslator) (arg : PartialArg) : StreamedCallTranslator × String :=
  match arg.stringValue with
  | none => (translator, "")
  | some value =>
    let path := arg.jsonPath.getD ""
    if path ≠ "" ∧ path ∉ translator.startedPaths then
      ({ translator with
          startedPaths := path :: translator.startedPaths
          openPaths := translator.openPaths ++ [path] },
        "\x7b" ++ jsonDumps (pathKey path) ++ ": \"" ++ jsonEscaped value)
    else if value ≠ "" then (translator, jsonEscaped value)
    else (translator, "")

/-- Every piece of an argument that comes to some text is one event. -/
def translateArgs (id : String) (translator : StreamedCallTranslator) :
    List PartialArg -> StreamedCallTranslator × List Event
  | [] => (translator, [])
  | arg :: rest =>
    let piece := translator.argDelta arg
    let later := piece.1.translateArgs id rest
    (later.1, (if piece.2 = "" then [] else [.toolCallArgs { toolCallId := id, delta := piece.2 }]) ++ later.2)

/-- The end marker. -/
def endCall (id : String) (translator : StreamedCallTranslator) : StreamedCallTranslator × List Event :=
  let closing : List Event :=
    if translator.openPaths = [] then [] else [.toolCallArgs { toolCallId := id, delta := "\"\x7d" }]
  let deferred := match translator.activeStreamingFcName with
    | none => false
    | some name => name != "" && settings.streamingLroToolNames.contains name
  let completed := match translator.activeStreamingFcName with
    | none => translator
    | some name =>
      { translator with
        completedStreamingFcNames := name :: translator.completedStreamingFcNames
        lastCompletedStreamingFcName := some name
        lastCompletedStreamingFcId := some id }
  ({ completed with activeStreamingFcId := none, activeStreamingFcName := none, openPaths := [], startedPaths := [] },
    closing ++ if deferred then [] else [.toolCallEnd { toolCallId := id }])

/-- Whether a chunk can start a call, and the tool it is of. -/
def startedTool? (chunk : FunctionCallChunk) (translator : StreamedCallTranslator) : Option String :=
  if chunk.willContinue = some true ∧ translator.activeStreamingFcId = none then chunk.name.filter (· ≠ "") else none

/-- A name begins a call; without one the chunk goes to the call that is streaming, and an empty chunk ends it. -/
def translateChunk (chunk : FunctionCallChunk) (translator : StreamedCallTranslator) :
    StreamedCallTranslator × List Event :=
  match translator.startedTool? chunk, translator.activeStreamingFcId with
  | some name, _ => translator.startCall settings name
  | none, none => (translator, [])
  | none, some id =>
    if chunk.partialArgs = [] ∧ chunk.willContinue ≠ some true then translator.endCall settings id
    else translator.translateArgs id chunk.partialArgs

def translateChunks (translator : StreamedCallTranslator) :
    List FunctionCallChunk -> StreamedCallTranslator × List Event
  | [] => (translator, [])
  | chunk :: rest =>
    let first := translator.translateChunk settings chunk
    let later := first.1.translateChunks rest
    (later.1, first.2 ++ later.2)

end StreamedCallTranslator

/-! ## Calls -/

/-- A piece of the text of a named argument. -/
structure Fragment where
  name : String
  text : String

/-- Fragments that arrive together. -/
structure Piece where
  fragments : List Fragment
  willContinue : Option Bool := some true

/-- The chunk is no end marker. -/
def Piece.Continues (piece : Piece) : Prop :=
  piece.fragments ≠ [] ∨ piece.willContinue = some true

def Fragment.partialArg (fragment : Fragment) : PartialArg where
  jsonPath := some ("$." ++ fragment.name)
  stringValue := some fragment.text

def Piece.chunk (piece : Piece) : FunctionCallChunk where
  partialArgs := piece.fragments.map Fragment.partialArg
  willContinue := piece.willContinue

/-- The chunks of a call. -/
def callChunks (name : String) (pieces : List Piece) : List FunctionCallChunk :=
  { name := some name, willContinue := some true } :: (pieces.map Piece.chunk ++ [({} : FunctionCallChunk)])

def fragmentsOf (pieces : List Piece) : List Fragment :=
  pieces.flatMap Piece.fragments

/-- The full text of an argument, if the call has it. -/
def argumentText (fragments : List Fragment) (name : String) : Option String :=
  if name ∈ fragments.map Fragment.name then
    some (String.join ((fragments.filter fun fragment => fragment.name = name).map Fragment.text))
  else none

def argsDelta? (id : String) : Event -> Option String
  | .toolCallArgs e => if e.toolCallId = id then some e.delta else none
  | _ => none

/-- The deltas of a call, one after the other. -/
def argumentsDelta (id : String) (events : List Event) : String :=
  String.join (events.filterMap (argsDelta? id))

/-- The text parses to the object of the arguments. -/
def FormsArguments (text : String) (fragments : List Fragment) : Prop :=
  ∃ members : List (List Char × JsonText.Value),
    JsonText.parse text.toList = some (.object members) ∧
      ∀ name : String, JsonText.member? members name.toList =
        (argumentText fragments name).map fun text => .string text.toList

/-- There is one argument, and its name begins with neither of the characters of a path's root. -/
def OneArgument (fragments : List Fragment) : Prop :=
  fragments ≠ [] ∧ ∃ name : String,
    (∀ fragment ∈ fragments, fragment.name = name) ∧
      name.toList.head? ≠ some '$' ∧ name.toList.head? ≠ some '.'

/-! ## The text that is written -/

open JsonText

/-- The text the fragments become, after those of some arguments. -/
def written (started : List String) : List Fragment -> List Char
  | [] => []
  | fragment :: rest =>
    if fragment.name ∈ started then escape fragment.text.toList ++ written started rest
    else
      "\x7b\"".toList ++ escape (pathKey ("$." ++ fragment.name)).toList ++ "\": \"".toList ++
        escape fragment.text.toList ++ written (fragment.name :: started) rest

/-- The JSON text of all the fragments, closed. -/
def writtenWhole (fragments : List Fragment) : List Char :=
  written [] fragments ++ if fragments = [] then [] else "\"\x7d".toList

/-- The names that have been begun after some fragments. -/
def startedAfter (started : List String) : List Fragment -> List String
  | [] => started
  | fragment :: rest =>
    if fragment.name ∈ started then startedAfter started rest else startedAfter (fragment.name :: started) rest

variable (started : List String)

theorem written_append (first second : List Fragment) :
    written started (first ++ second) = written started first ++ written (startedAfter started first) second := by
  induction first generalizing started with
  | nil => rfl
  | cons fragment rest ih =>
    rw [List.cons_append, written, written, startedAfter]
    split
    · rw [ih, List.append_assoc]
    · rw [ih, List.append_assoc _ (written _ rest)]

theorem startedAfter_append (first second : List Fragment) :
    startedAfter started (first ++ second) = startedAfter (startedAfter started first) second := by
  induction first generalizing started with
  | nil => rfl
  | cons fragment rest ih =>
    rw [List.cons_append, startedAfter, startedAfter]
    split <;> exact ih _

theorem mem_startedAfter (fragments : List Fragment) (name : String) :
    name ∈ startedAfter started fragments ↔ name ∈ started ∨ name ∈ fragments.map Fragment.name := by
  induction fragments generalizing started with
  | nil => simp [startedAfter]
  | cons fragment rest ih =>
    rw [startedAfter, List.map_cons, List.mem_cons]
    split
    case isTrue known =>
      rw [ih]
      constructor
      · exact Or.imp_right .inr
      · rintro (earlier | rfl | later)
        · exact .inl earlier
        · exact .inl known
        · exact .inr later
    case isFalse =>
      rw [ih, List.mem_cons, or_comm (a := name = fragment.name), or_assoc]

theorem pathOf_injective {first second : String} (same : "$." ++ first = "$." ++ second) : first = second := by
  have lists := congrArg String.toList same
  rw [String.toList_append, String.toList_append] at lists
  exact String.toList_injective (List.append_cancel_left lists)

theorem pathOf_ne_empty (name : String) : "$." ++ name ≠ "" := by
  intro empty
  have lists := congrArg String.toList empty
  rw [String.toList_append] at lists
  exact List.cons_ne_nil _ _ lists

theorem toList_jsonEscaped (text : String) : (jsonEscaped text).toList = escape text.toList :=
  String.toList_ofList

theorem argumentsDelta_append (id : String) (first second : List Event) :
    argumentsDelta id (first ++ second) = argumentsDelta id first ++ argumentsDelta id second := by
  rw [argumentsDelta, List.filterMap_append, String.join_append]
  rfl

theorem argumentsDelta_single (id delta : String) :
    argumentsDelta id [.toolCallArgs { toolCallId := id, delta }] = delta := by
  simp [argumentsDelta, argsDelta?]

theorem argumentsDelta_piece (id delta : String) :
    argumentsDelta id (if delta = "" then [] else [.toolCallArgs { toolCallId := id, delta }]) = delta := by
  split
  case isTrue empty => exact empty.symm
  case isFalse => exact argumentsDelta_single id delta

/-- The translator is in a call, and has begun some arguments. -/
structure Writing (id : String) (started : List String) (translator : StreamedCallTranslator) : Prop where
  active : translator.activeStreamingFcId = some id
  paths : ∀ name, "$." ++ name ∈ translator.startedPaths ↔ name ∈ started
  opened : translator.openPaths = [] ↔ started = []

namespace Writing

variable {id : String} {started : List String} {translator : StreamedCallTranslator}

section

variable (writing : Writing id started translator)

include writing

theorem argDelta_known {fragment : Fragment} (known : fragment.name ∈ started) :
    translator.argDelta fragment.partialArg = (translator, jsonEscaped fragment.text) := by
  have begun := (writing.paths fragment.name).mpr known
  have delta : translator.argDelta fragment.partialArg =
      if fragment.text ≠ "" then (translator, jsonEscaped fragment.text) else (translator, "") :=
    if_neg fun fresh => fresh.2 begun
  rw [delta]
  split
  case isTrue => rfl
  case isFalse empty =>
    rw [not_ne_iff.mp empty]
    rfl

theorem argDelta_fresh {fragment : Fragment} (fresh : fragment.name ∉ started) :
    translator.argDelta fragment.partialArg =
      ({ translator with
          startedPaths := ("$." ++ fragment.name) :: translator.startedPaths
          openPaths := translator.openPaths ++ ["$." ++ fragment.name] },
        "\x7b" ++ jsonDumps (pathKey ("$." ++ fragment.name)) ++ ": \"" ++ jsonEscaped fragment.text) :=
  if_pos ⟨pathOf_ne_empty fragment.name, mt (writing.paths fragment.name).mp fresh⟩

/-- One fragment. -/
theorem argDelta (fragment : Fragment) :
    Writing id (startedAfter started [fragment]) (translator.argDelta fragment.partialArg).1 ∧
      (translator.argDelta fragment.partialArg).2.toList = written started [fragment] := by
  rw [startedAfter, startedAfter, startedAfter, written, written, written, List.append_nil, List.append_nil]
  by_cases known : fragment.name ∈ started
  · rw [writing.argDelta_known known, if_pos known, if_pos known]
    exact ⟨writing, toList_jsonEscaped _⟩
  · rw [writing.argDelta_fresh known, if_neg known, if_neg known]
    refine ⟨⟨writing.active, ?_, by simp⟩, ?_⟩
    · intro name
      rw [List.mem_cons, List.mem_cons, writing.paths]
      exact or_congr_left ⟨pathOf_injective, fun same => by rw [same]⟩
    · simp [jsonDumps, toList_jsonEscaped]

theorem translateArgs (fragments : List Fragment) :
    Writing id (startedAfter started fragments) (translator.translateArgs id (fragments.map Fragment.partialArg)).1 ∧
      (argumentsDelta id (translator.translateArgs id (fragments.map Fragment.partialArg)).2).toList =
        written started fragments := by
  induction fragments generalizing started translator with
  | nil => exact ⟨writing, rfl⟩
  | cons fragment rest ih =>
    rcases writing.argDelta fragment with ⟨goesOn, piece⟩
    rcases ih goesOn with ⟨later, deltas⟩
    rw [← startedAfter_append, List.singleton_append] at later
    rw [List.map_cons, StreamedCallTranslator.translateArgs]
    refine ⟨later, ?_⟩
    have split := written_append started [fragment] rest
    rw [List.singleton_append] at split
    rw [split, ← piece, ← deltas, argumentsDelta_append, argumentsDelta_piece, String.toList_append]

end

/-- A chunk in the middle of a call. -/
theorem translateChunk (settings : StreamedCallSettings) (writing : Writing id started translator) {piece : Piece}
    (continues : piece.Continues) :
    Writing id (startedAfter started piece.fragments) (translator.translateChunk settings piece.chunk).1 ∧
      (argumentsDelta id (translator.translateChunk settings piece.chunk).2).toList =
        written started piece.fragments := by
  have noStart : translator.startedTool? piece.chunk = none := by
    rw [StreamedCallTranslator.startedTool?, if_neg]
    rintro ⟨_, idle⟩
    rw [writing.active] at idle
    cases idle
  have noEnd : Not (piece.chunk.partialArgs = [] ∧ piece.chunk.willContinue ≠ some true) := by
    rintro ⟨nothing, ends⟩
    rcases continues with fragments | more
    · exact fragments (List.map_eq_nil_iff.mp nothing)
    · exact ends more
  have step : translator.translateChunk settings piece.chunk =
      translator.translateArgs id (piece.fragments.map Fragment.partialArg) := by
    rw [StreamedCallTranslator.translateChunk, noStart, writing.active]
    exact if_neg noEnd
  rw [step]
  exact writing.translateArgs piece.fragments

/-- The chunks of a call up to its end. -/
theorem translateChunks (settings : StreamedCallSettings) (writing : Writing id started translator)
    {pieces : List Piece}
    (continues : ∀ piece ∈ pieces, piece.Continues) :
    (argumentsDelta id
      (translator.translateChunks settings (pieces.map Piece.chunk ++ [({} : FunctionCallChunk)])).2).toList =
        written started (fragmentsOf pieces) ++
          if startedAfter started (fragmentsOf pieces) = [] then [] else "\"\x7d".toList := by
  induction pieces generalizing started translator with
  | nil =>
    have step : translator.translateChunk settings {} = translator.endCall settings id := by
      rw [StreamedCallTranslator.translateChunk, StreamedCallTranslator.startedTool?, writing.active]
      rfl
    have ended : argumentsDelta id (translator.endCall settings id).2 = if started = [] then "" else "\"\x7d" := by
      have noDelta : ∀ deferred : Bool,
          argumentsDelta id (if deferred then [] else [.toolCallEnd { toolCallId := id }]) = "" := by
        intro deferred
        cases deferred <;> rfl
      rw [StreamedCallTranslator.endCall]
      dsimp only
      rw [argumentsDelta_append, noDelta, String.append_empty]
      by_cases nothing : started = []
      · rw [if_pos (writing.opened.mpr nothing), if_pos nothing]
        rfl
      · rw [if_neg (mt writing.opened.mp nothing), if_neg nothing, argumentsDelta_single]
    change (argumentsDelta id ((translator.translateChunk settings {}).2 ++ [])).toList =
      if started = [] then [] else _
    rw [List.append_nil, step, ended]
    split <;> rfl
  | cons piece rest ih =>
    rcases writing.translateChunk settings (continues piece List.mem_cons_self) with ⟨goesOn, text⟩
    have later := ih goesOn (List.forall_mem_cons.mp continues).2
    rw [← startedAfter_append] at later
    have whole : fragmentsOf (piece :: rest) = piece.fragments ++ fragmentsOf rest := List.flatMap_cons
    rw [List.map_cons, List.cons_append, StreamedCallTranslator.translateChunks, argumentsDelta_append,
      String.toList_append, text, later, whole, written_append, List.append_assoc]

end Writing

theorem StreamedCallTranslator.predictState_spec (settings : StreamedCallSettings) (name id : String)
    (translator : StreamedCallTranslator) :
    (translator.predictState settings name id).1.activeStreamingFcId = translator.activeStreamingFcId ∧
      (translator.predictState settings name id).1.startedPaths = translator.startedPaths ∧
      (translator.predictState settings name id).1.openPaths = translator.openPaths ∧
      argumentsDelta id (translator.predictState settings name id).2 = "" := by
  unfold predictState
  split
  · exact ⟨rfl, rfl, rfl, rfl⟩
  · dsimp only
    split <;> exact ⟨rfl, rfl, rfl, rfl⟩

theorem writing_startCall (settings : StreamedCallSettings) (translator : StreamedCallTranslator) (name : String) :
    Writing (settings.newId translator.text.made) [] (translator.startCall settings name).1 ∧
      argumentsDelta (settings.newId translator.text.made) (translator.startCall settings name).2 = "" := by
  have closed : ∀ (id : String) (text : TextTranslator),
      argumentsDelta id text.forceCloseStreamingMessage.2 = "" := by
    intro id text
    unfold TextTranslator.forceCloseStreamingMessage
    split <;> rfl
  unfold StreamedCallTranslator.startCall
  dsimp only
  generalize settings.newId translator.text.made = id
  generalize ({ translator.text with made := translator.text.made + 1 } : TextTranslator) = text
  constructor
  · rcases StreamedCallTranslator.predictState_spec settings name id _ with ⟨active, paths, opened, _⟩
    refine ⟨active, ?_, ?_⟩
    · intro other
      rw [paths]
      exact iff_of_false List.not_mem_nil List.not_mem_nil
    · rw [opened]
  · rcases StreamedCallTranslator.predictState_spec settings name id _ with ⟨_, _, _, silent⟩
    rw [argumentsDelta_append, argumentsDelta_append, closed, silent]
    rfl

/-- The deltas of a call are the text that its fragments become. -/
theorem argumentsDelta_call (settings : StreamedCallSettings) (translator : StreamedCallTranslator)
    (idle : translator.activeStreamingFcId = none) {name : String} (named : name ≠ "") {pieces : List Piece}
    (continues : ∀ piece ∈ pieces, piece.Continues) :
    (argumentsDelta (settings.newId translator.text.made)
      (translator.translateChunks settings (callChunks name pieces)).2).toList = writtenWhole (fragmentsOf pieces) := by
  have starts : translator.startedTool? { name := some name, willContinue := some true } = some name := by
    simp [StreamedCallTranslator.startedTool?, idle, named]
  have step : translator.translateChunk settings { name := some name, willContinue := some true } =
      translator.startCall settings name := by
    rw [StreamedCallTranslator.translateChunk, starts]
  rcases writing_startCall settings translator name with ⟨writing, silent⟩
  have ended : startedAfter [] (fragmentsOf pieces) = [] ↔ fragmentsOf pieces = [] := by
    constructor
    · intro none
      by_contra present
      rcases List.exists_mem_of_ne_nil _ present with ⟨fragment, member⟩
      have begun := (mem_startedAfter [] (fragmentsOf pieces) fragment.name).mpr (.inr (List.mem_map_of_mem member))
      rw [none] at begun
      cases begun
    · intro none
      rw [none, startedAfter]
  rw [callChunks, StreamedCallTranslator.translateChunks, argumentsDelta_append, step, silent, String.empty_append,
    writing.translateChunks settings continues, writtenWhole]
  simp only [ended]

/-! ## The object that is read -/

theorem nodup_startedAfter {started : List String} (distinct : started.Nodup) (fragments : List Fragment) :
    (startedAfter started fragments).Nodup := by
  induction fragments generalizing started with
  | nil => exact distinct
  | cons fragment rest ih =>
    rw [startedAfter]
    split
    case isTrue => exact ih distinct
    case isFalse fresh => exact ih (List.nodup_cons.mpr ⟨fresh, distinct⟩)

/-- Each name that is begun brings three quotes. -/
theorem quotes_written (fragments : List Fragment) (rest : List Char) :
    quotes false (written started fragments ++ rest) + 3 * started.length =
      3 * (startedAfter started fragments).length + quotes false rest := by
  induction fragments generalizing started with
  | nil =>
    rw [written, startedAfter, List.nil_append]
    omega
  | cons fragment later ih =>
    rw [written, startedAfter]
    split
    · rw [List.append_assoc, quotes_escape]
      exact ih started
    · have opening : ∀ text, quotes false ("\x7b\"".toList ++ text) = quotes false text + 1 := fun _ => rfl
      have colon : ∀ text, quotes false ("\": \"".toList ++ text) = quotes false text + 2 := fun _ => rfl
      have here := ih (fragment.name :: started)
      rw [List.append_assoc, List.append_assoc, List.append_assoc, List.append_assoc, opening, quotes_escape, colon,
        quotes_escape]
      rw [List.length_cons] at here
      omega

variable {fragments : List Fragment}

/-- Fragments of arguments that have been begun are escaped text. -/
theorem written_begun {started : List String} (begun : ∀ fragment ∈ fragments, fragment.name ∈ started) :
    written started fragments = escape (String.join (fragments.map Fragment.text)).toList := by
  induction fragments with
  | nil => rfl
  | cons fragment rest ih =>
    rw [written, if_pos (begun fragment List.mem_cons_self),
      ih (List.forall_mem_cons.mp begun).2, List.map_cons,
      String.join_cons, String.toList_append, escape_append]

/-- The text of a call of one argument. -/
theorem parse_writtenWhole (present : fragments ≠ []) {name : String}
    (same : ∀ fragment ∈ fragments, fragment.name = name) : parse (writtenWhole fragments) = some (.object
      [((pathKey ("$." ++ name)).toList, .string (String.join (fragments.map Fragment.text)).toList)]) := by
  cases fragments with
  | nil => exact absurd rfl present
  | cons fragment rest =>
    have begun : ∀ other ∈ rest, other.name ∈ [fragment.name] := by
      intro other member
      rw [same other (List.mem_cons_of_mem _ member), same fragment List.mem_cons_self]
      exact List.mem_cons_self
    rw [writtenWhole, written, if_neg List.not_mem_nil, if_neg present, written_begun begun,
      same fragment List.mem_cons_self,
      List.append_assoc _ (escape fragment.text.toList), ← escape_append, ← String.toList_append, ← String.join_cons,
      ← List.map_cons]
    exact parse_single _ _

theorem pathKey_eq_iff (name : String) :
    pathKey ("$." ++ name) = name ↔ name.toList.head? ≠ some '$' ∧ name.toList.head? ≠ some '.' := by
  have key : (pathKey ("$." ++ name)).toList = name.toList.dropWhile fun char => char = '$' || char = '.' := by
    rw [pathKey, String.toList_ofList, String.toList_append]
    rfl
  rw [← String.toList_inj, key]
  cases name.toList with
  | nil => simp
  | cons first rest =>
    rw [List.dropWhile_cons]
    split
    case isTrue root =>
      refine iff_of_false ?_ ?_
      · intro same
        have shorter := (List.dropWhile_suffix (l := rest) fun char => char = '$' || char = '.').length_le
        rw [same, List.length_cons] at shorter
        omega
      · rintro ⟨notDollar, notDot⟩
        simp only [List.head?_cons, ne_eq, Option.some.injEq] at notDollar notDot
        simp [notDollar, notDot] at root
    case isFalse other =>
      refine iff_of_true rfl ?_
      simpa [not_or] using other

theorem member_single (key name : List Char) (value : Value) :
    member? [(key, value)] name = if name = key then some value else none := by
  rw [member?, List.reverse_singleton, List.lookup_cons, List.lookup_nil]
  by_cases same : name = key
  · rw [if_pos same, same, beq_self_eq_true]
  · rw [if_neg same, beq_false_of_ne same]

theorem argumentText_of_same (present : fragments ≠ []) {name : String}
    (same : ∀ fragment ∈ fragments, fragment.name = name) (other : String) :
    argumentText fragments other = if other = name then some (String.join (fragments.map Fragment.text)) else none := by
  have names : other ∈ fragments.map Fragment.name ↔ other = name := by
    constructor
    · intro member
      rcases List.mem_map.mp member with ⟨fragment, inside, rfl⟩
      exact same fragment inside
    · rintro rfl
      rcases List.exists_mem_of_ne_nil _ present with ⟨fragment, inside⟩
      exact List.mem_map.mpr ⟨fragment, inside, same fragment inside⟩
  rw [argumentText]
  by_cases equal : other = name
  · subst equal
    have all : fragments.filter (fun fragment => fragment.name = other) = fragments :=
      List.filter_eq_self.mpr fun fragment member => decide_eq_true (same fragment member)
    rw [if_pos (names.mpr rfl), if_pos rfl, all]
  · rw [if_neg (mt names.mp equal), if_neg equal]

/-- The text a call becomes is that of its arguments just when it has one, with a name that the path keeps. -/
theorem formsArguments_iff (fragments : List Fragment) :
    FormsArguments (String.ofList (writtenWhole fragments)) fragments ↔ OneArgument fragments := by
  rw [FormsArguments, String.toList_ofList]
  constructor
  · rintro ⟨members, parsed, found⟩
    have distinct := nodup_startedAfter List.nodup_nil fragments
    have texts : ∀ name ∈ (startedAfter [] fragments).map String.toList,
        ∃ text, member? members name = some (.string text) := by
      intro name member
      rcases List.mem_map.mp member with ⟨argument, begun, rfl⟩
      have named : argument ∈ fragments.map Fragment.name := by
        simpa [mem_startedAfter] using begun
      rw [found, argumentText, if_pos named]
      exact ⟨_, rfl⟩
    have counted := two_names_le_memberTexts (distinct.map fun _ _ => String.toList_injective) texts
    have bounded := two_texts_le_quotes parsed
    by_cases present : fragments = []
    · rw [present] at parsed
      cases parsed
    · have spelled := quotes_written [] fragments "\"\x7d".toList
      have closing : quotes false "\"\x7d".toList = 1 := rfl
      rw [closing, List.length_nil] at spelled
      rw [writtenWhole, if_neg present] at bounded
      change 2 * memberTexts members ≤ _ at bounded
      rw [List.length_map] at counted
      have begun : ∀ fragment ∈ fragments, fragment.name ∈ startedAfter [] fragments :=
        fun fragment member => (mem_startedAfter [] fragments fragment.name).mpr (.inr (List.mem_map_of_mem member))
      have single : (startedAfter [] fragments).length = 1 := by
        rcases List.exists_mem_of_ne_nil _ present with ⟨fragment, inside⟩
        have positive := List.length_pos_of_mem (begun fragment inside)
        omega
      rcases List.length_eq_one_iff.mp single with ⟨name, only⟩
      have same : ∀ fragment ∈ fragments, fragment.name = name := by
        intro fragment member
        have listed := begun fragment member
        rwa [only, List.mem_singleton] at listed
      refine ⟨present, name, same, ?_⟩
      rw [parse_writtenWhole present same] at parsed
      cases parsed
      have held := found name
      rw [member_single, argumentText_of_same present same, if_pos rfl] at held
      by_contra lost
      rw [if_neg fun kept => lost ((pathKey_eq_iff name).mp (String.toList_injective kept.symm))] at held
      cases held
  · rintro ⟨present, name, same, kept⟩
    have key := (pathKey_eq_iff name).mpr kept
    refine ⟨_, parse_writtenWhole present same, ?_⟩
    intro other
    rw [member_single, key, argumentText_of_same present same]
    by_cases equal : other = name
    · rw [if_pos equal, if_pos (congrArg String.toList equal)]
      rfl
    · rw [if_neg equal, if_neg (mt String.toList_injective equal)]
      rfl

/-- The deltas of a streamed call form its arguments just when it has one
argument, whose name begins with neither character of a path's root. -/
theorem arguments_formed_iff (settings : StreamedCallSettings) (translator : StreamedCallTranslator)
    (idle : translator.activeStreamingFcId = none) (name : String) (named : name ≠ "") (pieces : List Piece)
    (continues : ∀ piece ∈ pieces, piece.Continues) :
    FormsArguments
        (argumentsDelta (settings.newId translator.text.made)
          (translator.translateChunks settings (callChunks name pieces)).2)
        (fragmentsOf pieces) ↔
      OneArgument (fragmentsOf pieces) := by
  have text := argumentsDelta_call settings translator idle named continues
  rw [← formsArguments_iff, ← text, String.ofList_toList]

def quietCallSettings : StreamedCallSettings :=
  { quietSettings with }

/-- One argument, cut inside its text. -/
def oneArgument : List Piece :=
  [{ fragments := [⟨"html", "<b class=\"é"⟩] }, { fragments := [⟨"html", ""⟩, ⟨"html", "\">"⟩] }]

theorem formed_oneArgument :
    FormsArguments
      (argumentsDelta "" (({} : StreamedCallTranslator).translateChunks quietCallSettings
        (callChunks "write" oneArgument)).2)
      (fragmentsOf oneArgument) :=
  (arguments_formed_iff quietCallSettings {} rfl "write" (by decide) oneArgument
    (by
      intro piece member
      simp only [oneArgument, List.mem_cons, List.not_mem_nil, or_false] at member
      rcases member with rfl | rfl <;> exact .inr rfl)).mpr
    ⟨List.cons_ne_nil _ _, "html", by decide, by decide⟩

def twoArguments : List Piece :=
  [{ fragments := [⟨"a", "x"⟩] }, { fragments := [⟨"b", "y"⟩] }]

/-- The texts of two arguments run into each other. -/
theorem twoArguments_not_formed :
    argumentsDelta "" (({} : StreamedCallTranslator).translateChunks quietCallSettings
      (callChunks "write" twoArguments)).2 =
        "\x7b\"a\": \"x\x7b\"b\": \"y\"\x7d" ∧
      ¬ FormsArguments
        (argumentsDelta ""
          (({} : StreamedCallTranslator).translateChunks quietCallSettings (callChunks "write" twoArguments)).2)
        (fragmentsOf twoArguments) := by
  have text : argumentsDelta ""
      (({} : StreamedCallTranslator).translateChunks quietCallSettings (callChunks "write" twoArguments)).2 =
        "\x7b\"a\": \"x\x7b\"b\": \"y\"\x7d" := by
    decide +kernel
  refine ⟨text, ?_⟩
  rw [text]
  rintro ⟨members, parsed, _⟩
  have refused : (parse "\x7b\"a\": \"x\x7b\"b\": \"y\"\x7d".toList).isNone = true := by
    decide +kernel
  rw [parsed] at refused
  cases refused

end Adk
end AgUi
