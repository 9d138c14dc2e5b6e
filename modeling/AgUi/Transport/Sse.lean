import Mathlib.Algebra.GroupWithZero.Nat
import Mathlib.Data.List.Basic
import AgUi.Library.Utf8
import AgUi.Library.Separated
import AgUi.Transport.Proto

namespace AgUi
namespace Transport
namespace Sse

open Library Library.Utf8

/-!
# The text transport

An event is a line `data: ` with its JSON text, ended by a blank line.
`parseSSEStream` decodes bytes as they come, cuts the text at blank lines and
keeps the tail.  Coding JSON is the work of the language, and a parameter.

A tail may hold the first half of the blank line that is to end it.  What a
subscriber sees depends on the bytes alone as long as the buffer has room for
that half.
-/

/-- `MAX_BUFFER_SIZE` -/
def maxBufferSize : Nat :=
  10 * 1024 * 1024

/-- The length of a string, which counts a character beyond the first plane twice. -/
def length (text : List Char) : Nat :=
  (text.map fun char => if char.toNat < 0x10000 then 1 else 2).sum

inductive SseError where
  | oversized
  | unparsable (message : String)
deriving DecidableEq

def SseError.message : SseError -> String
  | oversized => "SSE buffer size exceeded maximum limit of 10 MB"
  | unparsable message => message

abbrev SseSignal (V : Type) := Signal V SseError

variable {V : Type}

/-! ## Events -/

def dataPrefix : List Char :=
  ['d', 'a', 't', 'a', ':']

/-- `.replace(/^ /, "")` -/
def stripSpace : List Char -> List Char
  | ' ' :: rest => rest
  | line => line

def dataLine (line : List Char) : Option (List Char) :=
  if dataPrefix.isPrefixOf line then some (stripSpace (line.drop 5)) else none

/-- The data lines of a frame together are one value. -/
def processSSEEvent (parse : List Char -> Except String V) (eventText : List Char) : List (SseSignal V) :=
  let dataLines := (eventText.splitOn '\n').filterMap dataLine
  if dataLines.isEmpty then []
  else
    match parse (['\n'].intercalate dataLines) with
    | .ok json => [.next json]
    | .error message => [.error (.unparsable message)]

def encodeSSE (stringify : V -> List Char) (omitOptionalNulls : V -> V) (event : V) : List Char :=
  dataPrefix ++ ' ' :: stringify (omitOptionalNulls event) ++ ['\n', '\n']

/-! ## The parser -/

structure SseState where
  decoder : TextDecoder := {}
  buffer : List Char := []

/-- Text may be cut anywhere, within a character too. -/
def receive (parse : List Char -> Except String V) (state : SseState) : HttpEvent -> SseState × List (SseSignal V)
  | .data (some bytes) =>
    let text := state.decoder.decode bytes
    let events := cut '\n' (state.buffer ++ text.2)
    ({ decoder := text.1, buffer := events.tail },
      events.pieces.flatMap (processSSEEvent parse) ++
        if maxBufferSize < length events.tail then [.error .oversized] else [])
  | _ => (state, [])

/-- The end of the response. -/
def finish (parse : List Char -> Except String V) (state : SseState) : List (SseSignal V) :=
  (if state.buffer.isEmpty then []
    else processSSEEvent parse (state.buffer ++ state.decoder.decoder.flush)) ++ [Signal.complete]

def signals (parse : List Char -> Except String V) (state : SseState) : List HttpEvent -> List (SseSignal V)
  | [] => finish parse state
  | event :: rest => (receive parse state event).2 ++ signals parse (receive parse state event).1 rest

/-- What a subscriber sees of a response that ends. -/
def parseSSEStream (parse : List Char -> Except String V) (source : List HttpEvent) : List V × Ending SseError :=
  observe (signals parse {} source)

/-! ## The verdict on all bytes -/

/-- No piece is too long, `reserve` characters of its blank line included. -/
def Within (reserve : Nat) (frames : Cut Char) : Prop :=
  (∀ frame ∈ frames.pieces, length frame + reserve ≤ maxBufferSize) ∧
    length frames.tail ≤ maxBufferSize

/-- The text of a response, cut at its blank lines. -/
def framesOf (bytes : List UInt8) : Cut Char :=
  cut '\n' (TextDecoder.decode {} bytes).2

def FramesWithin (reserve : Nat) (bytes : List UInt8) : Prop :=
  Within reserve (framesOf bytes)

/-- Everything said of a text that is cut into these frames. -/
def said (parse : List Char -> Except String V) (decoder : TextDecoder) (frames : Cut Char) : List (SseSignal V) :=
  frames.pieces.flatMap (processSSEEvent parse) ++ finish parse { decoder := decoder, buffer := frames.tail }

def verdict (parse : List Char -> Except String V) (bytes : List UInt8) : List V × Ending SseError :=
  observe (said parse (TextDecoder.decode {} bytes).1 (framesOf bytes))

theorem length_append (first second : List Char) : length (first ++ second) = length first + length second := by
  rw [length, List.map_append, List.sum_append]
  rfl

theorem length_le_of_prefix {first second : List Char} (begins : first.IsPrefix second) :
    length first ≤ length second := by
  rcases begins with ⟨rest, rfl⟩
  rw [length_append]
  omega

theorem length_lineFeed : length ['\n'] = 1 :=
  rfl

section Parses

variable (parse : List Char -> Except String V)

/-- With more to come, a tail fits as soon as what becomes of it does. -/
theorem tail_within {buffer more : List Char} (uncut : (cut '\n' buffer).pieces = [])
    (within : Within 1 (cut '\n' (buffer ++ more))) : length buffer ≤ maxBufferSize := by
  rcases cutting : (cut '\n' (buffer ++ more)).pieces with _ | ⟨piece, others⟩
  · have longer := within.2
    rw [tail_of_pieces_eq_nil '\n' cutting, length_append] at longer
    omega
  · have begins := length_le_of_prefix (prefix_of_pieces '\n' uncut cutting)
    have room := within.1 piece (by rw [cutting]; exact List.mem_cons_self)
    rw [length_append, length_lineFeed] at begins
    omega

/-- What a subscriber sees is said of the whole text, however its bytes are cut. -/
theorem observe_signals (source : List HttpEvent) (state : SseState) (uncut : (cut '\n' state.buffer).pieces = [])
    (within : Within 1 (cut '\n' (state.buffer ++ (state.decoder.decode (source.flatMap HttpEvent.bytes)).2))) :
    observe (signals parse state source) =
      observe (said parse (state.decoder.decode (source.flatMap HttpEvent.bytes)).1
        (cut '\n' (state.buffer ++ (state.decoder.decode (source.flatMap HttpEvent.bytes)).2))) := by
  induction source generalizing state with
  | nil =>
    have nothing : state.decoder.decode [] = (state.decoder, []) := rfl
    rw [List.flatMap_nil, nothing, List.append_nil, said, uncut, tail_of_pieces_eq_nil '\n' uncut]
    rfl
  | cons event rest ih =>
    have passed : event.bytes = [] -> receive parse state event = (state, []) ->
        observe (signals parse state (event :: rest)) =
          observe (said parse (state.decoder.decode ((event :: rest).flatMap HttpEvent.bytes)).1
            (cut '\n' (state.buffer ++ (state.decoder.decode ((event :: rest).flatMap HttpEvent.bytes)).2))) := by
      intro nothing same
      rw [List.flatMap_cons, nothing, List.nil_append] at within ⊢
      rw [signals, same]
      exact ih state uncut within
    cases event with
    | headers => exact passed rfl rfl
    | data bytes =>
      cases bytes with
      | none => exact passed rfl rfl
      | some bytes =>
        let text := state.decoder.decode bytes
        let events := cut '\n' (state.buffer ++ text.2)
        let later := text.1.decode (rest.flatMap HttpEvent.bytes)
        have decoded : state.decoder.decode ((HttpEvent.data (some bytes) :: rest).flatMap HttpEvent.bytes) =
            (later.1, text.2 ++ later.2) := by
          rw [List.flatMap_cons, TextDecoder.decode_append]
          rfl
        rw [decoded] at within ⊢
        simp only at within ⊢
        rw [← List.append_assoc, cut_append] at within ⊢
        have tail_uncut : (cut '\n' events.tail).pieces = [] :=
          congrArg Cut.pieces (cut_tail '\n' (state.buffer ++ text.2))
        have tail_fits : Within 1 (cut '\n' (events.tail ++ later.2)) :=
          ⟨(List.forall_mem_append.mp within.1).2, within.2⟩
        have small : ¬ maxBufferSize < length events.tail := by
          have fits := tail_within tail_uncut tail_fits
          omega
        have received : receive parse state (.data (some bytes)) =
            ({ decoder := text.1, buffer := events.tail },
              events.pieces.flatMap (processSSEEvent parse)) := by
          simp only [receive]
          rw [if_neg small, List.append_nil]
        have heard := ih { decoder := text.1, buffer := events.tail } tail_uncut tail_fits
        rw [signals, received, said, Cut.resume, List.flatMap_append, List.append_assoc]
        exact observe_append_congr_right _ heard

theorem parseSSEStream_eq (source : List HttpEvent)
    (within : FramesWithin 1 (source.flatMap HttpEvent.bytes)) :
    parseSSEStream parse source = verdict parse (source.flatMap HttpEvent.bytes) :=
  observe_signals parse source {} rfl within

end Parses

/-! ## Reading back what was encoded -/

section RoundTrip

variable (stringify : V -> List Char) (omitOptionalNulls : V -> V)

/-- The text of an encoded event before its blank line. -/
def eventText (event : V) : List Char :=
  dataPrefix ++ ' ' :: stringify (omitOptionalNulls event)

theorem encodeSSE_eq (event : V) :
    encodeSSE stringify omitOptionalNulls event = eventText stringify omitOptionalNulls event ++ ['\n', '\n'] :=
  rfl

theorem lineFeed_notMem_eventText (oneLine : ∀ event, '\n' ∉ stringify event) (event : V) :
    '\n' ∉ eventText stringify omitOptionalNulls event := by
  intro member
  rcases List.mem_append.mp member with inPrefix | inRest
  · exact absurd inPrefix (by decide)
  · rcases List.mem_cons.mp inRest with space | inJson
    · exact absurd space (by decide)
    · exact oneLine _ inJson

theorem processSSEEvent_eventText {parse : List Char -> Except String V}
    (oneLine : ∀ event, '\n' ∉ stringify event) {event : V}
    (inverts : parse (stringify (omitOptionalNulls event)) = .ok event) :
    processSSEEvent parse (eventText stringify omitOptionalNulls event) = [.next event] := by
  have line : (eventText stringify omitOptionalNulls event).splitOn '\n' =
      [eventText stringify omitOptionalNulls event] :=
    List.splitOn_eq_singleton (lineFeed_notMem_eventText stringify omitOptionalNulls oneLine event)
  have data : dataLine (eventText stringify omitOptionalNulls event) =
      some (stringify (omitOptionalNulls event)) := rfl
  have joined : ['\n'].intercalate [stringify (omitOptionalNulls event)] = stringify (omitOptionalNulls event) := by
    simp
  simp only [processSSEEvent, line, List.filterMap_cons, data, List.filterMap_nil, List.isEmpty_cons,
    Bool.false_eq_true, if_false, joined, inverts]

section

variable (oneLine : ∀ event, '\n' ∉ stringify event)

include oneLine

/-- The frames of encoded events are the events. -/
theorem framesOf_encode (events : List V) :
    framesOf (encode (events.flatMap (encodeSSE stringify omitOptionalNulls))) =
      ⟨events.map (eventText stringify omitOptionalNulls), []⟩ := by
  have unmarked : (events.flatMap (encodeSSE stringify omitOptionalNulls)).head? ≠ some byteOrderMark := by
    cases events with
    | nil => exact Option.some_ne_none byteOrderMark |>.symm
    | cons event rest =>
      intro marked
      have begins : some 'd' = some byteOrderMark := marked
      exact absurd begins (by decide)
  have texts : events.flatMap (encodeSSE stringify omitOptionalNulls) =
      (events.map (eventText stringify omitOptionalNulls)).flatMap fun text => text ++ ['\n', '\n'] := by
    rw [List.flatMap_map]
    rfl
  rw [framesOf, (TextDecoder.decode_encode unmarked).1, texts]
  apply cut_pieces
  intro text member
  rcases List.mem_map.mp member with ⟨event, _, rfl⟩
  exact lineFeed_notMem_eventText stringify omitOptionalNulls oneLine event

theorem framesWithin_encode {events : List V}
    (fits : ∀ event ∈ events, length (encodeSSE stringify omitOptionalNulls event) ≤ maxBufferSize) :
    FramesWithin 1 (encode (events.flatMap (encodeSSE stringify omitOptionalNulls))) := by
  rw [FramesWithin, framesOf_encode stringify omitOptionalNulls oneLine]
  refine ⟨?_, Nat.zero_le _⟩
  intro frame member
  rcases List.mem_map.mp member with ⟨event, listed, rfl⟩
  have whole := fits event listed
  rw [encodeSSE_eq, length_append] at whole
  have blank : length ['\n', '\n'] = 2 := rfl
  omega

theorem verdict_encode {parse : List Char -> Except String V} {events : List V}
    (inverts : ∀ event ∈ events, parse (stringify (omitOptionalNulls event)) = .ok event) :
    verdict parse (encode (events.flatMap (encodeSSE stringify omitOptionalNulls))) = (events, .completed) := by
  have spoken : (events.map (eventText stringify omitOptionalNulls)).flatMap (processSSEEvent parse) =
      events.map .next := by
    rw [List.flatMap_map, ← List.flatMap_pure_eq_map]
    apply List.flatMap_congr
    intro event member
    exact processSSEEvent_eventText stringify omitOptionalNulls oneLine (inverts event member)
  rw [verdict, framesOf_encode stringify omitOptionalNulls oneLine, said, spoken, observe_nexts]
  simp [finish, observe]

end

end RoundTrip

/-- The parser gives back what was encoded, and what it makes of a response
whose frames fit depends on the bytes and not on how they arrive. -/
theorem parseSSEStream_correct (stringify : V -> List Char) (parse : List Char -> Except String V)
    (omitOptionalNulls : V -> V) (Valid : V -> Prop)
    (inverts : ∀ event, Valid event -> parse (stringify event) = .ok event)
    (oneLine : ∀ event, '\n' ∉ stringify event)
    (nothingOmitted : ∀ event, Valid event -> omitOptionalNulls event = event) :
    (∀ (events : List V) (source : List HttpEvent),
      (∀ event ∈ events,
        Valid event ∧ length (encodeSSE stringify omitOptionalNulls event) ≤ maxBufferSize) ->
      source.flatMap HttpEvent.bytes = encode (events.flatMap (encodeSSE stringify omitOptionalNulls)) ->
      parseSSEStream parse source = (events, .completed)) ∧
    (∀ source other : List HttpEvent,
      source.flatMap HttpEvent.bytes = other.flatMap HttpEvent.bytes ->
      FramesWithin 1 (source.flatMap HttpEvent.bytes) ->
      parseSSEStream parse source = parseSSEStream parse other) := by
  constructor
  · intro events source valid bytes
    have within := framesWithin_encode stringify omitOptionalNulls oneLine fun event member => (valid event member).2
    rw [← bytes] at within
    rw [parseSSEStream_eq parse source within, bytes]
    apply verdict_encode stringify omitOptionalNulls oneLine
    intro event member
    rw [nothingOmitted event (valid event member).1, inverts event (valid event member).1]
  · intro source other bytes within
    rw [parseSSEStream_eq parse source within, parseSSEStream_eq parse other (bytes ▸ within), bytes]

/-- Texts of one character, written without escapes. -/
def stringifyLetter : Bool -> List Char
  | true => ['"', 'é', '"']
  | false => ['"', 'e', '"']

def parseLetter (text : List Char) : Except String Bool :=
  if text = ['"', 'é', '"'] then .ok true
  else if text = ['"', 'e', '"'] then .ok false
  else .error "Unexpected token"

/-- Two events, cut inside a character and inside the blank line; and bytes
that end inside a character. -/
theorem parseSSEStream_correct_cut :
    parseSSEStream parseLetter
        [.headers, .data (some [100, 97, 116, 97, 58, 32, 34, 195]), .data (some []), .data (some [169, 34, 10]),
          .data (some [10, 100, 97, 116, 97, 58, 32, 34, 101, 34, 10, 10])] =
      ([true, false], .completed) ∧
    parseSSEStream parseLetter [.data (some [100, 97, 116, 97, 58, 195])] =
      parseSSEStream parseLetter [.data (some [100, 97, 116]), .data (some [97, 58, 195])] := by
  have correct := parseSSEStream_correct stringifyLetter parseLetter id (fun _ => True)
    (by intro event _; cases event <;> rfl) (by intro event; cases event <;> decide) (fun _ _ => rfl)
  refine ⟨correct.1 [true, false] _ ?_ (by decide), correct.2 _ _ rfl ?_⟩
  · intro event _
    refine ⟨trivial, ?_⟩
    cases event <;> decide
  · refine ⟨?_, by decide⟩
    intro frame member
    cases member

/-! ## A frame that fills the buffer -/

/-- A frame of another field, as long as the buffer may become. -/
def fullFrame : List Char :=
  List.replicate maxBufferSize ':'

theorem length_fullFrame : length fullFrame = maxBufferSize := by
  rw [length, fullFrame, List.map_replicate, List.sum_replicate_nat]
  exact Nat.mul_one maxBufferSize

theorem lineFeed_notMem_fullFrame : '\n' ∉ fullFrame := by
  intro member
  exact absurd (List.eq_of_mem_replicate member) (by decide)

theorem fullFrame_cons : fullFrame = ':' :: List.replicate (maxBufferSize - 1) ':' := by
  rw [fullFrame, show maxBufferSize = maxBufferSize - 1 + 1 by decide, List.replicate_succ]
  rfl

theorem decode_fullFrame (rest : List Char) :
    (TextDecoder.decode {} (encode (fullFrame ++ rest))).2 = fullFrame ++ rest := by
  apply (TextDecoder.decode_encode _).1
  rw [fullFrame_cons]
  intro marked
  have begins : some ':' = some byteOrderMark := marked
  exact absurd begins (by decide)

theorem processSSEEvent_fullFrame (parse : List Char -> Except String V) : processSSEEvent parse fullFrame = [] := by
  have line : fullFrame.splitOn '\n' = [fullFrame] := List.splitOn_eq_singleton lineFeed_notMem_fullFrame
  have other : dataLine fullFrame = none := by
    rw [fullFrame_cons]
    rfl
  simp [processSSEEvent, line, other]

theorem framesOf_fullFrame : framesOf (encode (fullFrame ++ ['\n', '\n'])) = ⟨[fullFrame], []⟩ := by
  rw [framesOf, decode_fullFrame]
  exact cut_piece '\n' lineFeed_notMem_fullFrame []

theorem framesWithin_fullFrame : FramesWithin 0 (encode (fullFrame ++ ['\n', '\n'])) := by
  rw [FramesWithin, framesOf_fullFrame]
  constructor
  · intro frame member
    rw [List.mem_singleton.mp member, length_fullFrame]
    exact Nat.le_refl maxBufferSize
  · exact Nat.zero_le maxBufferSize

theorem receive_of_cut (parse : List Char -> Except String V) {text : List Char} {bytes : List UInt8}
    {frames : Cut Char} (decoded : (TextDecoder.decode {} bytes).2 = text) (cutting : cut '\n' text = frames) :
    receive parse {} (.data (some bytes)) =
      ({ decoder := (TextDecoder.decode {} bytes).1, buffer := frames.tail },
        frames.pieces.flatMap (processSSEEvent parse) ++
          if maxBufferSize < length frames.tail then [.error .oversized] else []) := by
  subst decoded cutting
  rfl

theorem parse_fullFrame_whole (parse : List Char -> Except String V) :
    parseSSEStream parse [.data (some (encode (fullFrame ++ ['\n', '\n'])))] = ([], .completed) := by
  have received := receive_of_cut parse (decode_fullFrame ['\n', '\n'])
    (cut_piece '\n' lineFeed_notMem_fullFrame [])
  have small : ¬ maxBufferSize < length [] := Nat.not_lt_zero maxBufferSize
  rw [cut, List.flatMap_cons, processSSEEvent_fullFrame, if_neg small] at received
  rw [parseSSEStream, signals, received, signals, finish, List.isEmpty_nil, if_pos rfl]
  rfl

theorem parse_fullFrame_cut (parse : List Char -> Except String V) (rest : List HttpEvent) :
    parseSSEStream parse (.data (some (encode (fullFrame ++ ['\n']))) :: rest) = ([], .failed .oversized) := by
  have received := receive_of_cut parse (decode_fullFrame ['\n']) rfl
  have uncut := cut_half '\n' lineFeed_notMem_fullFrame
  have beyond : maxBufferSize < length (fullFrame ++ ['\n']) := by
    rw [length_append, length_fullFrame, length_lineFeed]
    exact Nat.lt_succ_self maxBufferSize
  rw [uncut, tail_of_pieces_eq_nil '\n' uncut, if_pos beyond, List.flatMap_nil, List.nil_append] at received
  rw [parseSSEStream, signals, received, List.singleton_append, observe]

/-- Every frame fits, and the response completes when it comes at once.  When
it comes in two parts, with the first half of the blank line in the first,
that half no longer fits in the buffer. -/
theorem parseSSEStream_refused :
    encode (fullFrame ++ ['\n']) ++ encode ['\n'] = encode (fullFrame ++ ['\n', '\n']) ∧
    FramesWithin 0 (encode (fullFrame ++ ['\n', '\n'])) ∧
    parseSSEStream parseLetter [.data (some (encode (fullFrame ++ ['\n', '\n'])))] = ([], .completed) ∧
    parseSSEStream parseLetter [.data (some (encode (fullFrame ++ ['\n']))), .data (some (encode ['\n']))] =
      ([], .failed .oversized) := by
  refine ⟨?_, framesWithin_fullFrame, parse_fullFrame_whole parseLetter, parse_fullFrame_cut parseLetter _⟩
  rw [← encode_append, List.append_assoc]
  rfl

end Sse
end Transport
end AgUi
