import Mathlib.Algebra.Group.Nat.Defs
import Mathlib.Data.List.Basic
import AgUi.Library.Subject

namespace AgUi
namespace Transport

open Library

/-!
# The binary transport

A frame is the length of a message as four bytes, most significant first,
and then the message.  `parseProtoStream` collects bytes in a buffer and
takes whole frames off its front; the coding of a message is the work of a
library, and a parameter.

What a subscriber sees is computed here from the bytes alone: `verdict` reads
the concatenation of all chunks once, from the front.
-/

/-- What the transport hands on of an HTTP response. -/
inductive HttpEvent where
  | headers
  | data (bytes : Option (List UInt8))

/-- `event.type === DATA && event.data` -/
def HttpEvent.bytes : HttpEvent -> List UInt8
  | .data (some bytes) => bytes
  | _ => []

/-- `MAX_BUFFER_SIZE` -/
def maxBufferSize : Nat :=
  10 * 1024 * 1024

/-- What decoding one message comes to. -/
inductive Decoded (V : Type) where
  | event (event : V)
  /-- The message is of a type this build does not know. -/
  | unknownType
  | failure (message : String)

inductive ProtoError where
  | oversized
  | undecodable (message : String)
  | truncated (trailing : Nat)
deriving DecidableEq

def ProtoError.message : ProtoError -> String
  | oversized => "Protobuf message size exceeded maximum limit of 10 MB"
  | undecodable message => "Failed to decode protocol buffer message: " ++ message
  | truncated trailing =>
    "The binary stream ended mid-frame: " ++ toString trailing ++
      " trailing bytes could not be read as a complete message."

/-! ## Frames -/

/-- The bytes of a number, most significant first. -/
def bigEndian (width number : Nat) : List UInt8 :=
  match width with
  | 0 => []
  | width + 1 => UInt8.ofNat (number / 256 ^ width) :: bigEndian width number

def readBigEndian (bytes : List UInt8) : Nat :=
  bytes.foldl (fun number byte => number * 256 + byte.toNat) 0

variable {V : Type}

def encodeProtobuf (encode : V -> List UInt8) (event : V) : List UInt8 :=
  bigEndian 4 (encode event).length ++ encode event

/-- The length a frame says it has, its own four bytes included. -/
def totalLength (buffer : List UInt8) : Nat :=
  4 + readBigEndian (buffer.take 4)

/-! ## The parser -/

/-- Why the parser stops taking frames off the buffer. -/
inductive Stop where
  | waiting
  | oversized
  | undecodable (message : String)

structure Scan (V : Type) where
  events : List V
  stop : Stop
  rest : List UInt8

def Scan.prepend (event : V) (scan : Scan V) : Scan V :=
  { scan with events := event :: scan.events }

/-- The loop over the whole frames in the buffer. -/
def scanFrames (decode : List UInt8 -> Decoded V) (buffer : List UInt8) : Scan V :=
  if buffer.length < 4 then ⟨[], .waiting, buffer⟩
  else if maxBufferSize < totalLength buffer then ⟨[], .oversized, buffer⟩
  else if buffer.length < totalLength buffer then ⟨[], .waiting, buffer⟩
  else
    match decode ((buffer.take (totalLength buffer)).drop 4) with
    | .event event => (scanFrames decode (buffer.drop (totalLength buffer))).prepend event
    | .unknownType => scanFrames decode (buffer.drop (totalLength buffer))
    | .failure message => ⟨[], .undecodable message, buffer⟩
termination_by buffer.length
decreasing_by all_goals (rw [List.length_drop]; unfold totalLength at *; omega)

structure ProtoState where
  buffer : List UInt8 := []
  failed : Bool := false

abbrev ProtoSignal (V : Type) := Signal V ProtoError

/-- `processBuffer` -/
def processBuffer (decode : List UInt8 -> Decoded V) (state : ProtoState) :
    ProtoState × List (ProtoSignal V) :=
  if state.failed then (state, [])
  else
    let scan := scanFrames decode state.buffer
    match scan.stop with
    | .waiting => ({ state with buffer := scan.rest }, scan.events.map .next)
    | .oversized => ({ state with buffer := scan.rest }, scan.events.map .next ++ [Signal.error .oversized])
    | .undecodable message =>
      ({ buffer := scan.rest, failed := true },
        scan.events.map .next ++ [Signal.error (.undecodable message)])

/-- Bytes are appended to the buffer, and every complete frame is taken from it. -/
def receive (decode : List UInt8 -> Decoded V) (state : ProtoState) : HttpEvent ->
    ProtoState × List (ProtoSignal V)
  | .data (some bytes) => processBuffer decode { state with buffer := state.buffer ++ bytes }
  | _ => (state, [])

/-- The end of the response. -/
def finish (decode : List UInt8 -> Decoded V) (state : ProtoState) : List (ProtoSignal V) :=
  let drained := processBuffer decode state
  drained.2 ++
    if drained.1.failed then []
    else if drained.1.buffer.isEmpty then [.complete]
    else [.error (.truncated drained.1.buffer.length)]

/-- What the subscriber is told over a whole response. -/
def signals (decode : List UInt8 -> Decoded V) (state : ProtoState) : List HttpEvent -> List (ProtoSignal V)
  | [] => finish decode state
  | event :: rest => (receive decode state event).2 ++ signals decode (receive decode state event).1 rest

/-- What a subscriber sees of a response that ends. -/
def parseProtoStream (decode : List UInt8 -> Decoded V) (source : List HttpEvent) : List V × Ending ProtoError :=
  observe (signals decode {} source)

/-! ## The verdict on all bytes -/

/-- What becomes of a stream of these bytes. -/
def Scan.verdict (scan : Scan V) : List V × Ending ProtoError :=
  (scan.events,
    match scan.stop with
    | .waiting => if scan.rest.isEmpty then .completed else .failed (.truncated scan.rest.length)
    | .oversized => .failed .oversized
    | .undecodable message => .failed (.undecodable message))

/-- Go on from where a scan stopped, with more bytes. -/
def Scan.resume (decode : List UInt8 -> Decoded V) (scan : Scan V) (more : List UInt8) : Scan V :=
  match scan.stop with
  | .waiting =>
    let later := scanFrames decode (scan.rest ++ more)
    { later with events := scan.events ++ later.events }
  | _ => { scan with rest := scan.rest ++ more }

theorem totalLength_append {buffer : List UInt8} (header : ¬ buffer.length < 4) (more : List UInt8) :
    totalLength (buffer ++ more) = totalLength buffer := by
  unfold totalLength
  rw [List.take_append_of_le_length (by omega)]

section Scans

variable (decode : List UInt8 -> Decoded V)

theorem resume_prepend (event : V) (scan : Scan V) (more : List UInt8) :
    (scan.prepend event).resume decode more = (scan.resume decode more).prepend event := by
  rcases scan with ⟨events, stop, rest⟩
  cases stop <;> rfl

/-- A scan may be interrupted anywhere. -/
theorem scanFrames_append (buffer more : List UInt8) :
    scanFrames decode (buffer ++ more) = (scanFrames decode buffer).resume decode more := by
  fun_induction scanFrames decode buffer with
  | case1 buffer short => rfl
  | case2 buffer header large =>
    rw [scanFrames, if_neg (by rw [List.length_append]; omega), totalLength_append header, if_pos large]
    rfl
  | case3 buffer header small short => rfl
  | case4 buffer header small whole event decoded ih =>
    rw [resume_prepend, ← ih, scanFrames, totalLength_append header,
      if_neg (by rw [List.length_append]; omega), if_neg small, if_neg (by rw [List.length_append]; omega),
      List.take_append_of_le_length (by omega), List.drop_append_of_le_length (by omega), decoded]
  | case5 buffer header small whole decoded ih =>
    rw [← ih, scanFrames, totalLength_append header,
      if_neg (by rw [List.length_append]; omega), if_neg small, if_neg (by rw [List.length_append]; omega),
      List.take_append_of_le_length (by omega), List.drop_append_of_le_length (by omega), decoded]
  | case6 buffer header small whole message decoded =>
    rw [scanFrames, totalLength_append header,
      if_neg (by rw [List.length_append]; omega), if_neg small, if_neg (by rw [List.length_append]; omega),
      List.take_append_of_le_length (by omega), decoded]
    rfl

/-- A scan that came to a stop of its own has the last word. -/
theorem verdict_resume_of_stopped {scan : Scan V} (more : List UInt8)
    (stopped : scan.stop = .oversized ∨ ∃ message, scan.stop = .undecodable message) :
    (scan.resume decode more).verdict = scan.verdict := by
  rcases stopped with stop | ⟨message, stop⟩ <;> simp only [Scan.resume, Scan.verdict, stop]

/-- What a subscriber sees is the verdict on the bytes, however they are cut. -/
theorem observe_signals (source : List HttpEvent) (buffer : List UInt8) :
    observe (signals decode { buffer := buffer } source) =
      (scanFrames decode (buffer ++ source.flatMap HttpEvent.bytes)).verdict := by
  induction source generalizing buffer with
  | nil =>
    rw [signals, finish, processBuffer, List.flatMap_nil, List.append_nil, if_neg Bool.false_ne_true]
    rcases scanned : scanFrames decode buffer with ⟨events, stop, rest⟩
    cases stop with
    | waiting =>
      simp only [Scan.verdict, Bool.false_eq_true, if_false]
      rw [observe_nexts]
      cases rest <;> simp [observe]
    | oversized | undecodable message =>
      rw [observe_append_of_ended (by rw [observe_nexts]; simp [observe]), observe_nexts]
      simp [Scan.verdict, observe]
  | cons event rest ih =>
    have passed : event.bytes = [] -> receive decode { buffer := buffer } event =
        ({ buffer := buffer }, []) ->
        observe (signals decode { buffer := buffer } (event :: rest)) =
          (scanFrames decode (buffer ++ (event :: rest).flatMap HttpEvent.bytes)).verdict := by
      intro nothing same
      rw [signals, same, List.flatMap_cons, nothing]
      exact ih buffer
    cases event with
    | headers => exact passed rfl rfl
    | data bytes =>
      cases bytes with
      | none => exact passed rfl rfl
      | some bytes =>
        rw [signals, receive, List.flatMap_cons, HttpEvent.bytes, ← List.append_assoc,
          scanFrames_append decode (buffer ++ bytes), processBuffer, if_neg Bool.false_ne_true]
        rcases scanned : scanFrames decode (buffer ++ bytes) with ⟨events, stop, tail⟩
        cases stop with
        | waiting =>
          simp only [observe_nexts, ih]
          rfl
        | oversized =>
          rw [verdict_resume_of_stopped decode _ (.inl rfl),
            observe_append_of_ended (by rw [observe_nexts]; simp [observe]), observe_nexts]
          simp [Scan.verdict, observe]
        | undecodable message =>
          rw [verdict_resume_of_stopped decode _ (.inr ⟨message, rfl⟩),
            observe_append_of_ended (by rw [observe_nexts]; simp [observe]), observe_nexts]
          simp [Scan.verdict, observe]

theorem parseProtoStream_eq (source : List HttpEvent) :
    parseProtoStream decode source = (scanFrames decode (source.flatMap HttpEvent.bytes)).verdict :=
  observe_signals decode source []

end Scans

/-! ## Whole frames -/

/-- The event a message holds, if it is one this build knows. -/
def decodedEvent : Decoded V -> Option V
  | .event event => some event
  | _ => none

/-- A message behind its length. -/
def frame (message : List UInt8) : List UInt8 :=
  bigEndian 4 message.length ++ message

theorem length_bigEndian (width number : Nat) : (bigEndian width number).length = width := by
  induction width with
  | zero => rfl
  | succ width ih => rw [bigEndian, List.length_cons, ih]

theorem readBigEndian_bigEndian {number : Nat} (small : number < 256 ^ 4) :
    readBigEndian (bigEndian 4 number) = number := by
  simp only [bigEndian, readBigEndian, List.foldl_cons, List.foldl_nil, UInt8.toNat_ofNat']
  omega

theorem totalLength_frame {message : List UInt8} (fits : 4 + message.length ≤ maxBufferSize)
    (rest : List UInt8) : totalLength (frame message ++ rest) = 4 + message.length := by
  have small : message.length < 256 ^ 4 := by
    unfold maxBufferSize at fits
    omega
  rw [totalLength, frame, List.append_assoc, List.take_left' (length_bigEndian 4 _),
    readBigEndian_bigEndian small]

/-- A whole frame is taken off the front. -/
theorem scanFrames_frame (decode : List UInt8 -> Decoded V) {message : List UInt8}
    (fits : 4 + message.length ≤ maxBufferSize) (rest : List UInt8) :
    scanFrames decode (frame message ++ rest) =
      match decode message with
      | .event event => (scanFrames decode rest).prepend event
      | .unknownType => scanFrames decode rest
      | .failure cause => ⟨[], .undecodable cause, frame message ++ rest⟩ := by
  have length : (frame message).length = 4 + message.length := by
    rw [frame, List.length_append, length_bigEndian]
  have total := totalLength_frame fits rest
  have body : ((frame message ++ rest).take (4 + message.length)).drop 4 = message := by
    rw [List.take_left' length, frame, List.drop_left' (length_bigEndian 4 _)]
  rw [scanFrames, total, if_neg (by rw [List.length_append]; omega), if_neg (by omega),
    if_neg (by rw [List.length_append]; omega), body, List.drop_left' length]

/-- Messages that fit and that this build can read or knows to skip. -/
def Readable (decode : List UInt8 -> Decoded V) (messages : List (List UInt8)) : Prop :=
  ∀ message ∈ messages, 4 + message.length ≤ maxBufferSize ∧
    ∀ cause, decode message ≠ .failure cause

theorem scanFrames_frames (decode : List UInt8 -> Decoded V) {messages : List (List UInt8)}
    (readable : Readable decode messages) (rest : List UInt8) :
    scanFrames decode (messages.flatMap frame ++ rest) =
      { scanFrames decode rest with
        events := messages.filterMap (fun message => decodedEvent (decode message)) ++
          (scanFrames decode rest).events } := by
  induction messages with
  | nil => rfl
  | cons message others ih =>
    have later := ih (List.forall_mem_cons.mp readable).2
    have own := readable message List.mem_cons_self
    rw [List.flatMap_cons, List.append_assoc, scanFrames_frame decode own.1]
    cases decoded : decode message with
    | event event =>
      simp only [later, Scan.prepend, List.filterMap_cons, decoded, decodedEvent, List.cons_append]
    | unknownType => simp only [later, List.filterMap_cons, decoded, decodedEvent]
    | failure cause => exact absurd decoded (own.2 cause)

/-- Bytes that begin a frame and do not finish it. -/
def EndsInside (rest : List UInt8) : Prop :=
  rest ≠ [] ∧ (rest.length < 4 ∨ rest.length < totalLength rest)

theorem verdict_of_endsInside (decode : List UInt8 -> Decoded V) {rest : List UInt8} (inside : EndsInside rest) :
    (scanFrames decode rest).events = [] ∧
      ∃ cause, (scanFrames decode rest).verdict.2 = .failed cause := by
  have some_bytes : rest.isEmpty = false := by
    rw [List.isEmpty_eq_false_iff]
    exact inside.1
  rw [scanFrames]
  split
  · exact ⟨rfl, _, by simp only [Scan.verdict, some_bytes]; rfl⟩
  · split
    · exact ⟨rfl, _, rfl⟩
    · rename_i header _
      rw [if_pos (inside.2.resolve_left header)]
      exact ⟨rfl, _, by simp only [Scan.verdict, some_bytes]; rfl⟩

/-- The parser gives back what was encoded, depends on the bytes and not on
how they arrive, skips what it does not know, and fails where the stream ends
inside a frame. -/
theorem parseProtoStream_correct (encode : V -> List UInt8) (decode : List UInt8 -> Decoded V)
    (inverts : ∀ event, decode (encode event) = .event event) :
    (∀ (events : List V) (source : List HttpEvent),
      (∀ event ∈ events, (encodeProtobuf encode event).length ≤ maxBufferSize) ->
      source.flatMap HttpEvent.bytes = events.flatMap (encodeProtobuf encode) ->
      parseProtoStream decode source = (events, .completed)) ∧
    (∀ source other : List HttpEvent,
      source.flatMap HttpEvent.bytes = other.flatMap HttpEvent.bytes ->
      parseProtoStream decode source = parseProtoStream decode other) ∧
    (∀ (messages : List (List UInt8)) (rest : List UInt8) (source : List HttpEvent),
      Readable decode messages ->
      source.flatMap HttpEvent.bytes = messages.flatMap frame ++ rest ->
      (rest = [] -> parseProtoStream decode source =
        (messages.filterMap (fun message => decodedEvent (decode message)), .completed)) ∧
      (EndsInside rest ->
        (parseProtoStream decode source).1 = messages.filterMap (fun message => decodedEvent (decode message)) ∧
        ∃ cause, (parseProtoStream decode source).2 = .failed cause)) := by
  have whole : ∀ (messages : List (List UInt8)) (source : List HttpEvent), Readable decode messages ->
      source.flatMap HttpEvent.bytes = messages.flatMap frame ->
      parseProtoStream decode source =
        (messages.filterMap (fun message => decodedEvent (decode message)), .completed) := by
    intro messages source readable bytes
    have nothing : scanFrames decode ([] : List UInt8) = ⟨[], .waiting, []⟩ := by rw [scanFrames]; rfl
    have scanned := scanFrames_frames decode readable []
    rw [List.append_nil, nothing, List.append_nil] at scanned
    rw [parseProtoStream_eq, bytes, scanned]
    rfl
  refine ⟨?_, ?_, ?_⟩
  · intro events source fits bytes
    have frames : events.flatMap (encodeProtobuf encode) = (events.map encode).flatMap frame := by
      rw [List.flatMap_map]
      rfl
    have readable : Readable decode (events.map encode) := by
      intro message member
      rcases List.mem_map.mp member with ⟨event, listed, rfl⟩
      have length := fits event listed
      rw [encodeProtobuf, List.length_append, length_bigEndian] at length
      exact ⟨length, fun cause impossible => by rw [inverts] at impossible; cases impossible⟩
    have decoded : (events.map encode).filterMap (fun message => decodedEvent (decode message)) = events := by
      rw [List.filterMap_map]
      simp only [Function.comp_def, inverts, decodedEvent, List.filterMap_some]
    rw [whole _ source readable (bytes.trans frames), decoded]
  · intro source other bytes
    rw [parseProtoStream_eq, parseProtoStream_eq, bytes]
  · intro messages rest source readable bytes
    constructor
    · rintro rfl
      exact whole messages source readable (bytes.trans (List.append_nil _))
    · intro inside
      have ends := verdict_of_endsInside decode inside
      rw [parseProtoStream_eq, bytes, scanFrames_frames decode readable rest, ends.1, List.append_nil]
      exact ⟨rfl, ends.2⟩

/-- A codec with one known message type, marked by its first byte as the
third field of an envelope is. -/
def encodeField (payload : List UInt8) : List UInt8 :=
  26 :: payload

def decodeField : List UInt8 -> Decoded (List UInt8)
  | [] => .failure "empty message"
  | tag :: payload => if tag = 26 then .event payload else .unknownType

/-- Two frames, cut inside the length, with an empty chunk between; and the
same bytes without the last. -/
theorem parseProtoStream_correct_cut :
    parseProtoStream decodeField
        [.headers, .data (some [0, 0]), .data (some []), .data (some [0, 2, 26]), .data (some [7, 0, 0, 0, 1, 26])] =
      ([[7], []], .completed) ∧
    (∃ cause,
      (parseProtoStream decodeField [.data (some [0, 0, 0, 2, 26, 7, 0, 0, 0, 1])]).2 = .failed cause) := by
  have correct := parseProtoStream_correct encodeField decodeField fun _ => rfl
  refine ⟨correct.1 [[7], []] _ (by decide) (by decide), ?_⟩
  refine ((correct.2.2 [[26, 7]] [0, 0, 0, 1] _ ?_ (by decide)).2 ⟨by decide, .inr (by decide)⟩).2
  intro message member
  rw [List.mem_singleton.mp member]
  exact ⟨by decide, nofun⟩

end Transport
end AgUi
