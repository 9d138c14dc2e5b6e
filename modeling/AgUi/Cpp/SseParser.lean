import Mathlib.Algebra.GroupWithZero.Nat
import AgUi.Library.Lines

namespace AgUi
namespace Cpp

open Library

/-!
# Server-sent events in C++

`feed` takes whatever bytes have arrived, reads the lines that have ended and
keeps the rest.  The data of an event gathers apart from the bytes; a blank
line ends the event.  `flush` takes the line that never ended for a line and
ends the event.

Which bytes come in which call makes no difference, and neither does it when
the client takes the events.
-/

abbrev Bytes := List UInt8

def lineFeed : UInt8 := 10

def carriageReturn : UInt8 := 13

def space : UInt8 := 32

def colon : UInt8 := 58

/-- `"data"` -/
def dataField : Bytes :=
  [100, 97, 116, 97]

/-- Ten megabytes, counted over the buffer and the event that gathers. -/
def kMaxBufferSize : Nat :=
  10 * 1024 * 1024

inductive SseBufferExceededError where
  | exceeded
deriving DecidableEq

def SseBufferExceededError.message : SseBufferExceededError -> String
  | exceeded => "SSE buffer size exceeded maximum limit of 10 MB"

/-- The bytes of an unfinished line, the event that gathers, and the events nobody has taken. -/
structure SseParser where
  buffer : Bytes := []
  eventStrings : List Bytes := []
  currentData : Bytes := []
  processedPos : Nat := 0

/-! ## Lines -/

/-- A line may end in a carriage return before its line feed. -/
def stripReturn (line : Bytes) : Bytes :=
  if line.getLast? = some carriageReturn then line.dropLast else line

/-- A single leading space is stripped. -/
def stripSpace : Bytes -> Bytes
  | [] => []
  | byte :: rest => if byte = space then rest else byte :: rest

namespace SseParser

/-- An empty line ends the event; without data there is none. -/
def finishEvent (parser : SseParser) : SseParser :=
  if parser.currentData.isEmpty then parser
  else { parser with eventStrings := parser.eventStrings ++ [parser.currentData], currentData := [] }

/-- Values after the first are put on a line of their own. -/
def appendValue (parser : SseParser) (value : Bytes) : SseParser :=
  { parser with
    currentData := (if parser.currentData.isEmpty then [] else parser.currentData ++ [lineFeed]) ++ value }

/-- Comments are skipped, and of the fields only `data` is read. -/
def parseLine (parser : SseParser) (line : Bytes) : SseParser :=
  if line.head? = some colon then parser
  else
    match line.dropWhile (· ≠ colon) with
    | [] => if line = dataField then parser.appendValue [] else parser
    | _ :: value =>
      if line.takeWhile (· ≠ colon) = dataField then parser.appendValue (stripSpace value) else parser

/-- One turn of the loop; an empty line ends the event. -/
def takeLine (parser : SseParser) (line : Bytes) : SseParser :=
  if (stripReturn line).isEmpty then parser.finishEvent else parser.parseLine (stripReturn line)

/-- Every complete line is taken, and the rest stays in the buffer. -/
def processBuffer (parser : SseParser) : SseParser :=
  let lines := cutLines lineFeed (parser.buffer.drop parser.processedPos)
  { lines.pieces.foldl takeLine parser with buffer := lines.tail, processedPos := 0 }

/-- A chunk that would exceed the limit is refused, and nothing of it is kept. -/
def feed (parser : SseParser) (chunk : Bytes) : Except SseBufferExceededError SseParser :=
  if kMaxBufferSize < parser.buffer.length + parser.currentData.length + chunk.length then .error .exceeded
  else .ok (processBuffer { parser with buffer := parser.buffer ++ chunk })

/-- The line that has not ended, if there is one. -/
def flushLine (parser : SseParser) : SseParser :=
  if parser.buffer.isEmpty then parser
  else
    let line := stripReturn parser.buffer
    let parser := { parser with buffer := [], processedPos := 0 }
    if line.isEmpty then parser else parser.parseLine line

/-- At the end of the stream the last line counts although no line feed ends it. -/
def flush (parser : SseParser) : SseParser :=
  parser.processBuffer.flushLine.finishEvent

def hasEvent (parser : SseParser) : Bool :=
  !parser.eventStrings.isEmpty

/-- The oldest event, or no bytes where there is none. -/
def nextEvent (parser : SseParser) : Bytes × SseParser :=
  match parser.eventStrings with
  | [] => ([], parser)
  | event :: rest => (event, { parser with eventStrings := rest })

end SseParser

/-! ## A client -/

/-- What a client does with its parser; it asks for an event only where there is one. -/
inductive Call where
  | feed (chunk : Bytes)
  | nextEvent

/-- The parser and the events it has returned. -/
abbrev Client := SseParser × List Bytes

def Client.next (client : Client) : Client :=
  if client.1.hasEvent then (client.1.nextEvent.2, client.2 ++ [client.1.nextEvent.1]) else client

def Client.perform (client : Client) : Call -> Except SseBufferExceededError Client
  | .feed chunk => (client.1.feed chunk).map fun parser => (parser, client.2)
  | .nextEvent => .ok client.next

/-- As long as there is an event. -/
def Client.drain : Nat -> Client -> Client
  | 0, client => client
  | turns + 1, client => if client.1.hasEvent then drain turns client.next else client

/-- The events returned until the stream has ended, been flushed and all been taken. -/
def session (calls : List Call) : Except SseBufferExceededError (List Bytes) :=
  (calls.foldlM Client.perform ({}, [])).map fun client =>
    (Client.drain client.1.flush.eventStrings.length (client.1.flush, client.2)).2

/-- All that the calls feed. -/
def fed (calls : List Call) : Bytes :=
  calls.flatMap fun
    | .feed chunk => chunk
    | .nextEvent => []

/-! ## What a byte string says -/

/-- The value of a data line. -/
def dataValue (line : Bytes) : Option Bytes :=
  if line.takeWhile (· ≠ colon) = dataField then some (stripSpace (line.dropWhile (· ≠ colon)).tail) else none

/-- The lines, the last of which need not have ended. -/
def linesOf (bytes : Bytes) : List Bytes :=
  ((cutLines lineFeed bytes).pieces ++ [(cutLines lineFeed bytes).tail]).map stripReturn

/-- The lines between blank lines. -/
def blocksOf (bytes : Bytes) : List (List Bytes) :=
  (linesOf bytes).splitOnP List.isEmpty

/-- The values joined by line feeds, without the empty ones in front. -/
def blockEvent (block : List Bytes) : Option Bytes :=
  match (block.filterMap dataValue).dropWhile List.isEmpty with
  | [] => none
  | values => some ([lineFeed].intercalate values)

def eventsOf (bytes : Bytes) : List Bytes :=
  (blocksOf bytes).filterMap blockEvent

/-! ## One line -/

/-- A further `data` field begins a new line of the event. -/
def joinValue (current value : Bytes) : Bytes :=
  (if current.isEmpty then [] else current ++ [lineFeed]) ++ value

/-- What has gathered, as an event. -/
def eventOf (current : Bytes) : Option Bytes :=
  if current.isEmpty then none else some current

/-- What gathers with a line, and the events that end there. -/
def readLine (current line : Bytes) : Bytes × List Bytes :=
  if (stripReturn line).isEmpty then ([], (eventOf current).toList)
  else ((dataValue (stripReturn line)).elim current (joinValue current), [])

def readLines (current : Bytes) : List Bytes -> Bytes × List Bytes
  | [] => (current, [])
  | line :: rest =>
    ((readLines (readLine current line).1 rest).1,
      (readLine current line).2 ++ (readLines (readLine current line).1 rest).2)

theorem readLines_append (current : Bytes) (first second : List Bytes) :
    readLines current (first ++ second) =
      ((readLines (readLines current first).1 second).1,
        (readLines current first).2 ++ (readLines (readLines current first).1 second).2) := by
  induction first generalizing current with
  | nil => rfl
  | cons line rest ih => simp only [List.cons_append, readLines, ih, List.append_assoc]

variable (parser : SseParser)

theorem SseParser.parseLine_eq (line : Bytes) :
    parser.parseLine line = (dataValue line).elim parser parser.appendValue := by
  unfold parseLine dataValue
  cases line with
  | nil => rfl
  | cons byte rest =>
    by_cases comment : byte = colon
    · have field : List.takeWhile (fun other => decide (other ≠ colon)) (byte :: rest) = [] := by
        rw [List.takeWhile_cons_of_neg (by simp [comment])]
      rw [if_pos (by rw [List.head?_cons, comment]), field, if_neg (by decide)]
      rfl
    · rw [if_neg (by simp [comment])]
      cases colons : List.dropWhile (fun other => decide (other ≠ colon)) (byte :: rest) with
      | nil =>
        have whole := List.takeWhile_append_dropWhile (p := fun other => decide (other ≠ colon)) (l := byte :: rest)
        rw [colons, List.append_nil] at whole
        rw [whole]
        dsimp only
        split <;> rfl
      | cons found value =>
        dsimp only
        split <;> rfl

theorem SseParser.takeLine_eq (line : Bytes) :
    parser.takeLine line =
      { parser with
        currentData := (readLine parser.currentData line).1
        eventStrings := parser.eventStrings ++ (readLine parser.currentData line).2 } := by
  unfold takeLine readLine
  by_cases blank : (stripReturn line).isEmpty = true
  · rw [if_pos blank, if_pos blank]
    unfold finishEvent eventOf
    cases gathered : parser.currentData with
    | nil =>
      rw [if_pos List.isEmpty_nil, if_pos List.isEmpty_nil, Option.toList_none, List.append_nil, ← gathered]
    | cons byte rest => rfl
  · rw [if_neg blank, if_neg blank, parseLine_eq, List.append_nil]
    cases dataValue (stripReturn line) with
    | none => rfl
    | some value => rfl

theorem SseParser.foldl_takeLine (lines : List Bytes) :
    lines.foldl takeLine parser =
      { parser with
        currentData := (readLines parser.currentData lines).1
        eventStrings := parser.eventStrings ++ (readLines parser.currentData lines).2 } := by
  induction lines generalizing parser with
  | nil => simp only [List.foldl_nil, readLines, List.append_nil]
  | cons line rest ih =>
    rw [List.foldl_cons, ih, takeLine_eq]
    simp only [readLines, List.append_assoc]

/-! ## What gathers is bounded by what was read -/

theorem length_stripReturn (line : Bytes) : (stripReturn line).length ≤ line.length := by
  unfold stripReturn
  split
  · rw [List.length_dropLast]
    omega
  · exact Nat.le_refl _

theorem length_stripSpace (value : Bytes) : (stripSpace value).length ≤ value.length := by
  cases value with
  | nil => exact Nat.le_refl _
  | cons byte rest =>
    rw [stripSpace]
    split
    · exact Nat.le_succ _
    · exact Nat.le_refl _

theorem length_dataValue {line value : Bytes} (data : dataValue line = some value) : value.length < line.length := by
  unfold dataValue at data
  split at data
  · rename_i field
    have short := length_stripSpace (line.dropWhile (· ≠ colon)).tail
    have whole : line.length = dataField.length + (line.dropWhile (· ≠ colon)).length := by
      rw [← field, ← List.length_append, List.takeWhile_append_dropWhile]
    rw [show dataField.length = 4 from rfl] at whole
    rw [← Option.some.inj data]
    rw [List.length_tail] at short
    omega
  · cases data

theorem length_readLine (current line : Bytes) :
    (readLine current line).1.length ≤ current.length + line.length := by
  unfold readLine
  split
  · exact Nat.zero_le _
  · cases data : dataValue (stripReturn line) with
    | none => exact Nat.le_add_right _ _
    | some value =>
      have short := length_dataValue data
      have stripped := length_stripReturn line
      rw [Option.elim_some, joinValue, List.length_append]
      split
      · rw [List.length_nil]
        omega
      · rw [List.length_append, List.length_singleton]
        omega

theorem length_readLines (current : Bytes) (lines : List (List UInt8)) :
    (readLines current lines).1.length ≤ current.length + (lines.map fun line => line.length + 1).sum := by
  induction lines generalizing current with
  | nil => exact Nat.le_refl _
  | cons line rest ih =>
    have first := length_readLine current line
    have later := ih (readLine current line).1
    rw [readLines, List.map_cons, List.sum_cons]
    dsimp only
    omega

theorem mem_readLine {current line event : Bytes} (member : event ∈ (readLine current line).2) :
    event ≠ [] ∧ event = current := by
  unfold readLine eventOf at member
  split at member
  · split at member
    · cases member
    · rename_i gathered
      cases List.mem_singleton.mp member
      exact ⟨fun nothing => gathered (List.isEmpty_iff.mpr nothing), rfl⟩
  · cases member

theorem mem_readLines {current event : Bytes} {lines : List (List UInt8)}
    (member : event ∈ (readLines current lines).2) :
    event ≠ [] ∧ event.length ≤ current.length + (lines.map fun line => line.length + 1).sum := by
  induction lines generalizing current with
  | nil => cases member
  | cons line rest ih =>
    have first := length_readLine current line
    rw [List.map_cons, List.sum_cons]
    rcases List.mem_append.mp member with now | later
    · rcases mem_readLine now with ⟨some, rfl⟩
      exact ⟨some, Nat.le_add_right _ _⟩
    · have bounded := ih later
      exact ⟨bounded.1, by omega⟩

/-! ## The parser and the bytes so far -/

/-- The parser has read the lines that have ended and keeps the rest; its events are in the queue, or were taken. -/
structure Reading (seen : Bytes) (client : Client) : Prop where
  processed : client.1.processedPos = 0
  buffer : client.1.buffer = (cutLines lineFeed seen).tail
  gathered : client.1.currentData = (readLines [] (cutLines lineFeed seen).pieces).1
  events : client.2 ++ client.1.eventStrings = (readLines [] (cutLines lineFeed seen).pieces).2

theorem reading_nil : Reading [] ({}, []) :=
  ⟨rfl, rfl, rfl, rfl⟩

theorem Client.perform_feed (client : Client) (chunk : Bytes) :
    client.perform (.feed chunk) =
      if kMaxBufferSize < client.1.buffer.length + client.1.currentData.length + chunk.length then .error .exceeded
      else .ok (SseParser.processBuffer { client.1 with buffer := client.1.buffer ++ chunk }, client.2) := by
  unfold Client.perform SseParser.feed
  dsimp only
  split <;> rfl

namespace Reading

variable {seen : Bytes} {client : Client}

theorem bounded (reading : Reading seen client) :
    client.1.buffer.length + client.1.currentData.length ≤ seen.length := by
  have gathered := length_readLines [] (cutLines lineFeed seen).pieces
  have all := length_cutLines lineFeed seen
  rw [reading.buffer, reading.gathered]
  rw [List.length_nil] at gathered
  omega

/-- A portion is read, whatever came before it. -/
theorem portion (reading : Reading seen client) (chunk : Bytes) :
    Reading (seen ++ chunk)
      (SseParser.processBuffer { client.1 with buffer := client.1.buffer ++ chunk }, client.2) := by
  rcases client with ⟨parser, returned⟩
  have cut := cutLines_append lineFeed seen chunk
  have lines : cutLines lineFeed ((parser.buffer ++ chunk).drop parser.processedPos) =
      cutLines lineFeed ((cutLines lineFeed seen).tail ++ chunk) := by
    rw [show parser.processedPos = 0 from reading.processed, List.drop_zero,
      show parser.buffer = _ from reading.buffer]
  have later := readLines_append [] (cutLines lineFeed seen).pieces
    (cutLines lineFeed ((cutLines lineFeed seen).tail ++ chunk)).pieces
  have processed : SseParser.processBuffer { parser with buffer := parser.buffer ++ chunk } =
      { parser with
        buffer := (cutLines lineFeed ((cutLines lineFeed seen).tail ++ chunk)).tail
        processedPos := 0
        currentData := (readLines parser.currentData
          (cutLines lineFeed ((cutLines lineFeed seen).tail ++ chunk)).pieces).1
        eventStrings := parser.eventStrings ++ (readLines parser.currentData
          (cutLines lineFeed ((cutLines lineFeed seen).tail ++ chunk)).pieces).2 } := by
    unfold SseParser.processBuffer
    dsimp only
    rw [lines, SseParser.foldl_takeLine]
  rw [processed]
  constructor
  · rfl
  · rw [cut]
  · dsimp only
    rw [cut, later, show parser.currentData = _ from reading.gathered]
  · dsimp only
    rw [cut, later, show parser.currentData = _ from reading.gathered, ← reading.events, List.append_assoc]

theorem feed (reading : Reading seen client) (chunk : Bytes)
    (room : seen.length + chunk.length ≤ kMaxBufferSize) :
    ∃ later, client.perform (.feed chunk) = .ok later ∧ Reading (seen ++ chunk) later := by
  have bounded := reading.bounded
  exact ⟨_, by rw [Client.perform_feed, if_neg (by omega)], reading.portion chunk⟩

theorem next (reading : Reading seen client) : Reading seen client.next := by
  rcases client with ⟨⟨buffer, queue, current, place⟩, returned⟩
  cases queue with
  | nil => exact reading
  | cons event rest =>
    have taken : Client.next (⟨buffer, event :: rest, current, place⟩, returned) =
        (⟨buffer, rest, current, place⟩, returned ++ [event]) := rfl
    rw [taken]
    refine ⟨reading.processed, reading.buffer, reading.gathered, ?_⟩
    rw [← reading.events]
    exact List.append_cons returned event rest ▸ rfl

/-- What a client may do keeps the parser with the bytes, as long as there is room for them all. -/
theorem calls (calls : List Call) {seen : Bytes} {client : Client} (reading : Reading seen client)
    (room : seen.length + (fed calls).length ≤ kMaxBufferSize) :
    ∃ later, calls.foldlM Client.perform client = .ok later ∧ Reading (seen ++ fed calls) later := by
  induction calls generalizing seen client with
  | nil =>
    refine ⟨client, rfl, ?_⟩
    rw [show fed [] = [] from rfl, List.append_nil]
    exact reading
  | cons call rest ih =>
    cases call with
    | feed chunk =>
      have more : fed (.feed chunk :: rest) = chunk ++ fed rest := rfl
      rw [more, List.length_append] at room
      rcases reading.feed chunk (by omega) with ⟨next, performed, goesOn⟩
      rcases ih goesOn (by rw [List.length_append]; omega) with ⟨later, run, reads⟩
      refine ⟨later, ?_, ?_⟩
      · rw [List.foldlM_cons, performed]
        exact run
      · rw [more, ← List.append_assoc]
        exact reads
    | nextEvent =>
      rcases ih reading.next room with ⟨later, run, reads⟩
      exact ⟨later, run, reads⟩

end Reading

/-! ## Blocks -/

/-- The event of a block, behind what has gathered before it. -/
def eventFrom (current : Bytes) (block : List Bytes) : Option Bytes :=
  eventOf ((block.filterMap dataValue).foldl joinValue current)

theorem eventFrom_cons (current line : Bytes) (block : List Bytes) :
    eventFrom current (line :: block) = eventFrom ((dataValue line).elim current (joinValue current)) block := by
  unfold eventFrom
  cases data : dataValue line with
  | none => rw [List.filterMap_cons_none data, Option.elim_none]
  | some value => rw [List.filterMap_cons_some data, List.foldl_cons, Option.elim_some]

/-- Lines read to the end come to the events of their blocks; the first one goes on with what has gathered. -/
theorem readLines_blocks (current : Bytes) (lines : List Bytes) :
    ∃ head others,
      (lines.map stripReturn).splitOnP List.isEmpty = head :: others ∧
        (readLines current (lines ++ [[]])).2 = (eventFrom current head).toList ++ others.filterMap (eventFrom []) := by
  induction lines generalizing current with
  | nil => exact ⟨[], [], rfl, rfl⟩
  | cons line rest ih =>
    rw [List.map_cons, List.cons_append, readLines, List.splitOnP_cons_eq_if_modifyHead]
    by_cases blank : (stripReturn line).isEmpty = true
    · rcases ih [] with ⟨head, others, split, events⟩
      have read : readLine current line = ([], (eventOf current).toList) := by
        unfold readLine
        rw [if_pos blank]
      refine ⟨[], head :: others, ?_, ?_⟩
      · rw [if_pos blank, split]
      · rw [read]
        dsimp only
        rw [events, List.filterMap_cons]
        cases eventFrom [] head <;> rfl
    · have read : readLine current line = ((dataValue (stripReturn line)).elim current (joinValue current), []) := by
        unfold readLine
        rw [if_neg blank]
      rcases ih ((dataValue (stripReturn line)).elim current (joinValue current)) with
        ⟨head, others, split, events⟩
      refine ⟨stripReturn line :: head, others, ?_, ?_⟩
      · rw [if_neg blank, split]
        rfl
      · rw [read, eventFrom_cons]
        exact events

theorem foldl_joinValue (values : List Bytes) {current : Bytes} (gathered : current ≠ []) :
    values.foldl joinValue current = current ++ values.flatMap fun value => lineFeed :: value := by
  induction values generalizing current with
  | nil => rw [List.foldl_nil, List.flatMap_nil, List.append_nil]
  | cons value rest ih =>
    have joined : joinValue current value = current ++ lineFeed :: value := by
      unfold joinValue
      rw [if_neg (by rw [List.isEmpty_iff]; exact gathered), List.append_assoc]
      rfl
    rw [List.foldl_cons, joined, ih (List.append_ne_nil_of_left_ne_nil gathered _),
      List.flatMap_cons, List.append_assoc]

theorem intercalate_cons (value : Bytes) (rest : List Bytes) :
    [lineFeed].intercalate (value :: rest) = value ++ rest.flatMap fun other => lineFeed :: other := by
  induction rest generalizing value with
  | nil => rw [List.intercalate_singleton, List.flatMap_nil, List.append_nil]
  | cons other later ih =>
    rw [List.intercalate_cons_cons, ih, List.flatMap_cons]
    simp only [List.append_assoc, List.cons_append, List.nil_append]

/-- Empty values in front leave nothing behind. -/
theorem eventFrom_nil (block : List Bytes) : eventFrom [] block = blockEvent block := by
  unfold eventFrom blockEvent
  induction block.filterMap dataValue with
  | nil => rfl
  | cons value rest ih =>
    cases value with
    | nil => exact ih
    | cons byte bytes =>
      have nonempty : byte :: bytes ≠ [] := List.cons_ne_nil byte bytes
      rw [List.foldl_cons, show joinValue [] (byte :: bytes) = byte :: bytes from rfl,
        foldl_joinValue rest nonempty, List.dropWhile_cons_of_neg (by simp), ← intercalate_cons]
      dsimp only
      rw [intercalate_cons]
      rfl

theorem readLines_eq_eventsOf (bytes : Bytes) :
    (readLines [] (((cutLines lineFeed bytes).pieces ++ [(cutLines lineFeed bytes).tail]) ++ [[]])).2 =
      eventsOf bytes := by
  rcases readLines_blocks [] ((cutLines lineFeed bytes).pieces ++ [(cutLines lineFeed bytes).tail]) with
    ⟨head, others, split, events⟩
  have same : eventFrom [] = blockEvent := by
    funext block
    exact eventFrom_nil block
  rw [events, eventsOf, blocksOf, linesOf, split, List.filterMap_cons, same]
  cases blockEvent head <;> rfl

/-! ## The end of the stream -/

theorem cutLines_tail (bytes : Bytes) :
    cutLines lineFeed (cutLines lineFeed bytes).tail = { pieces := [], tail := (cutLines lineFeed bytes).tail } := by
  have whole := cutLines_append lineFeed bytes []
  rw [List.append_nil, List.append_nil] at whole
  have pieces := congrArg Cut.pieces whole
  have tail := congrArg Cut.tail whole
  rcases again : cutLines lineFeed (cutLines lineFeed bytes).tail with ⟨others, rest⟩
  rw [again] at pieces tail
  exact congrArg₂ Cut.mk (List.self_eq_append_right.mp pieces) tail.symm

theorem SseParser.eventStrings_finishEvent :
    parser.finishEvent.eventStrings = parser.eventStrings ++ (eventOf parser.currentData).toList := by
  unfold finishEvent eventOf
  split
  · rw [Option.toList_none, List.append_nil]
  · rfl

theorem readLine_nil (current : Bytes) : readLine current [] = ([], (eventOf current).toList) :=
  rfl

/-- The line that has not ended is read like any other, and a blank line behind it. -/
theorem SseParser.eventStrings_flushLine :
    parser.flushLine.finishEvent.eventStrings =
      parser.eventStrings ++ (readLines parser.currentData [parser.buffer, []]).2 := by
  rw [eventStrings_finishEvent, readLines, readLines, readLines, readLine_nil]
  by_cases blank : (stripReturn parser.buffer).isEmpty = true
  · have read : readLine parser.currentData parser.buffer = ([], (eventOf parser.currentData).toList) := by
      unfold readLine
      rw [if_pos blank]
    have kept : parser.flushLine.eventStrings = parser.eventStrings ∧
        parser.flushLine.currentData = parser.currentData := by
      unfold flushLine
      split
      · exact ⟨rfl, rfl⟩
      · dsimp only
        rw [if_pos blank]
        exact ⟨rfl, rfl⟩
    rw [kept.1, kept.2, read]
    dsimp only
    rw [show eventOf [] = none from rfl, Option.toList_none, List.append_nil, List.append_nil]
  · have some : ¬ parser.buffer.isEmpty = true := by
      intro nothing
      rw [List.isEmpty_iff.mp nothing] at blank
      exact blank rfl
    have read : readLine parser.currentData parser.buffer =
        ((dataValue (stripReturn parser.buffer)).elim parser.currentData (joinValue parser.currentData), []) := by
      unfold readLine
      rw [if_neg blank]
    unfold flushLine
    rw [read, if_neg some]
    dsimp only
    rw [if_neg blank, parseLine_eq, List.nil_append, List.append_nil]
    cases dataValue (stripReturn parser.buffer) with
    | none => rfl
    | some value => rfl

/-- All events have been taken or are in the queue once the parser is flushed. -/
theorem Reading.flush {seen : Bytes} {client : Client} (reading : Reading seen client) :
    client.2 ++ client.1.flush.eventStrings = eventsOf seen := by
  rcases client with ⟨parser, returned⟩
  have kept : parser.processBuffer = parser := by
    unfold SseParser.processBuffer
    rw [show parser.processedPos = 0 from reading.processed, List.drop_zero,
      show parser.buffer = _ from reading.buffer, cutLines_tail]
    have buffer := reading.buffer
    have processed := reading.processed
    cases parser
    dsimp only at buffer processed ⊢
    rw [buffer, processed]
    rfl
  rw [← readLines_eq_eventsOf, List.append_assoc, readLines_append, ← reading.events]
  dsimp only
  rw [← reading.gathered, ← reading.buffer, SseParser.flush, kept, SseParser.eventStrings_flushLine, List.append_assoc]
  rfl

theorem Client.drain_eq (returned : List Bytes) :
    (Client.drain parser.eventStrings.length (parser, returned)).2 = returned ++ parser.eventStrings := by
  rcases parser with ⟨buffer, queue, current, place⟩
  dsimp only
  induction queue generalizing returned with
  | nil => exact (List.append_nil returned).symm
  | cons event rest ih =>
    have taken : Client.drain (event :: rest).length (⟨buffer, event :: rest, current, place⟩, returned) =
        Client.drain rest.length (⟨buffer, rest, current, place⟩, returned ++ [event]) := rfl
    rw [taken, ih, List.append_assoc]
    rfl

theorem session_eq {calls : List Call} (room : (fed calls).length ≤ kMaxBufferSize) :
    session calls = .ok (eventsOf (fed calls)) := by
  have none : (([] : Bytes).length + (fed calls).length) ≤ kMaxBufferSize := by
    rw [List.length_nil, Nat.zero_add]
    exact room
  rcases reading_nil.calls calls none with ⟨⟨parser, returned⟩, run, reading⟩
  unfold session
  rw [run]
  change Except.ok (Client.drain parser.flush.eventStrings.length (parser.flush, returned)).2 = _
  rw [Client.drain_eq, reading.flush]
  rfl

/-! ## Any number of bytes -/

/-- What is kept of the bytes fits into the limit, and so does every event of theirs. -/
structure Within (seen : Bytes) : Prop where
  kept : (cutLines lineFeed seen).tail.length + (readLines [] (cutLines lineFeed seen).pieces).1.length ≤ kMaxBufferSize
  events : ∀ event ∈ (readLines [] (cutLines lineFeed seen).pieces).2, event ≠ [] ∧ event.length ≤ kMaxBufferSize

theorem within_nil : Within [] :=
  ⟨Nat.zero_le _, List.forall_mem_nil _⟩

theorem Within.append {seen chunk : Bytes} (within : Within seen)
    (room : (cutLines lineFeed seen).tail.length + (readLines [] (cutLines lineFeed seen).pieces).1.length +
      chunk.length ≤ kMaxBufferSize) : Within (seen ++ chunk) := by
  have all := length_cutLines lineFeed ((cutLines lineFeed seen).tail ++ chunk)
  rw [List.length_append] at all
  constructor <;> rw [cutLines_append, readLines_append] <;> dsimp only
  · have gathered := length_readLines (readLines [] (cutLines lineFeed seen).pieces).1
      (cutLines lineFeed ((cutLines lineFeed seen).tail ++ chunk)).pieces
    omega
  · intro event member
    rcases List.mem_append.mp member with before | now
    · exact within.events event before
    · have bounded := mem_readLines now
      exact ⟨bounded.1, by omega⟩

theorem Reading.run (calls : List Call) {seen : Bytes} {client later : Client} (reading : Reading seen client)
    (within : Within seen) (run : calls.foldlM Client.perform client = .ok later) :
    Reading (seen ++ fed calls) later ∧ Within (seen ++ fed calls) := by
  induction calls generalizing seen client with
  | nil =>
    cases run
    rw [show fed [] = [] from rfl, List.append_nil]
    exact ⟨reading, within⟩
  | cons call rest ih =>
    cases call with
    | feed chunk =>
      rw [show fed (.feed chunk :: rest) = chunk ++ fed rest from rfl, ← List.append_assoc]
      rw [List.foldlM_cons, Client.perform_feed] at run
      split at run
      · cases run
      · rename_i room
        rw [reading.buffer, reading.gathered, Nat.not_lt] at room
        exact ih (reading.portion chunk) (within.append room) run
    | nextEvent => exact ih reading.next within run

/-- A client may go on for any number of bytes.  As long as nothing is refused
the parser keeps no more than the limit, and the events are those of the
bytes: none is empty, and each fits into the limit. -/
theorem session_unbounded {calls : List Call} {client : Client}
    (run : calls.foldlM Client.perform ({}, []) = .ok client) :
    client.1.buffer.length + client.1.currentData.length ≤ kMaxBufferSize ∧
      session calls = .ok (eventsOf (fed calls)) ∧
      ∀ event ∈ eventsOf (fed calls), event ≠ [] ∧ event.length ≤ kMaxBufferSize := by
  rcases List.nil_append (fed calls) ▸ reading_nil.run calls within_nil run with ⟨reading, within⟩
  refine ⟨?_, ?_, ?_⟩
  · rw [reading.buffer, reading.gathered]
    exact within.kept
  · unfold session
    rw [run]
    change Except.ok (Client.drain client.1.flush.eventStrings.length (client.1.flush, client.2)).2 = _
    rw [Client.drain_eq, reading.flush]
  · intro event member
    rw [← readLines_eq_eventsOf, List.append_assoc, readLines_append] at member
    rcases List.mem_append.mp member with before | last
    · exact within.events event before
    · have kept := within.kept
      have line := length_readLine (readLines [] (cutLines lineFeed (fed calls)).pieces).1
        (cutLines lineFeed (fed calls)).tail
      rcases List.mem_append.mp last with gathered | ended
      · rcases mem_readLine gathered with ⟨some, rfl⟩
        exact ⟨some, by omega⟩
      · rcases mem_readLine ((List.mem_append.mp ended).resolve_right List.not_mem_nil) with ⟨some, rfl⟩
        exact ⟨some, by omega⟩

theorem session_unbounded_hi :
    session [.feed [100, 97, 116, 97, 58, 32, 104], .nextEvent, .feed [105]] = .ok [[104, 105]] :=
  (session_unbounded rfl).2.1

/-! ## Payloads -/

/-- How a line ends. -/
inductive LineEnding where
  | lf
  | crlf
deriving DecidableEq

def LineEnding.bytes : LineEnding -> Bytes
  | lf => [lineFeed]
  | crlf => [carriageReturn, lineFeed]

/-- A data line with the payload, and a blank line. -/
def frame (framed : LineEnding × Bytes) : Bytes :=
  dataField ++ [colon, space] ++ framed.2 ++ framed.1.bytes ++ framed.1.bytes

/-- The payload is no more than a line, and not empty. -/
structure IsPayload (payload : Bytes) : Prop where
  nonempty : payload ≠ []
  noLineFeed : lineFeed ∉ payload
  noReturn : carriageReturn ∉ payload

/-- What stands before the line feed. -/
def LineEnding.returnBytes : LineEnding -> Bytes
  | lf => []
  | crlf => [carriageReturn]

/-- The data line of a frame, without its line feed. -/
def dataLine (framed : LineEnding × Bytes) : Bytes :=
  dataField ++ [colon, space] ++ framed.2 ++ framed.1.returnBytes

theorem lineFeed_not_mem_returnBytes (ending : LineEnding) : lineFeed ∉ ending.returnBytes := by
  cases ending <;> decide

variable {framed : LineEnding × Bytes}

theorem lineFeed_not_mem_dataLine (payload : IsPayload framed.2) : lineFeed ∉ dataLine framed := by
  intro member
  rcases List.mem_append.mp member with before | ending
  · rcases List.mem_append.mp before with field | inside
    · exact absurd field (by decide)
    · exact payload.noLineFeed inside
  · exact lineFeed_not_mem_returnBytes framed.1 ending

variable {frames : List (LineEnding × Bytes)}

theorem cutLines_frames (payloads : ∀ framed ∈ frames, IsPayload framed.2) :
    cutLines lineFeed (frames.flatMap frame) =
      { pieces := frames.flatMap fun framed => [dataLine framed, framed.1.returnBytes], tail := [] } := by
  induction frames with
  | nil => rfl
  | cons framed rest ih =>
    have spelled : frame framed ++ rest.flatMap frame =
        dataLine framed ++ lineFeed :: (framed.1.returnBytes ++ lineFeed :: rest.flatMap frame) := by
      unfold frame dataLine
      cases framed.1 <;> simp [LineEnding.bytes, LineEnding.returnBytes]
    rw [List.flatMap_cons, spelled,
      cutLines_line lineFeed (lineFeed_not_mem_dataLine (payloads framed List.mem_cons_self)),
      cutLines_line lineFeed (lineFeed_not_mem_returnBytes framed.1),
      ih (List.forall_mem_cons.mp payloads).2]
    rfl

theorem stripReturn_dataLine (payload : IsPayload framed.2) :
    stripReturn (dataLine framed) = dataField ++ [colon, space] ++ framed.2 := by
  unfold stripReturn dataLine
  cases framed.1 with
  | lf =>
    rw [LineEnding.returnBytes, List.append_nil, List.getLast?_append_of_ne_nil _ payload.nonempty, if_neg]
    intro last
    exact payload.noReturn (List.mem_of_getLast? last)
  | crlf => rw [LineEnding.returnBytes, List.getLast?_concat, if_pos rfl, List.dropLast_concat]

theorem readLine_dataLine (payload : IsPayload framed.2) :
    readLine [] (dataLine framed) = (framed.2, []) := by
  unfold readLine
  rw [stripReturn_dataLine payload]
  rfl

theorem readLine_returnBytes {current : Bytes} (gathered : current ≠ []) (ending : LineEnding) :
    readLine current ending.returnBytes = ([], [current]) := by
  have event : eventOf current = some current := if_neg fun nothing => gathered (List.isEmpty_iff.mp nothing)
  have read : readLine current ending.returnBytes = ([], (eventOf current).toList) := by
    cases ending <;> rfl
  rw [read, event]
  rfl

theorem readLines_frames (payloads : ∀ framed ∈ frames, IsPayload framed.2) :
    readLines [] (frames.flatMap fun framed => [dataLine framed, framed.1.returnBytes]) =
      ([], frames.map Prod.snd) := by
  induction frames with
  | nil => rfl
  | cons framed rest ih =>
    have payload := payloads framed List.mem_cons_self
    have later := ih (List.forall_mem_cons.mp payloads).2
    rw [List.flatMap_cons, List.cons_append, List.cons_append, List.nil_append, readLines, readLines,
      readLine_dataLine payload]
    dsimp only
    rw [readLine_returnBytes payload.nonempty, later]
    rfl

theorem eventsOf_frames (payloads : ∀ framed ∈ frames, IsPayload framed.2) :
    eventsOf (frames.flatMap frame) = frames.map Prod.snd := by
  rw [← readLines_eq_eventsOf, cutLines_frames payloads]
  dsimp only
  rw [List.append_assoc, readLines_append, readLines_frames payloads]
  exact List.append_nil _

/-! ## Chunks -/

/-- However the bytes are fed and whenever events are taken, they are the events of the bytes. -/
theorem session_of_chunks (calls : List Call) (room : (fed calls).length ≤ kMaxBufferSize) :
    session calls = session [.feed (fed calls)] ∧ session calls = .ok (eventsOf (fed calls)) ∧
      ∀ frames : List (LineEnding × Bytes), (∀ framed ∈ frames, IsPayload framed.2) ->
        fed calls = frames.flatMap frame -> session calls = .ok (frames.map Prod.snd) := by
  have whole : fed [.feed (fed calls)] = fed calls := List.append_nil (fed calls)
  refine ⟨?_, session_eq room, ?_⟩
  · rw [session_eq room, @session_eq [.feed (fed calls)] (by rw [whole]; exact room), whole]
  · intro frames payloads spelled
    rw [session_eq room, spelled, eventsOf_frames payloads]

/-- `data: hi` comes in four portions, cut inside the field's name and inside a line ending. -/
theorem session_of_chunks_hi :
    session [.feed [100, 97], .nextEvent, .feed [116, 97, 58, 32, 104, 105, 13], .feed [10, 13, 10], .nextEvent,
      .feed []] = .ok [[104, 105]] :=
  (session_of_chunks _ (by decide)).2.2 [(.crlf, [104, 105])]
    (by
      intro framed member
      rw [List.mem_singleton.mp member]
      exact ⟨by decide, by decide, by decide⟩)
    (by decide)

end Cpp
end AgUi
