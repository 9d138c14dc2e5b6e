import AgUi.Library.OrderedMap
import AgUi.Library.Wire

namespace AgUi
namespace Transport
namespace ProtoTranslation

open Library Wire

/-!
# Decoding a binary event

`decode` walks the bytes several times.  A guard refuses an envelope that is
not well formed, reading overlong numbers as the wire reader does; a merger
combines repeated messages; the generated parser fills in the arms it knows.
Where it found none, a strict walker asks whether the envelope names arms of a
later protocol and nothing else.

The wire reader and writer belong to a library, and how the generated code
fills in an arm is its own affair: all of these are parameters.  A reader that
throws is `none`.
-/

/-! ## Strict numbers -/

/-- The number that starts the bytes, in at most `room` groups; the last group there is room for holds no more than
`lastByteMax`. -/
def boundedVarint (lastByteMax : Nat) : Nat -> List UInt8 -> Option (Nat × List UInt8)
  | 0, _ => none
  | _ + 1, [] => none
  | room + 1, byte :: rest =>
    if room = 0 ∧ lastByteMax < byte.toNat then none
    else if byte.toNat < 128 then some (byte.toNat, rest)
    else (boundedVarint lastByteMax room rest).map fun later => (byte.toNat % 128 + 128 * later.1, later.2)

def varint32 : List UInt8 -> Option (Nat × List UInt8) :=
  boundedVarint 0x0f 5

def varint64 : List UInt8 -> Option (Nat × List UInt8) :=
  boundedVarint 0x01 10

/-! ## Masked numbers -/

/-- What a byte adds to a number of 32 bits, in its place. -/
def maskedPart (place : Nat) (byte : UInt8) : Nat :=
  if place < 4 then byte.toNat % 128 else if place = 4 then byte.toNat % 16 else 0

def readVarintFrom : Nat -> List UInt8 -> Option (Nat × List UInt8)
  | _, [] => none
  | place, byte :: rest =>
    if byte.toNat < 128 then some (maskedPart place byte, rest)
    else (readVarintFrom (place + 1) rest).map fun later => (maskedPart place byte + 128 * later.1, later.2)

def readVarint : List UInt8 -> Option (Nat × List UInt8) :=
  readVarintFrom 0

/-! ## Values -/

/-- As many bytes as a value of a fixed width has. -/
def skipBytes (width : Nat) (data : List UInt8) : Option (Option (List UInt8) × List UInt8) :=
  if data.length < width then none else some (none, data.drop width)

/-- A value that is no group, with what it holds where it is delimited by a length. -/
def readValue (readNumber readLength : List UInt8 -> Option (Nat × List UInt8)) (wireType : Nat) (data : List UInt8) :
    Option (Option (List UInt8) × List UInt8) :=
  if wireType = 0 then (readNumber data).map fun read => (none, read.2)
  else if wireType = 1 then skipBytes 8 data
  else if wireType = 2 then
    (readLength data).bind fun read =>
      if read.2.length < read.1 then none else some (some (read.2.take read.1), read.2.drop read.1)
  else if wireType = 5 then skipBytes 4 data
  else none

/-! ## Tables -/

/-- What a message has to be scanned for: singular fields, messages within it, arms of its oneof. -/
structure ScanSpec where
  singular : List Nat := []
  descend : List (Nat × String) := []
  google : List (Nat × String) := []
  arms : List Nat := []
  armWireTypes : List (Nat × Nat) := []

def SCAN_SPECS : List (String × ScanSpec) :=
  [("TextMessageStartEvent", { singular := [1], descend := [(1, "BaseEvent")] }),
   ("BaseEvent", { singular := [3, 4], google := [(3, "google.protobuf.Value"), (4, "google.protobuf.Struct")] }),
   ("TextMessageContentEvent", { singular := [1], descend := [(1, "BaseEvent")] }),
   ("TextMessageEndEvent", { singular := [1], descend := [(1, "BaseEvent")] }),
   ("ToolCallStartEvent", { singular := [1], descend := [(1, "BaseEvent")] }),
   ("ToolCallArgsEvent", { singular := [1], descend := [(1, "BaseEvent")] }),
   ("ToolCallEndEvent", { singular := [1], descend := [(1, "BaseEvent")] }),
   ("StateSnapshotEvent",
     { singular := [1, 2]
       descend := [(1, "BaseEvent")]
       google := [(2, "google.protobuf.Value")] }),
   ("StateDeltaEvent", { singular := [1], descend := [(1, "BaseEvent"), (2, "JsonPatchOperation")] }),
   ("JsonPatchOperation", { singular := [4], google := [(4, "google.protobuf.Value")] }),
   ("MessagesSnapshotEvent", { singular := [1], descend := [(1, "BaseEvent"), (2, "Message")] }),
   ("Message",
     { singular := [9, 13]
       descend := [(5, "ToolCall"), (8, "InputContent")]
       google := [(9, "google.protobuf.Struct"), (13, "google.protobuf.Struct")] }),
   ("ToolCall", { singular := [3, 4], google := [(4, "google.protobuf.Struct")] }),
   ("InputContent",
     { singular := [1, 2, 3, 4, 5]
       descend := [(1, "TextInputPart"), (2, "ImageInputPart"), (3, "AudioInputPart"), (4, "VideoInputPart"),
         (5, "DocumentInputPart")]
       arms := [1, 2, 3, 4, 5] }),
   ("TextInputPart", { singular := [3], google := [(3, "google.protobuf.Value")] }),
   ("ImageInputPart",
     { singular := [1, 2]
       descend := [(1, "InputContentSource")]
       google := [(2, "google.protobuf.Value")] }),
   ("InputContentSource", { singular := [1, 2, 3], arms := [1, 2, 3] }),
   ("AudioInputPart",
     { singular := [1, 2]
       descend := [(1, "InputContentSource")]
       google := [(2, "google.protobuf.Value")] }),
   ("VideoInputPart",
     { singular := [1, 2]
       descend := [(1, "InputContentSource")]
       google := [(2, "google.protobuf.Value")] }),
   ("DocumentInputPart",
     { singular := [1, 2]
       descend := [(1, "InputContentSource")]
       google := [(2, "google.protobuf.Value")] }),
   ("RawEvent", { singular := [1, 2], descend := [(1, "BaseEvent")], google := [(2, "google.protobuf.Value")] }),
   ("CustomEvent", { singular := [1, 3], descend := [(1, "BaseEvent")], google := [(3, "google.protobuf.Value")] }),
   ("RunStartedEvent", { singular := [1, 5], descend := [(1, "BaseEvent"), (5, "RunAgentInput")] }),
   ("RunAgentInput",
     { singular := [4, 8]
       descend := [(5, "Message"), (6, "Tool"), (9, "ResumeEntry")]
       google := [(4, "google.protobuf.Value"), (8, "google.protobuf.Value")] }),
   ("Tool", { singular := [3, 4], google := [(3, "google.protobuf.Value"), (4, "google.protobuf.Struct")] }),
   ("ResumeEntry", { singular := [3, 4], google := [(3, "google.protobuf.Value"), (4, "google.protobuf.Struct")] }),
   ("RunFinishedEvent",
     { singular := [1, 4]
       descend := [(1, "BaseEvent"), (6, "Interrupt")]
       google := [(4, "google.protobuf.Value")] }),
   ("Interrupt", { singular := [5, 7], google := [(5, "google.protobuf.Value"), (7, "google.protobuf.Value")] }),
   ("RunErrorEvent", { singular := [1], descend := [(1, "BaseEvent")] }),
   ("StepStartedEvent", { singular := [1], descend := [(1, "BaseEvent")] }),
   ("StepFinishedEvent", { singular := [1], descend := [(1, "BaseEvent")] }),
   ("TextMessageChunkEvent", { singular := [1], descend := [(1, "BaseEvent")] }),
   ("ToolCallChunkEvent", { singular := [1], descend := [(1, "BaseEvent")] }),
   ("SubagentStartedEvent", { singular := [1], descend := [(1, "BaseEvent")] }),
   ("SubagentFinishedEvent",
     { singular := [1, 3]
       descend := [(1, "BaseEvent")]
       google := [(3, "google.protobuf.Value")] }),
   ("SubagentErrorEvent", { singular := [1], descend := [(1, "BaseEvent")] }),
   ("ToolCallResultEvent", { singular := [1], descend := [(1, "BaseEvent"), (7, "InputContent")] }),
   ("ActivitySnapshotEvent",
     { singular := [1, 5]
       descend := [(1, "BaseEvent")]
       google := [(5, "google.protobuf.Struct")] }),
   ("ActivityDeltaEvent", { singular := [1], descend := [(1, "BaseEvent"), (5, "JsonPatchOperation")] }),
   ("ReasoningStartEvent", { singular := [1], descend := [(1, "BaseEvent")] }),
   ("ReasoningMessageStartEvent", { singular := [1], descend := [(1, "BaseEvent")] }),
   ("ReasoningMessageContentEvent", { singular := [1], descend := [(1, "BaseEvent")] }),
   ("ReasoningMessageEndEvent", { singular := [1], descend := [(1, "BaseEvent")] }),
   ("ReasoningMessageChunkEvent", { singular := [1], descend := [(1, "BaseEvent")] }),
   ("ReasoningEndEvent", { singular := [1], descend := [(1, "BaseEvent")] }),
   ("ReasoningEncryptedValueEvent", { singular := [1], descend := [(1, "BaseEvent")] }),
   ("google.protobuf.Struct", { descend := [(1, "google.protobuf.Struct.FieldsEntry")] }),
   ("google.protobuf.Struct.FieldsEntry", { singular := [2], descend := [(2, "google.protobuf.Value")] }),
   ("google.protobuf.Value",
     { singular := [5, 6]
       descend := [(5, "google.protobuf.Struct"), (6, "google.protobuf.ListValue")]
       arms := [1, 2, 3, 4, 5, 6]
       armWireTypes := [(1, 0), (2, 1), (3, 2), (4, 0), (5, 2), (6, 2)] }),
   ("google.protobuf.ListValue", { descend := [(1, "google.protobuf.Value")] })]

def ENVELOPE_SCAN : List (Nat × String) :=
  [(1, "TextMessageStartEvent"), (2, "TextMessageContentEvent"), (3, "TextMessageEndEvent"),
   (4, "ToolCallStartEvent"), (5, "ToolCallArgsEvent"), (6, "ToolCallEndEvent"), (7, "StateSnapshotEvent"),
   (8, "StateDeltaEvent"), (9, "MessagesSnapshotEvent"), (10, "RawEvent"), (11, "CustomEvent"),
   (12, "RunStartedEvent"), (13, "RunFinishedEvent"), (14, "RunErrorEvent"), (15, "StepStartedEvent"),
   (16, "StepFinishedEvent"), (17, "TextMessageChunkEvent"), (18, "ToolCallChunkEvent"),
   (19, "SubagentStartedEvent"), (20, "SubagentFinishedEvent"), (21, "SubagentErrorEvent"),
   (22, "ToolCallResultEvent"), (23, "ActivitySnapshotEvent"), (24, "ActivityDeltaEvent"),
   (25, "ReasoningStartEvent"), (26, "ReasoningMessageStartEvent"), (27, "ReasoningMessageContentEvent"),
   (28, "ReasoningMessageEndEvent"), (29, "ReasoningMessageChunkEvent"), (30, "ReasoningEndEvent"),
   (31, "ReasoningEncryptedValueEvent")]

/-- `ENVELOPE_TYPE`, by the number of the entry. -/
def ENVELOPE_TYPE : List (Nat × String) :=
  [(1, "TEXT_MESSAGE_START"), (2, "TEXT_MESSAGE_CONTENT"), (3, "TEXT_MESSAGE_END"), (4, "TOOL_CALL_START"),
   (5, "TOOL_CALL_ARGS"), (6, "TOOL_CALL_END"), (7, "STATE_SNAPSHOT"), (8, "STATE_DELTA"),
   (9, "MESSAGES_SNAPSHOT"), (10, "RAW"), (11, "CUSTOM"), (12, "RUN_STARTED"), (13, "RUN_FINISHED"),
   (14, "RUN_ERROR"), (15, "STEP_STARTED"), (16, "STEP_FINISHED"), (17, "TEXT_MESSAGE_CHUNK"),
   (18, "TOOL_CALL_CHUNK"), (19, "SUBAGENT_STARTED"), (20, "SUBAGENT_FINISHED"), (21, "SUBAGENT_ERROR"),
   (22, "TOOL_CALL_RESULT"), (23, "ACTIVITY_SNAPSHOT"), (24, "ACTIVITY_DELTA"), (25, "REASONING_START"),
   (26, "REASONING_MESSAGE_START"), (27, "REASONING_MESSAGE_CONTENT"), (28, "REASONING_MESSAGE_END"),
   (29, "REASONING_MESSAGE_CHUNK"), (30, "REASONING_END"), (31, "REASONING_ENCRYPTED_VALUE")]

/-- The names of the generated `EventType`, by number. -/
def eventTypeNames : List String :=
  ["TEXT_MESSAGE_START", "TEXT_MESSAGE_CONTENT", "TEXT_MESSAGE_END", "TOOL_CALL_START", "TOOL_CALL_ARGS",
   "TOOL_CALL_END", "STATE_SNAPSHOT", "STATE_DELTA", "MESSAGES_SNAPSHOT", "RAW", "CUSTOM", "RUN_STARTED",
   "RUN_FINISHED", "RUN_ERROR", "STEP_STARTED", "STEP_FINISHED", "SUBAGENT_STARTED", "SUBAGENT_FINISHED",
   "SUBAGENT_ERROR", "TEXT_MESSAGE_CHUNK", "TOOL_CALL_CHUNK", "TOOL_CALL_RESULT", "ACTIVITY_SNAPSHOT",
   "ACTIVITY_DELTA", "REASONING_START", "REASONING_MESSAGE_START", "REASONING_MESSAGE_CONTENT",
   "REASONING_MESSAGE_END", "REASONING_MESSAGE_CHUNK", "REASONING_END", "REASONING_ENCRYPTED_VALUE"]

def ENVELOPE_TAGS : List Nat :=
  List.range' 1 31

/-! ## The guard -/

structure Scan (S : Type) where
  groupDepth : Nat := 0
  state : S

/-- One field of a scan, which only visits the fields outside of any group. -/
def scanStep {S : Type} (visit : S -> Nat -> Option (List UInt8) -> Option S) (scan : Scan S) (data : List UInt8) :
    Option (Scan S × List UInt8) :=
  (readVarint data).bind fun read =>
    let field := read.1 / 8
    let wireType := read.1 % 8
    if field = 0 then none
    else if wireType = 3 then some ({ scan with groupDepth := scan.groupDepth + 1 }, read.2)
    else if wireType = 4 then
      if scan.groupDepth = 0 then none else some ({ scan with groupDepth := scan.groupDepth - 1 }, read.2)
    else
      (readValue readVarint readVarint wireType read.2).bind fun value =>
        if scan.groupDepth = 0 then
          (visit scan.state field value.1).map fun state => ({ scan with state := state }, value.2)
        else some (scan, value.2)

def scansCleanly {S : Type} (visit : S -> Nat -> Option (List UInt8) -> Option S) (start : S) (data : List UInt8) :
    Bool :=
  (readAll (scanStep visit) { state := start } data).any fun scan => scan.groupDepth == 0

/-- The payload under a name that has a specification is scanned in its turn. -/
def childScans (scan : ScanSpec -> List UInt8 -> Bool) (child : Option String) (payload : List UInt8) : Bool :=
  match child.bind fun name => SCAN_SPECS.lookup name with
  | some spec => scan spec payload
  | none => true

/-- At most one arm, which may come again. -/
def visitMessage (scan : ScanSpec -> List UInt8 -> Bool) (spec : ScanSpec) (seenArm : Option Nat) (field : Nat) :
    Option (List UInt8) -> Option (Option Nat)
  | none => some seenArm
  | some payload =>
    let isArm := spec.arms.contains field
    if isArm && seenArm.any (· ≠ field) then none
    else if childScans scan (spec.descend.lookup field) payload then some (if isArm then some field else seenArm)
    else none

/-- One level of a message and those below it; a payload is shorter than what it stands in. -/
def scanMessage : Nat -> ScanSpec -> List UInt8 -> Bool
  | 0, _, _ => false
  | depth + 1, spec, data => scansCleanly (visitMessage (scanMessage depth) spec) none data

/-- There is at most one known entry, which may come again. -/
def visitEnvelope (depth : Nat) (seen : Option Nat) (field : Nat) (payload : Option (List UInt8)) :
    Option (Option Nat) :=
  let known := ENVELOPE_TAGS.contains field
  if known && seen.any (· ≠ field) then none
  else if payload.all (childScans (scanMessage depth) (ENVELOPE_SCAN.lookup field)) then
    some (if known then some field else seen)
  else none

def assertWellFormedEnvelope (data : List UInt8) : Bool :=
  scansCleanly (visitEnvelope data.length) none data

/-! ## The strict walkers -/

structure Walk where
  /-- The numbers of the open groups, the innermost first. -/
  groups : List Nat := []
  /-- How many delimited fields stand outside of any group. -/
  future : Nat := 0

/-- One field of a walk; `accepts` is asked of the fields outside of any group. -/
def walkStep (accepts : Nat -> Option (List UInt8) -> Bool) (walk : Walk) (data : List UInt8) :
    Option (Walk × List UInt8) :=
  (varint32 data).bind fun read =>
    let field := read.1 / 8
    let wireType := read.1 % 8
    let atTopLevel := walk.groups.isEmpty
    if field = 0 then none
    else if wireType = 3 then
      if atTopLevel && !accepts field none then none else some ({ walk with groups := field :: walk.groups }, read.2)
    else if wireType = 4 then
      match walk.groups with
      | [] => none
      | opened :: outer => if opened = field then some ({ walk with groups := outer }, read.2) else none
    else
      (readValue varint64 varint32 wireType read.2).bind fun value =>
        if atTopLevel && !accepts field value.1 then none
        else some ({ walk with future := walk.future + if atTopLevel && value.1.isSome then 1 else 0 }, value.2)

/-- The number of delimited fields the walk passes, where it ends with every group closed. -/
def walkFields (accepts : Nat -> Option (List UInt8) -> Bool) (data : List UInt8) : Option Nat :=
  (readAll (walkStep accepts) {} data).bind fun walk => if walk.groups.isEmpty then some walk.future else none

def walksAsMessage (data : List UInt8) : Bool :=
  (walkFields (fun _ _ => true) data).isSome

def namesOnlyFutureArms (data : List UInt8) : Bool :=
  (walkFields (fun field payload => !ENVELOPE_TAGS.contains field && payload.all walksAsMessage) data).any (0 < ·)

/-! ## The wire reader -/

/-- The reader of the protobuf library, at the front of the bytes it has not read. -/
structure BinaryReader where
  uint32 : List UInt8 -> Option (Nat × List UInt8)
  tag : List UInt8 -> Option ((Nat × Nat) × List UInt8)
  bytes : List UInt8 -> Option (List UInt8 × List UInt8)
  /-- Skips a value; a group has to close with the number that is given, if one is. -/
  skip : Nat -> Option Nat -> List UInt8 -> Option (List UInt8)

/-- What the generated code makes of the arms, and `decode` of the one it found. -/
structure Messages (A V : Type) where
  decodeArm : Nat -> Nat -> List UInt8 -> Option (A × List UInt8)
  /-- The type in the base event; none where there is no base event. -/
  baseType : A -> Option Int
  translate : String -> A -> Except String V

/-! ## The merger -/

structure MergedField where
  number : Nat
  raw : List UInt8
  /-- What the occurrences hold; nothing where the field is no message. -/
  payloads : List (List UInt8)
  child : Option ScanSpec

structure Merging where
  fields : List (Option MergedField) := []
  positions : OrderedMap Nat Nat := .empty
  activeArm : Option Nat := none
  changed : Bool := false

/-- The field that stands under a number is taken out. -/
def dropField (merging : Merging) (number : Nat) : Merging :=
  { merging with
    fields := match merging.positions.get? number with
      | some previous => merging.fields.set previous none
      | none => merging.fields
    positions := merging.positions.erase number }

/-- An arm takes the place of another one, and of itself where it does not merge. -/
def takeArm (spec : ScanSpec) (number : Nat) (merging : Merging) : Merging :=
  let merging :=
    match merging.activeArm with
    | some active => if active ≠ number then { dropField merging active with changed := true } else merging
    | none => merging
  let merging := { merging with activeArm := some number }
  if !spec.singular.contains number && merging.positions.has number then
    { dropField merging number with changed := true }
  else merging

/-- The message that stands under a number, with its place. -/
def previousMessage (merging : Merging) (number : Nat) : Option (Nat × MergedField) :=
  (merging.positions.get? number).bind fun previous =>
    merging.fields[previous]?.join.bind fun field => if field.payloads.isEmpty then none else some (previous, field)

def placeField (spec : ScanSpec) (merging : Merging) (number : Nat) (isArm : Bool) (payloads : List (List UInt8))
    (raw : List UInt8) : Merging :=
  let childName := (spec.descend.lookup number).or (spec.google.lookup number)
  { merging with
    positions := if !payloads.isEmpty || isArm then merging.positions.set number merging.fields.length
      else merging.positions
    fields := merging.fields ++
      [some
        { number := number, raw := raw, payloads := payloads
          child := childName.bind fun name => SCAN_SPECS.lookup name }] }

/-- A further occurrence of a singular message is merged into the earlier one. -/
def mergeField (spec : ScanSpec) (merging : Merging) (number wireType : Nat) (payload : Option (List UInt8))
    (raw : List UInt8) : Merging :=
  let isArm := spec.arms.contains number && wireType == (spec.armWireTypes.lookup number).getD 2
  let merging := if isArm then takeArm spec number merging else merging
  let hasChild := ((spec.descend.lookup number).or (spec.google.lookup number)).isSome
  match if spec.singular.contains number || hasChild then payload else none with
  | none => placeField spec merging number isArm [] raw
  | some payload =>
    match if spec.singular.contains number then previousMessage merging number else none with
    | none => placeField spec merging number isArm [payload] raw
    | some (previous, field) =>
      { merging with
        fields := merging.fields.set previous (some { field with payloads := field.payloads ++ [payload] })
        changed := true }

section

variable (reader : BinaryReader) (writeField : Nat -> List UInt8 -> List UInt8)

def mergeStep (spec : ScanSpec) (merging : Merging) (data : List UInt8) : Option (Merging × List UInt8) :=
  (reader.tag data).bind fun read =>
    let number := read.1.1
    let wireType := read.1.2
    let value :=
      if wireType = 2 then (reader.bytes read.2).map fun value => (some value.1, value.2)
      else (reader.skip wireType (some number) read.2).map fun rest => (none, rest)
    value.map fun value =>
      (mergeField spec merging number wireType value.1 (data.take (data.length - value.2.length)), value.2)

/-- A field written out, and whether that changed it. -/
def writeMerged (merge : ScanSpec -> List UInt8 -> Option (List UInt8 × Bool)) (field : MergedField) :
    Option (List UInt8 × Bool) :=
  if field.payloads.isEmpty then some (field.raw, false)
  else
    let combined := field.payloads.flatten
    let merged :=
      match field.child with
      | none => some (combined, false)
      | some child => merge child combined
    merged.map fun merged =>
      if 1 < field.payloads.length || merged.2 then (writeField (field.number * 8 + 2) merged.1, true)
      else (field.raw, false)

/-- The bytes with their repeated messages combined, and whether anything was; unchanged bytes are handed back. -/
def mergeMessageFields : Nat -> ScanSpec -> List UInt8 -> Option (List UInt8 × Bool)
  | 0, _, _ => none
  | depth + 1, spec, data =>
    (readAll (mergeStep reader spec) {} data).bind fun merging =>
      ((merging.fields.filterMap id).mapM (writeMerged writeField (mergeMessageFields depth))).map fun parts =>
        if merging.changed || parts.any Prod.snd then ((parts.map Prod.fst).flatten, true) else (data, false)

/-! ## The generated parser -/

variable {A V : Type} (messages : Messages A V)

/-- The parser reads on, or has met a tag at which it stops; what stands behind that is not looked at. -/
inductive Parsing (A : Type) where
  | going (envelope : OrderedMap Nat A)
  | stopped (envelope : OrderedMap Nat A)

def Parsing.envelope {A : Type} : Parsing A -> OrderedMap Nat A
  | .going envelope => envelope
  | .stopped envelope => envelope

def parseStep (parsing : Parsing A) (data : List UInt8) : Option (Parsing A × List UInt8) :=
  match parsing with
  | .stopped envelope => some (.stopped envelope, data.tail)
  | .going envelope =>
    (reader.uint32 data).bind fun read =>
      let field := read.1 / 8
      let wireType := read.1 % 8
      if ENVELOPE_TAGS.contains field && wireType == 2 then
        (reader.uint32 read.2).bind fun length =>
          (messages.decodeArm field length.1 length.2).map fun arm => (.going (envelope.set field arm.1), arm.2)
      else if wireType == 4 || read.1 == 0 then some (.stopped envelope, read.2)
      else (reader.skip wireType none read.2).map fun rest => (.going envelope, rest)

/-- `Event.decode` -/
def decodeEnvelope (data : List UInt8) : Option (OrderedMap Nat A) :=
  (readAll (parseStep reader messages) (.going .empty) data).map Parsing.envelope

/-! ## Decoding -/

inductive DecodeError where
  /-- `AGUIUnknownEventTypeError` -/
  | unknownEventType
  | invalidEvent (message : String)
  /-- What the library or the generated code throws. -/
  | thrown
deriving DecidableEq

/-- `EventType[number]` -/
def eventTypeName (number : Int) : Option String :=
  if number = -1 then some "UNRECOGNIZED"
  else if number < 0 then none
  else eventTypeNames[number.toNat]?

/-- The arm has to carry a base event of its own type. -/
def decodeArmOf (number : Nat) (arm : A) : Except DecodeError V :=
  match ENVELOPE_TYPE.lookup number, messages.baseType arm with
  | some entryType, some type =>
    if eventTypeName type = some entryType then (messages.translate entryType arm).mapError .invalidEvent
    else
      .error (.invalidEvent ("Invalid event: envelope carries " ++ entryType ++ " but the base event declares " ++
        (eventTypeName type).getD "undefined"))
  | _, _ => .error (.invalidEvent "Invalid event")

/-- One arm in a well-formed envelope; where there is none, a later protocol may be the reason. -/
def decode (data : List UInt8) : Except DecodeError V :=
  if assertWellFormedEnvelope data then
    match (mergeMessageFields reader writeField (data.length + 1)
        { singular := ENVELOPE_TAGS, descend := ENVELOPE_SCAN } data).bind fun merged =>
          decodeEnvelope reader messages merged.1 with
    | none => .error .thrown
    | some envelope =>
      match envelope.entries with
      | [] => .error (if namesOnlyFutureArms data then .unknownEventType else .invalidEvent "Invalid event")
      | [(number, arm)] => decodeArmOf messages number arm
      | _ => .error (.invalidEvent "Invalid event")
  else .error (.invalidEvent "Invalid event")

end

end ProtoTranslation
end Transport
end AgUi
