import AgUi.Transport.StrictWalk

namespace AgUi
namespace Transport
namespace ProtoTranslation

open Library Wire

/-!
# Events of a later protocol

The guard, the merger and the generated parser read more bytes than a strict
walk does.  On the envelopes of a later protocol they all see the fields that
the strict walk sees: the guard lets them pass, the merger hands them back
unchanged and the parser finds no arm, so that the strict walk decides.
-/

/-! ## Masked numbers -/

/-- A number of 32 bits loses nothing to the masks. -/
theorem readVarintFrom_of_varint32 {room value place : Nat} {bytes : List UInt8}
    (number : IsVarint 15 room bytes value) (places : place + room = 5) (rest : List UInt8) :
    readVarintFrom place (bytes ++ rest) = some (value, rest) := by
  induction number generalizing place with
  | @final room byte ends fits =>
    have part : maskedPart place byte = byte.toNat := by
      unfold maskedPart
      split
      · exact Nat.mod_eq_of_lt ends
      · have last : room = 0 := by omega
        have small := fits last
        rw [if_pos (by omega), Nat.mod_eq_of_lt (by omega)]
    rw [List.cons_append, readVarintFrom, if_pos ends, part]
    rfl
  | @more room byte bytes value goesOn later ih =>
    have early : place < 4 := by
      cases later <;> omega
    have part : maskedPart place byte = byte.toNat % 128 := if_pos early
    rw [List.cons_append, readVarintFrom, if_neg (Nat.not_lt_of_le goesOn), ih (by omega), part]
    rfl

theorem readVarint_of_varint32 {bytes : List UInt8} {value : Nat} (number : IsVarint32 bytes value)
    (rest : List UInt8) : readVarint (bytes ++ rest) = some (value, rest) :=
  readVarintFrom_of_varint32 number rfl rest

/-- Of any other number the masked reading sees where it ends. -/
theorem readVarintFrom_ends {last room value : Nat} {bytes : List UInt8} (number : IsVarint last room bytes value)
    (place : Nat) (rest : List UInt8) :
    ∃ masked, readVarintFrom place (bytes ++ rest) = some (masked, rest) := by
  induction number generalizing place with
  | final ends fits =>
    rw [List.cons_append, readVarintFrom, if_pos ends]
    exact ⟨_, rfl⟩
  | more goesOn later ih =>
    rcases ih (place + 1) with ⟨masked, read⟩
    rw [List.cons_append, readVarintFrom, if_neg (Nat.not_lt_of_le goesOn), read]
    exact ⟨_, rfl⟩

/-- The masked reading of a value sees the bytes that the strict reading sees. -/
theorem readValue_masked {wireType : Nat} {payload : Option (List UInt8)} {bytes : List UInt8}
    (value : IsValue wireType payload bytes) (rest : List UInt8) :
    readValue readVarint readVarint wireType (bytes ++ rest) = some (payload, rest) := by
  unfold readValue
  cases value with
  | varint number =>
    rcases readVarintFrom_ends number 0 rest with ⟨masked, read⟩
    rw [if_pos rfl]
    exact Option.map_eq_some_iff.mpr ⟨(masked, rest), read, rfl⟩
  | fixed64 width => exact skipBytes_iff.mpr ⟨rfl, bytes, rfl, width⟩
  | @delimited bytes payload length =>
    have long : ¬ (payload ++ rest).length < payload.length := by
      rw [List.length_append]
      omega
    rw [if_neg (by decide), if_neg (by decide), if_pos rfl, List.append_assoc, readVarint_of_varint32 length,
      Option.bind_some, if_neg long, List.take_left, List.drop_left]
  | fixed32 width => exact skipBytes_iff.mpr ⟨rfl, bytes, rfl, width⟩

/-- A tag names its field and its kind of value. -/
theorem number_of_tag {field wireType : Nat} {tag : List UInt8} (tagged : IsTag field wireType tag) :
    (field * 8 + wireType) / 8 = field ∧ (field * 8 + wireType) % 8 = wireType := by
  have narrow := tagged.narrow
  exact ⟨by omega, by omega⟩

/-! ## The guard lets every envelope of a later protocol pass -/

section

variable {S : Type} {visit : S -> Nat -> Option (List UInt8) -> Option S}

theorem scanStep_opens {field : Nat} {tag : List UInt8} (tagged : IsTag field 3 tag) (scan : Scan S)
    (rest : List UInt8) :
    scanStep visit scan (tag ++ rest) = some ({ scan with groupDepth := scan.groupDepth + 1 }, rest) := by
  rcases number_of_tag tagged with ⟨named, kind⟩
  unfold scanStep
  rw [readVarint_of_varint32 tagged.number, Option.bind_some]
  dsimp only
  rw [named, kind, if_neg tagged.names, if_pos rfl]

theorem scanStep_closes {field : Nat} {tag : List UInt8} (tagged : IsTag field 4 tag) (depth : Nat) (state : S)
    (rest : List UInt8) : scanStep visit ⟨depth + 1, state⟩ (tag ++ rest) = some (⟨depth, state⟩, rest) := by
  rcases number_of_tag tagged with ⟨named, kind⟩
  unfold scanStep
  rw [readVarint_of_varint32 tagged.number, Option.bind_some]
  dsimp only
  rw [named, kind, if_neg tagged.names, if_neg (by decide), if_pos rfl, if_neg (Nat.succ_ne_zero depth)]
  rfl

/-- A value is visited outside of any group, and passed over inside one. -/
theorem scanStep_value {field wireType : Nat} {payload : Option (List UInt8)} {tag bytes : List UInt8}
    (tagged : IsTag field wireType tag) (value : IsValue wireType payload bytes) (scan : Scan S)
    (kept : scan.groupDepth = 0 -> visit scan.state field payload = some scan.state) (rest : List UInt8) :
    scanStep visit scan (tag ++ (bytes ++ rest)) = some (scan, rest) := by
  rcases number_of_tag tagged with ⟨named, kind⟩
  rcases ne_of_isValue value with ⟨opensNot, closesNot⟩
  unfold scanStep
  rw [readVarint_of_varint32 tagged.number, Option.bind_some]
  dsimp only
  rw [named, kind, if_neg tagged.names, if_neg opensNot, if_neg closesNot, readValue_masked value, Option.bind_some]
  dsimp only
  split
  · rename_i top
    rw [kept top]
    rfl
  · rfl

/-- Inside a group the scan passes the fields of a message and stands as it stood. -/
theorem scan_inside {fields : List (Nat × Option (List UInt8))} {inner : List UInt8} (spelled : Spells fields inner)
    (depth : Nat) (state : S) (rest : List UInt8) :
    readAll (scanStep visit) ⟨depth + 1, state⟩ (inner ++ rest) = readAll (scanStep visit) ⟨depth + 1, state⟩ rest := by
  induction spelled generalizing depth rest with
  | nil => rfl
  | @value field wireType payload tag bytes behind fields tagged value _ ih =>
    have passes : depth + 1 = 0 -> visit state field payload = some state := nofun
    have stepped := scanStep_value tagged value ⟨depth + 1, state⟩ passes (behind ++ rest)
    rw [List.append_assoc, List.append_assoc, ← ih depth rest]
    rw [← List.append_assoc] at stepped ⊢
    exact readAll_of_field (.value tagged value) stepped
  | @group field opening inside closing behind insideFields fields opens _ closes _ insideHypothesis laterHypothesis =>
    rw [List.append_assoc, List.append_assoc, List.append_assoc]
    rw [readAll_of_step (nonempty_of_tag opens _) (scanStep_opens opens _ _) (length_lt_of_tag opens _)]
    rw [insideHypothesis (depth + 1)]
    rw [readAll_of_step (nonempty_of_tag closes _) (scanStep_closes closes _ _ _) (length_lt_of_tag closes _)]
    exact laterHypothesis depth rest

/-- A scan whose visits change nothing goes through a message. -/
theorem scansCleanly_of_spells {fields : List (Nat × Option (List UInt8))} {data : List UInt8} {start : S}
    (spelled : Spells fields data)
    (kept : ∀ field ∈ fields, visit start field.1 field.2 = some start) :
    scansCleanly visit start data = true := by
  have read : readAll (scanStep visit) { state := start } data = some { state := start } := by
    induction spelled with
    | nil => rfl
    | @value field wireType payload tag bytes behind fields tagged value _ ih =>
      have stepped := scanStep_value tagged value { state := start } (fun _ => kept _ List.mem_cons_self) behind
      rw [← ih (List.forall_mem_cons.mp kept).2]
      rw [← List.append_assoc] at stepped ⊢
      exact readAll_of_field (.value tagged value) stepped
    | @group field opening inside closing behind insideFields fields opens holds closes _ _ laterHypothesis =>
      rw [readAll_of_step (nonempty_of_tag opens _) (scanStep_opens opens _ _) (length_lt_of_tag opens _)]
      rw [scan_inside holds]
      rw [readAll_of_step (nonempty_of_tag closes _) (scanStep_closes closes _ _ _) (length_lt_of_tag closes _)]
      exact laterHypothesis (List.forall_mem_cons.mp kept).2
  unfold scansCleanly
  rw [read]
  rfl

end

theorem lookup_of_unknown {field : Nat} (unknown : field ∉ ENVELOPE_TAGS) :
    ENVELOPE_SCAN.lookup field = none := by
  apply List.lookup_eq_none_iff.mpr
  intro entry member
  have known : entry.1 ∈ ENVELOPE_TAGS := by
    have all : ∀ entry ∈ ENVELOPE_SCAN, entry.1 ∈ ENVELOPE_TAGS := by decide
    exact all entry member
  apply bne_iff_ne.mpr
  rintro rfl
  exact unknown known

theorem contains_of_unknown {field : Nat} (unknown : field ∉ ENVELOPE_TAGS) : ENVELOPE_TAGS.contains field = false := by
  rw [List.contains_eq_mem]
  exact decide_eq_false unknown

theorem assertWellFormedEnvelope_of_future {data : List UInt8} (future : IsFutureEnvelope data) :
    assertWellFormedEnvelope data = true := by
  rcases future with ⟨fields, spelled, unknown, _, _⟩
  refine scansCleanly_of_spells spelled fun field member => ?_
  unfold visitEnvelope
  rw [contains_of_unknown (unknown field member), lookup_of_unknown (unknown field member)]
  dsimp only
  rw [Bool.false_and, if_neg Bool.false_ne_true, if_neg Bool.false_ne_true, if_pos]
  cases field.2 <;> rfl

/-! ## The merger hands it back and the parser finds no arm -/

/-- What is relied on of the library: its reader takes what the wire format writes. -/
structure ReadsWire (reader : BinaryReader) : Prop where
  uint32 : ∀ {value : Nat} {bytes : List UInt8} (rest : List UInt8), IsVarint32 bytes value ->
    reader.uint32 (bytes ++ rest) = some (value, rest)
  tag : ∀ {field wireType : Nat} {bytes : List UInt8} (rest : List UInt8), IsTag field wireType bytes ->
    wireType ≤ 5 -> reader.tag (bytes ++ rest) = some ((field, wireType), rest)
  bytes : ∀ {bytes payload : List UInt8} (rest : List UInt8), IsVarint32 bytes payload.length ->
    reader.bytes (bytes ++ (payload ++ rest)) = some (payload, rest)
  skipValue : ∀ {wireType : Nat} {payload : Option (List UInt8)} {bytes : List UInt8} (given : Option Nat)
    (rest : List UInt8), IsValue wireType payload bytes -> reader.skip wireType given (bytes ++ rest) = some rest
  /-- A group that closes with its own number, which may be given. -/
  skipGroup : ∀ {field : Nat} {inner closing : List UInt8} {inside : List (Nat × Option (List UInt8))}
    (given : Option Nat) (rest : List UInt8), Spells inside inner -> IsTag field 4 closing ->
      (∀ number, given = some number -> number = field) ->
        reader.skip 3 given (inner ++ (closing ++ rest)) = some rest

/-- Nothing was merged, and no field is a message. -/
def Untouched (merging : Merging) : Prop :=
  merging.changed = false ∧ ∀ field ∈ merging.fields.filterMap id, field.payloads = []

theorem untouched_of_unknown {field : Nat} (unknown : field ∉ ENVELOPE_TAGS) {merging : Merging}
    (stands : Untouched merging) (wireType : Nat) (payload : Option (List UInt8)) (raw : List UInt8) :
    Untouched (mergeField { singular := ENVELOPE_TAGS, descend := ENVELOPE_SCAN } merging field wireType
      payload raw) := by
  have placed : mergeField { singular := ENVELOPE_TAGS, descend := ENVELOPE_SCAN } merging field wireType payload raw =
      placeField { singular := ENVELOPE_TAGS, descend := ENVELOPE_SCAN } merging field false [] raw := by
    unfold mergeField
    dsimp only
    rw [contains_of_unknown unknown, lookup_of_unknown unknown]
    rfl
  rw [placed]
  refine ⟨stands.1, fun other member => ?_⟩
  unfold placeField at member
  rw [List.filterMap_append, List.mem_append] at member
  rcases member with before | added
  · exact stands.2 other before
  · rcases List.mem_singleton.mp added
    rfl

section

variable {reader : BinaryReader} (reads : ReadsWire reader)

include reads

/-- The merger takes a field off the front, with what it holds. -/
theorem mergeStep_field {field : Nat} {payload : Option (List UInt8)} {bytes : List UInt8}
    (spelled : IsField field payload bytes) (spec : ScanSpec) (merging : Merging) (rest : List UInt8) :
    ∃ wireType raw,
      mergeStep reader spec merging (bytes ++ rest) =
        some (mergeField spec merging field wireType payload raw, rest) := by
  unfold mergeStep
  cases spelled with
  | @value wireType _ tag bytes tagged value =>
    have narrow : wireType ≤ 5 := by
      cases value <;> decide
    rw [List.append_assoc, reads.tag _ tagged narrow, Option.bind_some]
    dsimp only
    cases value with
    | @delimited bytes payload length =>
      rw [if_pos rfl, List.append_assoc, reads.bytes _ length]
      exact ⟨_, _, rfl⟩
    | varint number =>
      rw [if_neg (by decide), reads.skipValue _ _ (.varint number)]
      exact ⟨_, _, rfl⟩
    | fixed64 width =>
      rw [if_neg (by decide), reads.skipValue _ _ (.fixed64 width)]
      exact ⟨_, _, rfl⟩
    | fixed32 width =>
      rw [if_neg (by decide), reads.skipValue _ _ (.fixed32 width)]
      exact ⟨_, _, rfl⟩
  | @group opening inner closing inside opens holds closes =>
    rw [List.append_assoc, List.append_assoc, reads.tag _ opens (by decide), Option.bind_some]
    dsimp only
    rw [if_neg (by decide), reads.skipGroup _ _ holds closes fun number same => (Option.some.inj same).symm]
    exact ⟨_, _, rfl⟩

theorem mergeMessageFields_of_unknown (writeField : Nat -> List UInt8 -> List UInt8) (depth : Nat)
    {fields : List (Nat × Option (List UInt8))} {data : List UInt8} (spelled : Spells fields data)
    (unknown : ∀ field ∈ fields, field.1 ∉ ENVELOPE_TAGS) :
    mergeMessageFields reader writeField (depth + 1) { singular := ENVELOPE_TAGS, descend := ENVELOPE_SCAN } data =
      some (data, false) := by
  have start : Untouched {} := ⟨rfl, fun _ impossible => absurd impossible List.not_mem_nil⟩
  rcases readAll_of_fields (mergeStep reader { singular := ENVELOPE_TAGS, descend := ENVELOPE_SCAN }) Untouched spelled
    (fun field payload bytes rest merging member first stands => by
      rcases mergeStep_field reads first { singular := ENVELOPE_TAGS, descend := ENVELOPE_SCAN } merging rest with
        ⟨wireType, raw, stepped⟩
      exact ⟨_, stepped, untouched_of_unknown (unknown _ member) stands wireType payload raw⟩)
    start with ⟨merging, read, same, plain⟩
  have written : ∀ (found : List MergedField), (∀ field ∈ found, field.payloads = []) ->
      found.mapM (writeMerged writeField (mergeMessageFields reader writeField depth)) =
        some (found.map fun field => (field.raw, false)) := by
    intro found all
    induction found with
    | nil => rfl
    | cons field others ih =>
      have first : writeMerged writeField (mergeMessageFields reader writeField depth) field =
          some (field.raw, false) := by
        unfold writeMerged
        rw [all field List.mem_cons_self]
        rfl
      rw [List.mapM_cons, first, ih (List.forall_mem_cons.mp all).2]
      rfl
  have none : ((merging.fields.filterMap id).map fun field => (field.raw, false)).any Prod.snd = false := by
    rw [List.any_eq_false]
    intro part member
    rcases List.mem_map.mp member with ⟨field, _, rfl⟩
    exact Bool.false_ne_true
  rw [mergeMessageFields, read, Option.bind_some, written _ plain, Option.map_some, same, none, Bool.false_or,
    if_neg Bool.false_ne_true]

/-- The parser passes over a field that names no arm it knows. -/
theorem parseStep_field {A V : Type} (messages : Messages A V) {field : Nat} {payload : Option (List UInt8)}
    {bytes : List UInt8} (spelled : IsField field payload bytes) (unknown : field ∉ ENVELOPE_TAGS)
    (envelope : OrderedMap Nat A) (rest : List UInt8) :
    parseStep reader messages (.going envelope) (bytes ++ rest) = some (.going envelope, rest) := by
  unfold parseStep
  dsimp only
  cases spelled with
  | @value wireType _ tag bytes tagged value =>
    rcases number_of_tag tagged with ⟨named, kind⟩
    have positive : field * 8 + wireType ≠ 0 := by
      have names := tagged.names
      omega
    rw [List.append_assoc, reads.uint32 _ tagged.number, Option.bind_some]
    dsimp only
    rw [named, kind, contains_of_unknown unknown, Bool.false_and, if_neg Bool.false_ne_true, if_neg,
      reads.skipValue _ _ value]
    · rfl
    · rw [Bool.or_eq_true, beq_iff_eq, beq_iff_eq]
      rintro (closes | zero)
      · exact (ne_of_isValue value).2 closes
      · exact positive zero
  | @group opening inner closing inside opens holds closes =>
    rcases number_of_tag opens with ⟨named, kind⟩
    have positive : field * 8 + 3 ≠ 0 := Nat.succ_ne_zero _
    rw [List.append_assoc, List.append_assoc, reads.uint32 _ opens.number, Option.bind_some]
    dsimp only
    rw [named, kind, contains_of_unknown unknown, Bool.false_and, if_neg Bool.false_ne_true, if_neg,
      reads.skipGroup _ _ holds closes fun _ impossible => by cases impossible]
    · rfl
    · rw [Bool.or_eq_true, beq_iff_eq, beq_iff_eq]
      rintro (impossible | zero)
      · cases impossible
      · exact positive zero

theorem decodeEnvelope_of_unknown {A V : Type} (messages : Messages A V)
    {fields : List (Nat × Option (List UInt8))} {data : List UInt8} (spelled : Spells fields data)
    (unknown : ∀ field ∈ fields, field.1 ∉ ENVELOPE_TAGS) :
    decodeEnvelope reader messages data = some .empty := by
  unfold decodeEnvelope
  rcases readAll_of_fields (parseStep reader messages) (fun parsing => parsing = .going OrderedMap.empty) spelled
    (fun field payload bytes rest parsing member first stands => by
      subst stands
      exact ⟨_, parseStep_field reads messages first (unknown _ member) .empty rest, rfl⟩) rfl with ⟨final, read, same⟩
  rw [read, same]
  rfl

end

/-! ## A reader -/

/-- Skips the fields of a group and the tag that closes it. -/
def skipFields : Nat -> Option Nat -> List UInt8 -> Option (List UInt8)
  | 0, _, _ => none
  | fuel + 1, given, data =>
    (readVarint data).bind fun read =>
      if read.1 / 8 = 0 then none
      else if read.1 % 8 = 4 then if given.all (· = read.1 / 8) then some read.2 else none
      else if read.1 % 8 = 3 then (skipFields fuel (some (read.1 / 8)) read.2).bind (skipFields fuel given)
      else (readValue readVarint readVarint (read.1 % 8) read.2).bind fun value => skipFields fuel given value.2

def maskingReader : BinaryReader where
  uint32 := readVarint
  tag data := (readVarint data).bind fun read =>
    if read.1 / 8 = 0 ∨ 5 < read.1 % 8 then none else some ((read.1 / 8, read.1 % 8), read.2)
  bytes data := (readValue readVarint readVarint 2 data).bind fun value => value.1.map fun payload => (payload, value.2)
  skip wireType given data :=
    if wireType = 3 then skipFields data.length given data
    else (readValue readVarint readVarint wireType data).map Prod.snd

theorem skipFields_of_spells {fields : List (Nat × Option (List UInt8))} {inner : List UInt8}
    (spelled : Spells fields inner) {field : Nat} {closing : List UInt8} (closes : IsTag field 4 closing)
    {given : Option Nat} (same : ∀ number, given = some number -> number = field) {fuel : Nat}
    (enough : inner.length < fuel) (rest : List UInt8) :
    skipFields fuel given (inner ++ (closing ++ rest)) = some rest := by
  induction spelled generalizing field closing given fuel rest with
  | nil =>
    cases fuel with
    | zero => cases enough
    | succ fuel =>
      rcases number_of_tag closes with ⟨named, kind⟩
      rw [List.nil_append, skipFields, readVarint_of_varint32 closes.number, Option.bind_some]
      dsimp only
      rw [named, kind, if_neg closes.names, if_pos rfl, if_pos]
      cases given with
      | none => rfl
      | some number => exact decide_eq_true (same number rfl)
  | @value inside wireType payload tag bytes behind fields tagged value _ ih =>
    cases fuel with
    | zero => cases enough
    | succ fuel =>
      rcases number_of_tag tagged with ⟨named, kind⟩
      rcases ne_of_isValue value with ⟨opensNot, closesNot⟩
      have shorter := length_lt_of_tag tagged (bytes ++ behind)
      have less : behind.length < fuel := by
        rw [List.length_append] at shorter
        omega
      rw [List.append_assoc, List.append_assoc, skipFields, readVarint_of_varint32 tagged.number, Option.bind_some]
      dsimp only
      rw [named, kind, if_neg tagged.names, if_neg closesNot, if_neg opensNot, readValue_masked value,
        Option.bind_some]
      exact ih closes same less rest
  | @group inside opening held ending behind insideFields fields opens _ ends _ insideHypothesis laterHypothesis =>
    cases fuel with
    | zero => cases enough
    | succ fuel =>
      rcases number_of_tag opens with ⟨named, kind⟩
      have shorter := length_lt_of_tag opens (held ++ (ending ++ behind))
      have lengths : (held ++ (ending ++ behind)).length = held.length + (ending.length + behind.length) := by
        rw [List.length_append, List.length_append]
      rw [List.append_assoc, List.append_assoc, List.append_assoc, skipFields,
        readVarint_of_varint32 opens.number, Option.bind_some]
      dsimp only
      rw [named, kind, if_neg opens.names, if_neg (by decide), if_pos rfl,
        insideHypothesis ends (fun number named => (Option.some.inj named).symm) (by omega), Option.bind_some]
      exact laterHypothesis closes same (by omega) rest

theorem readsWire_maskingReader : ReadsWire maskingReader where
  uint32 rest number := readVarint_of_varint32 number rest
  tag rest tagged narrow := by
    rcases number_of_tag tagged with ⟨named, kind⟩
    unfold maskingReader
    dsimp only
    rw [readVarint_of_varint32 tagged.number, Option.bind_some]
    dsimp only
    rw [named, kind, if_neg]
    rintro (zero | wide)
    · exact tagged.names zero
    · exact absurd narrow (Nat.not_le_of_lt wide)
  bytes rest length := by
    unfold maskingReader
    dsimp only
    rw [← List.append_assoc, readValue_masked (.delimited length)]
    rfl
  skipValue given rest value := by
    unfold maskingReader
    dsimp only
    rw [if_neg (ne_of_isValue value).1, readValue_masked value]
    rfl
  skipGroup given rest holds closes same := by
    unfold maskingReader
    dsimp only
    rw [if_pos rfl]
    refine skipFields_of_spells holds closes same ?_ rest
    have shorter := length_lt_of_tag closes rest
    rw [List.length_append]
    omega

/-! ## What is reported as an event of a later protocol -/

section

variable {A V : Type} {reader : BinaryReader} (writeField : Nat -> List UInt8 -> List UInt8) (messages : Messages A V)

theorem decodeArmOf_ne_unknown (number : Nat) (arm : A) :
    decodeArmOf messages number arm ≠ .error .unknownEventType := by
  unfold decodeArmOf
  split
  · split
    · cases messages.translate _ arm with
      | ok event | error event =>
        intro impossible
        cases impossible
    · intro impossible
      cases impossible
  · intro impossible
    cases impossible

theorem namesOnlyFutureArms_of_decode {data : List UInt8}
    (refused : decode reader writeField messages data = .error .unknownEventType) :
    namesOnlyFutureArms data = true := by
  unfold decode at refused
  split at refused
  · split at refused
    · cases refused
    · split at refused
      · split at refused
        · assumption
        · cases refused
      · exact absurd refused (decodeArmOf_ne_unknown messages _ _)
      · cases refused
  · cases refused

/-- Exactly the envelopes of a later protocol are reported as such; none of them is reported as anything else, and all
other bytes are decoded or refused with another error. -/
theorem decode_reports_future (reads : ReadsWire reader) (data : List UInt8) :
    (decode reader writeField messages data = .error .unknownEventType ↔ IsFutureEnvelope data) ∧
      (IsFutureEnvelope data -> decode reader writeField messages data ≠ .error .thrown ∧
        ∀ message, decode reader writeField messages data ≠ .error (.invalidEvent message)) ∧
      (¬ IsFutureEnvelope data -> (∃ event, decode reader writeField messages data = .ok event) ∨
        ∃ error, decode reader writeField messages data = .error error ∧ error ≠ .unknownEventType) := by
  have reported : IsFutureEnvelope data -> decode reader writeField messages data = .error .unknownEventType := by
    intro future
    have named := namesOnlyFutureArms_iff.mpr future
    have guarded := assertWellFormedEnvelope_of_future future
    rcases future with ⟨fields, spelled, unknown, _, _⟩
    have parsed := decodeEnvelope_of_unknown reads messages spelled unknown
    unfold decode
    rw [if_pos guarded, mergeMessageFields_of_unknown reads writeField _ spelled unknown, Option.bind_some, parsed]
    dsimp only [OrderedMap.empty]
    rw [if_pos named]
  have reportsOnly : decode reader writeField messages data = .error .unknownEventType -> IsFutureEnvelope data :=
    fun refused => namesOnlyFutureArms_iff.mp (namesOnlyFutureArms_of_decode writeField messages refused)
  refine ⟨⟨reportsOnly, reported⟩, fun future => ?_, fun other => ?_⟩
  · rw [reported future]
    constructor
    · intro impossible
      cases impossible
    · intro message impossible
      cases impossible
  · cases answer : decode reader writeField messages data with
    | ok event => exact Or.inl ⟨event, rfl⟩
    | error error =>
      refine Or.inr ⟨error, rfl, ?_⟩
      rintro rfl
      exact other (reportsOnly answer)

end

/-- A frame that names the arm of number 40, beside a group. -/
theorem decode_reports_future_laterArm :
    decode maskingReader (fun _ payload => payload)
      { decodeArm := fun _ _ _ => none, baseType := fun _ => none, translate := fun _ _ => .ok () : Messages Unit Unit }
      [203, 2, 8, 5, 204, 2, 194, 2, 2, 8, 1] = .error .unknownEventType :=
  (decode_reports_future _ _ readsWire_maskingReader _).1.mpr (namesOnlyFutureArms_iff.mp (by decide))

end ProtoTranslation
end Transport
end AgUi
