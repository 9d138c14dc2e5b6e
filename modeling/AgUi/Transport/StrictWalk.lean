import AgUi.Transport.ProtoTranslation

namespace AgUi
namespace Transport
namespace ProtoTranslation

open Library Wire

/-!
# The strict walkers

A strict walk goes through exactly the messages whose fields outside of any
group it accepts.  The one that decides whether an envelope is of a later
protocol accepts those that name no arm it knows and, where they are
delimited, hold a message again.
-/

/-! ## Numbers and values -/

variable {data rest : List UInt8}

theorem boundedVarint_iff {last room value : Nat} : boundedVarint last room data = some (value, rest) ↔
      ∃ bytes, data = bytes ++ rest ∧ IsVarint last room bytes value := by
  induction room generalizing data value with
  | zero =>
    constructor
    · intro impossible
      cases impossible
    · rintro ⟨bytes, _, number⟩
      cases number
  | succ room ih =>
    cases data with
    | nil =>
      constructor
      · intro impossible
        cases impossible
      · rintro ⟨bytes, empty, number⟩
        exact absurd (List.append_eq_nil_iff.mp empty.symm).1 number.nonempty
    | cons byte tail =>
      rw [boundedVarint]
      constructor
      · intro read
        split at read
        · cases read
        · rename_i fits
          split at read
          · rename_i ends
            cases read
            refine ⟨[byte], rfl, .final ends fun last? => ?_⟩
            exact Nat.le_of_not_lt fun wide => fits ⟨last?, wide⟩
          · rename_i goesOn
            rcases Option.map_eq_some_iff.mp read with ⟨⟨later, behind⟩, tailRead, same⟩
            cases same
            rcases ih.mp tailRead with ⟨bytes, rfl, number⟩
            exact ⟨byte :: bytes, rfl, .more (Nat.le_of_not_lt goesOn) number⟩
      · rintro ⟨bytes, same, number⟩
        cases number with
        | final ends fits =>
          cases same
          have narrow : ¬ (room = 0 ∧ last < byte.toNat) := fun wide => Nat.not_lt_of_le (fits wide.1) wide.2
          rw [if_neg narrow, if_pos ends]
          rfl
        | @more _ _ bytes value goesOn later =>
          cases same
          have narrow : ¬ (room = 0 ∧ last < byte.toNat) := by
            rintro ⟨rfl, _⟩
            cases later
          rw [if_neg narrow, if_neg (Nat.not_lt_of_le goesOn)]
          exact Option.map_eq_some_iff.mpr ⟨(value, rest), ih.mpr ⟨bytes, rfl, later⟩, rfl⟩

variable {payload : Option (List UInt8)}

theorem skipBytes_iff {width : Nat} : skipBytes width data = some (payload, rest) ↔
      payload = none ∧ ∃ bytes, data = bytes ++ rest ∧ bytes.length = width := by
  unfold skipBytes
  constructor
  · intro read
    split at read
    · cases read
    · rename_i long
      cases read
      refine ⟨rfl, data.take width, (List.take_append_drop width data).symm, ?_⟩
      rw [List.length_take]
      omega
  · rintro ⟨rfl, bytes, rfl, same⟩
    rw [if_neg, List.drop_left' same]
    rw [List.length_append]
    omega

theorem readValue_iff {wireType : Nat} : readValue varint64 varint32 wireType data = some (payload, rest) ↔
      ∃ bytes, data = bytes ++ rest ∧ IsValue wireType payload bytes := by
  unfold readValue
  constructor
  · intro read
    split at read
    · rename_i kind
      rcases Option.map_eq_some_iff.mp read with ⟨⟨value, behind⟩, number, same⟩
      cases same
      rcases boundedVarint_iff.mp number with ⟨bytes, rfl, spelled⟩
      exact ⟨bytes, rfl, kind ▸ .varint spelled⟩
    · split at read
      · rename_i kind
        rcases skipBytes_iff.mp read with ⟨rfl, bytes, rfl, width⟩
        exact ⟨bytes, rfl, kind ▸ .fixed64 width⟩
      · split at read
        · rename_i kind
          rcases Option.bind_eq_some_iff.mp read with ⟨⟨length, behind⟩, number, taken⟩
          dsimp only at taken
          split at taken
          · cases taken
          · rename_i long
            cases taken
            rcases boundedVarint_iff.mp number with ⟨bytes, rfl, spelled⟩
            have exactly : (behind.take length).length = length := by
              rw [List.length_take]
              omega
            refine ⟨bytes ++ behind.take length, ?_, kind ▸ .delimited (exactly.symm ▸ spelled)⟩
            rw [List.append_assoc, List.take_append_drop]
        · split at read
          · rename_i kind
            rcases skipBytes_iff.mp read with ⟨rfl, bytes, rfl, width⟩
            exact ⟨bytes, rfl, kind ▸ .fixed32 width⟩
          · cases read
  · rintro ⟨bytes, rfl, value⟩
    cases value with
    | varint number =>
      rw [if_pos rfl]
      exact Option.map_eq_some_iff.mpr ⟨_, boundedVarint_iff.mpr ⟨bytes, rfl, number⟩, rfl⟩
    | fixed64 width => exact skipBytes_iff.mpr ⟨rfl, bytes, rfl, width⟩
    | @delimited bytes payload length =>
      have read : varint32 (bytes ++ (payload ++ rest)) = some (payload.length, payload ++ rest) :=
        boundedVarint_iff.mpr ⟨bytes, rfl, length⟩
      have long : ¬ (payload ++ rest).length < payload.length := by
        rw [List.length_append]
        omega
      rw [if_neg (by decide), if_neg (by decide), if_pos rfl, List.append_assoc, read, Option.bind_some, if_neg long,
        List.take_left, List.drop_left]
    | fixed32 width => exact skipBytes_iff.mpr ⟨rfl, bytes, rfl, width⟩

/-- A tag is a number that names a field and a kind of value. -/
theorem isTag_iff {tag : List UInt8} {number : Nat} (spelled : IsVarint32 tag number) (names : number / 8 ≠ 0) :
    IsTag (number / 8) (number % 8) tag where
  names := names
  narrow := Nat.mod_lt number (by decide)
  number := by
    have whole : number / 8 * 8 + number % 8 = number := by omega
    rw [whole]
    exact spelled

theorem varint32_of_tag {field wireType : Nat} {tag : List UInt8} (tagged : IsTag field wireType tag)
    (rest : List UInt8) :
    varint32 (tag ++ rest) = some (field * 8 + wireType, rest) ∧ (field * 8 + wireType) / 8 = field ∧
      (field * 8 + wireType) % 8 = wireType := by
  have narrow := tagged.narrow
  exact ⟨boundedVarint_iff.mpr ⟨tag, rfl, tagged.number⟩, by omega, by omega⟩

theorem ne_of_isValue {wireType : Nat} {bytes : List UInt8}
    (value : IsValue wireType payload bytes) : wireType ≠ 3 ∧ wireType ≠ 4 := by
  cases value <;> decide

/-! ## The strict walk -/

section

variable {accepts : Nat -> Option (List UInt8) -> Bool}

/-- What one turn of the walk can do. -/
inductive WalkMoves (accepts : Nat -> Option (List UInt8) -> Bool) : Walk -> List UInt8 -> Walk -> List UInt8 -> Prop
  | opens {groups : List Nat} {future field : Nat} {tag rest : List UInt8} (tagged : IsTag field 3 tag)
      (accepted : groups = [] -> accepts field none = true) :
      WalkMoves accepts ⟨groups, future⟩ (tag ++ rest) ⟨field :: groups, future⟩ rest
  | closes {outer : List Nat} {future field : Nat} {tag rest : List UInt8} (tagged : IsTag field 4 tag) :
      WalkMoves accepts ⟨field :: outer, future⟩ (tag ++ rest) ⟨outer, future⟩ rest
  | pass {groups : List Nat} {future field wireType : Nat} {payload : Option (List UInt8)} {tag bytes rest : List UInt8}
      (tagged : IsTag field wireType tag) (value : IsValue wireType payload bytes)
      (accepted : groups = [] -> accepts field payload = true) :
      WalkMoves accepts ⟨groups, future⟩ (tag ++ (bytes ++ rest))
        ⟨groups, future + if groups.isEmpty && payload.isSome then 1 else 0⟩ rest

theorem accepted_of_not {groups : List Nat} {field : Nat} {payload : Option (List UInt8)}
    (passed : ¬ (groups.isEmpty && !accepts field payload) = true) : groups = [] -> accepts field payload = true := by
  rintro rfl
  cases answer : accepts field payload with
  | true => rfl
  | false =>
    rw [answer] at passed
    exact absurd rfl passed

theorem not_of_accepted {groups : List Nat} {field : Nat} {payload : Option (List UInt8)}
    (accepted : groups = [] -> accepts field payload = true) : ¬ (groups.isEmpty && !accepts field payload) = true := by
  cases groups with
  | nil =>
    rw [accepted rfl]
    exact Bool.false_ne_true
  | cons group outer => exact Bool.false_ne_true

theorem walkStep_iff {walk later : Walk} {data rest : List UInt8} :
    walkStep accepts walk data = some (later, rest) ↔ WalkMoves accepts walk data later rest := by
  rcases walk with ⟨groups, future⟩
  constructor
  · intro stepped
    unfold walkStep at stepped
    rcases Option.bind_eq_some_iff.mp stepped with ⟨⟨number, behind⟩, read, goesOn⟩
    rcases boundedVarint_iff.mp read with ⟨tag, rfl, spelled⟩
    dsimp only at goesOn
    split at goesOn
    · cases goesOn
    · rename_i names
      have tagged := isTag_iff spelled names
      split at goesOn
      · rename_i kind
        rw [kind] at tagged
        split at goesOn
        · cases goesOn
        · rename_i passed
          cases goesOn
          exact .opens tagged (accepted_of_not passed)
      · split at goesOn
        · rename_i kind
          rw [kind] at tagged
          cases groups with
          | nil => cases goesOn
          | cons opened outer =>
            dsimp only at goesOn
            split at goesOn
            · rename_i same
              cases goesOn
              subst same
              exact .closes tagged
            · cases goesOn
        · rcases Option.bind_eq_some_iff.mp goesOn with ⟨⟨payload, after⟩, valueRead, taken⟩
          rcases readValue_iff.mp valueRead with ⟨bytes, rfl, value⟩
          dsimp only at taken
          split at taken
          · cases taken
          · rename_i passed
            cases taken
            exact .pass tagged value (accepted_of_not passed)
  · intro moves
    unfold walkStep
    cases moves with
    | @opens _ _ field tag rest tagged accepted =>
      rcases varint32_of_tag tagged rest with ⟨read, named, kind⟩
      rw [read, Option.bind_some]
      dsimp only
      rw [named, kind, if_neg tagged.names, if_pos rfl, if_neg (not_of_accepted accepted)]
    | @closes _ _ field tag rest tagged =>
      rcases varint32_of_tag tagged rest with ⟨read, named, kind⟩
      rw [read, Option.bind_some]
      dsimp only
      rw [named, kind, if_neg tagged.names, if_neg (by decide), if_pos rfl, if_pos rfl]
    | @pass _ _ field wireType payload tag bytes rest tagged value accepted =>
      rcases varint32_of_tag tagged (bytes ++ rest) with ⟨read, named, kind⟩
      rw [read, Option.bind_some]
      dsimp only
      rw [named, kind, if_neg tagged.names, if_neg (ne_of_isValue value).1, if_neg (ne_of_isValue value).2,
        readValue_iff.mpr ⟨bytes, rfl, value⟩, Option.bind_some, if_neg (not_of_accepted accepted)]

theorem readAll_of_moves {walk later : Walk} {data rest : List UInt8} (moves : WalkMoves accepts walk data later rest) :
    readAll (walkStep accepts) walk data = readAll (walkStep accepts) later rest := by
  have stepped := walkStep_iff.mpr moves
  cases moves with
  | opens tagged accepted => exact readAll_of_step (nonempty_of_tag tagged _) stepped (length_lt_of_tag tagged _)
  | closes tagged => exact readAll_of_step (nonempty_of_tag tagged _) stepped (length_lt_of_tag tagged _)
  | @pass _ _ _ _ _ tag bytes rest tagged value accepted =>
    refine readAll_of_step (nonempty_of_tag tagged _) stepped (Nat.lt_of_le_of_lt ?_ (length_lt_of_tag tagged _))
    rw [List.length_append]
    exact Nat.le_add_left _ _

/-! ## What a walk has passed -/

/-- How many fields are delimited. -/
def delimited (fields : List (Nat × Option (List UInt8))) : Nat :=
  fields.countP fun field => field.2.isSome

def AllAccepted (accepts : Nat -> Option (List UInt8) -> Bool) (fields : List (Nat × Option (List UInt8))) : Prop :=
  ∀ field ∈ fields, accepts field.1 field.2 = true

theorem delimited_cons (field : Nat) (payload : Option (List UInt8)) (fields : List (Nat × Option (List UInt8))) :
    delimited ((field, payload) :: fields) = (if payload.isSome then 1 else 0) + delimited fields := by
  unfold delimited
  rw [List.countP_cons, Nat.add_comm]

variable {fields : List (Nat × Option (List UInt8))}

theorem AllAccepted.cons {field : Nat} {payload : Option (List UInt8)}
    (first : accepts field payload = true) (others : AllAccepted accepts fields) :
    AllAccepted accepts ((field, payload) :: fields) := by
  intro other member
  rcases List.mem_cons.mp member with rfl | later
  · exact first
  · exact others other later

/-- Inside a group the walk passes the fields of a message and stands as it stood. -/
theorem walk_inside {inner : List UInt8} (spelled : Spells fields inner)
    (group : Nat) (outer : List Nat) (future : Nat) (rest : List UInt8) :
    readAll (walkStep accepts) ⟨group :: outer, future⟩ (inner ++ rest) =
      readAll (walkStep accepts) ⟨group :: outer, future⟩ rest := by
  induction spelled generalizing group outer rest with
  | nil => rfl
  | @value field wireType payload tag bytes behind fields tagged value _ ih =>
    rw [List.append_assoc, List.append_assoc]
    refine (readAll_of_moves (.pass tagged value fun impossible => by cases impossible)).trans ?_
    exact ih group outer rest
  | @group field opening inside closing behind insideFields fields opens _ closes _ insideHypothesis laterHypothesis =>
    rw [List.append_assoc, List.append_assoc, List.append_assoc]
    refine (readAll_of_moves (.opens opens fun impossible => by cases impossible)).trans ?_
    rw [insideHypothesis field (group :: outer)]
    exact (readAll_of_moves (.closes closes)).trans (laterHypothesis group outer rest)

/-- Outside of any group it passes the fields of a message if it accepts them. -/
theorem walk_complete {data : List UInt8} (spelled : Spells fields data)
    (accepted : AllAccepted accepts fields) (future : Nat) :
    readAll (walkStep accepts) ⟨[], future⟩ data = some ⟨[], future + delimited fields⟩ := by
  induction spelled generalizing future with
  | nil => rfl
  | @value field wireType payload tag bytes behind fields tagged value _ ih =>
    refine (readAll_of_moves (.pass tagged value fun _ => accepted _ List.mem_cons_self)).trans ?_
    rw [ih (List.forall_mem_cons.mp accepted).2, delimited_cons,
      List.isEmpty_nil, Bool.true_and, Nat.add_assoc]
  | @group field opening inside closing behind insideFields fields opens holds closes _ _ laterHypothesis =>
    refine (readAll_of_moves (.opens opens fun _ => accepted _ List.mem_cons_self)).trans ?_
    rw [walk_inside holds, readAll_of_moves (.closes closes),
      laterHypothesis (List.forall_mem_cons.mp accepted).2, delimited_cons,
      Option.isSome_none, if_neg Bool.false_ne_true, Nat.zero_add]

/-- What is left of a walk that ends with every group closed: the fields of a message outside of any group, and inside
one the rest of it and its closing tag. -/
theorem walk_sound {bound : Nat} {data : List UInt8} (short : data.length ≤ bound) {groups : List Nat}
    {future : Nat} {final : Walk} (read : readAll (walkStep accepts) ⟨groups, future⟩ data = some final)
    (closed : final.groups = []) :
    (groups = [] -> ∃ fields, Spells fields data ∧ AllAccepted accepts fields ∧
      final.future = future + delimited fields) ∧
      (∀ group outer, groups = group :: outer -> ∃ fields inner closing,
        ∃ rest, data = inner ++ (closing ++ rest) ∧ Spells fields inner ∧ IsTag group 4 closing ∧
          readAll (walkStep accepts) ⟨outer, future⟩ rest = some final) := by
  induction bound generalizing data groups future with
  | zero =>
    have empty := List.length_eq_zero_iff.mp (Nat.le_zero.mp short)
    subst empty
    rw [readAll_nil] at read
    cases read
    dsimp only at closed
    subst closed
    exact ⟨fun _ => ⟨[], .nil, fun _ impossible => absurd impossible List.not_mem_nil, rfl⟩,
      nofun⟩
  | succ bound ih =>
    by_cases empty : data = []
    · subst empty
      rw [readAll_nil] at read
      cases read
      dsimp only at closed
      subst closed
      exact ⟨fun _ => ⟨[], .nil, fun _ impossible => absurd impossible List.not_mem_nil, rfl⟩,
        nofun⟩
    · rcases step_of_readAll empty read with ⟨later, rest, stepped, shorter, goesOn⟩
      have less : rest.length ≤ bound := by omega
      cases walkStep_iff.mp stepped with
      | @opens _ _ field tag rest tagged accepted =>
        rcases (ih less goesOn).2 field groups rfl with
          ⟨inside, inner, closing, behind, rfl, holds, closes, outside⟩
        have behindShort : behind.length ≤ bound := by
          rw [List.length_append, List.length_append] at less
          omega
        have later := ih behindShort outside
        constructor
        · intro top
          rcases later.1 top with ⟨fields, spelled, all, same⟩
          refine ⟨(field, none) :: fields, .group tagged holds closes spelled, all.cons (accepted top), ?_⟩
          rw [same, delimited_cons, Option.isSome_none, if_neg Bool.false_ne_true, Nat.zero_add]
        · intro group outer same
          rcases later.2 group outer same with ⟨fields, more, last, remote, rfl, spelled, ends, behindEnd⟩
          refine ⟨(field, none) :: fields, tag ++ (inner ++ (closing ++ more)), last, remote, ?_,
            .group tagged holds closes spelled, ends, behindEnd⟩
          simp only [List.append_assoc]
      | @closes outer _ field tag rest tagged =>
        constructor
        · intro impossible
          cases impossible
        · intro group others same
          cases same
          exact ⟨[], [], tag, rest, rfl, .nil, tagged, goesOn⟩
      | @pass _ _ field wireType payload tag bytes rest tagged value accepted =>
        have later := ih less goesOn
        constructor
        · intro top
          rcases later.1 top with ⟨fields, spelled, all, same⟩
          refine ⟨(field, payload) :: fields, .value tagged value spelled, all.cons (accepted top), ?_⟩
          rw [same, delimited_cons, top, List.isEmpty_nil, Bool.true_and, Nat.add_assoc]
        · intro group outer same
          rcases later.2 group outer same with ⟨fields, inner, closing, remote, rfl, spelled, ends, behindEnd⟩
          refine ⟨(field, payload) :: fields, tag ++ (bytes ++ inner), closing, remote, ?_,
            .value tagged value spelled, ends, ?_⟩
          · simp only [List.append_assoc]
          · rw [same, List.isEmpty_cons, Bool.false_and, if_neg Bool.false_ne_true, Nat.add_zero] at behindEnd
            exact behindEnd

/-- A walk ends well exactly on the messages whose fields outside of any group it accepts. -/
theorem walkFields_iff {data : List UInt8} {number : Nat} :
    walkFields accepts data = some number ↔
      ∃ fields, Spells fields data ∧ AllAccepted accepts fields ∧ number = delimited fields := by
  unfold walkFields
  constructor
  · intro walked
    rcases Option.bind_eq_some_iff.mp walked with ⟨final, read, taken⟩
    split at taken
    · rename_i closed
      cases taken
      rcases (walk_sound (Nat.le_refl _) read (List.isEmpty_iff.mp closed)).1 rfl with ⟨fields, spelled, all, same⟩
      rw [Nat.zero_add] at same
      exact ⟨fields, spelled, all, same⟩
    · cases taken
  · rintro ⟨fields, spelled, all, rfl⟩
    have read : readAll (walkStep accepts) {} data = some ⟨[], 0 + delimited fields⟩ := walk_complete spelled all 0
    rw [read, Nat.zero_add]
    rfl

end

theorem walksAsMessage_iff {data : List UInt8} : walksAsMessage data = true ↔ IsMessage data := by
  unfold walksAsMessage
  rw [Option.isSome_iff_exists]
  constructor
  · rintro ⟨number, walked⟩
    rcases walkFields_iff.mp walked with ⟨fields, spelled, _⟩
    exact ⟨fields, spelled⟩
  · rintro ⟨fields, spelled⟩
    exact ⟨delimited fields, walkFields_iff.mpr ⟨fields, spelled, fun _ _ => rfl, rfl⟩⟩

/-- The bytes are an envelope of a later protocol. -/
def IsFutureEnvelope (data : List UInt8) : Prop :=
  ∃ fields, Spells fields data ∧ (∀ field ∈ fields, field.1 ∉ ENVELOPE_TAGS) ∧
    (∃ field ∈ fields, field.2.isSome = true) ∧
    ∀ field ∈ fields, ∀ payload, field.2 = some payload -> IsMessage payload

theorem namesOnlyFutureArms_iff {data : List UInt8} : namesOnlyFutureArms data = true ↔ IsFutureEnvelope data := by
  have accepts : ∀ (field : Nat) (payload : Option (List UInt8)),
      (!ENVELOPE_TAGS.contains field && payload.all walksAsMessage) = true ↔
        field ∉ ENVELOPE_TAGS ∧ ∀ held, payload = some held -> IsMessage held := by
    intro field payload
    rw [Bool.and_eq_true, Bool.not_eq_true', List.contains_eq_mem, decide_eq_false_iff_not]
    refine and_congr_right fun _ => ?_
    cases payload with
    | none => exact ⟨fun _ _ impossible => (by cases impossible), fun _ => rfl⟩
    | some held =>
      refine walksAsMessage_iff.trans ⟨fun isMessage other same => ?_, fun all => all held rfl⟩
      cases same
      exact isMessage
  have counts : ∀ fields, 0 < delimited fields ↔ ∃ field ∈ fields, field.2.isSome = true :=
    fun fields => List.countP_pos_iff
  unfold namesOnlyFutureArms
  constructor
  · intro named
    rcases (Option.any_eq_true _ _).mp named with ⟨number, walked, positive⟩
    rcases walkFields_iff.mp walked with ⟨fields, spelled, all, rfl⟩
    refine ⟨fields, spelled, fun field member => ?_, (counts fields).mp (of_decide_eq_true positive), ?_⟩
    · exact ((accepts field.1 field.2).mp (all field member)).1
    · exact fun field member => ((accepts field.1 field.2).mp (all field member)).2
  · rintro ⟨fields, spelled, unknown, holdsOne, messages⟩
    have walked : walkFields (fun field payload => !ENVELOPE_TAGS.contains field && payload.all walksAsMessage) data =
        some (delimited fields) :=
      walkFields_iff.mpr ⟨fields, spelled,
        fun field member => (accepts field.1 field.2).mpr ⟨unknown field member, messages field member⟩, rfl⟩
    rw [walked]
    exact decide_eq_true ((counts fields).mpr holdsOne)

end ProtoTranslation
end Transport
end AgUi
