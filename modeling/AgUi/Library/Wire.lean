import Mathlib.Data.List.Basic

namespace AgUi
namespace Library
namespace Wire

/-!
# Messages on the wire

The binary form of a message is one field after the other: a tag, which names
a field and says how its value is written, and the value.  Numbers are written
in groups of seven bits, the lowest first.  A group is a value that is itself
fields, up to a closing tag of its own number.

`Spells` is the grammar.  `readAll` is the loop of a reader that takes one
part after the other off the front.
-/

universe u

/-! ## Reading to the end -/

variable {S : Type u}

/-- The turns of the loop; each takes a byte at least. -/
def turns (step : S -> List UInt8 -> Option (S × List UInt8)) : Nat -> S -> List UInt8 -> Option S
  | _, state, [] => some state
  | 0, _, _ :: _ => none
  | fuel + 1, state, byte :: rest =>
    (step state (byte :: rest)).bind fun next =>
      if next.2.length ≤ rest.length then turns step fuel next.1 next.2 else none

def readAll (step : S -> List UInt8 -> Option (S × List UInt8)) (state : S) (data : List UInt8) : Option S :=
  turns step data.length state data

variable {step : S -> List UInt8 -> Option (S × List UInt8)}

/-- Any two numbers of turns that are enough come to the same. -/
theorem turns_eq {fuel more : Nat} {state : S} {data : List UInt8} (enough : data.length ≤ fuel)
    (alsoEnough : data.length ≤ more) : turns step fuel state data = turns step more state data := by
  induction fuel generalizing more state data with
  | zero =>
    cases data with
    | nil => cases more <;> rfl
    | cons byte rest => cases enough
  | succ fuel ih =>
    cases data with
    | nil => cases more <;> rfl
    | cons byte rest =>
      cases more with
      | zero => cases alsoEnough
      | succ more =>
        rw [turns, turns]
        refine Option.bind_congr fun next _ => ?_
        by_cases shorter : next.2.length ≤ rest.length
        · rw [if_pos shorter, if_pos shorter]
          have short := Nat.le_of_succ_le_succ enough
          have alsoShort := Nat.le_of_succ_le_succ alsoEnough
          exact ih (Nat.le_trans shorter short) (Nat.le_trans shorter alsoShort)
        · rw [if_neg shorter, if_neg shorter]

theorem readAll_nil (state : S) : readAll step state [] = some state :=
  rfl

theorem readAll_of_step {state later : S} {data rest : List UInt8} (nonempty : data ≠ [])
    (stepped : step state data = some (later, rest)) (shorter : rest.length < data.length) :
    readAll step state data = readAll step later rest := by
  cases data with
  | nil => exact absurd rfl nonempty
  | cons byte others =>
    have short : rest.length ≤ others.length := Nat.le_of_lt_succ shorter
    unfold readAll
    rw [List.length_cons, turns, stepped, Option.bind_some, if_pos short]
    exact turns_eq short (Nat.le_refl _)

/-- A loop that ends well took a first turn, and ends well from there. -/
theorem step_of_readAll {state final : S} {data : List UInt8} (nonempty : data ≠ [])
    (read : readAll step state data = some final) :
    ∃ later rest, step state data = some (later, rest) ∧ rest.length < data.length ∧
      readAll step later rest = some final := by
  cases data with
  | nil => exact absurd rfl nonempty
  | cons byte others =>
    unfold readAll at read
    rw [List.length_cons, turns] at read
    rcases Option.bind_eq_some_iff.mp read with ⟨⟨later, rest⟩, stepped, goesOn⟩
    by_cases short : rest.length ≤ others.length
    · rw [if_pos short] at goesOn
      refine ⟨later, rest, stepped, Nat.lt_succ_of_le short, ?_⟩
      unfold readAll
      rw [← goesOn]
      exact turns_eq (Nat.le_refl _) short
    · rw [if_neg short] at goesOn
      cases goesOn

/-! ## Numbers -/

/-- The bytes of a number in at most `room` groups, the last of which may hold no more than `last` where it is the
last there is room for. -/
inductive IsVarint (last : Nat) : Nat -> List UInt8 -> Nat -> Prop
  | final {room : Nat} {byte : UInt8} (ends : byte.toNat < 128) (fits : room = 0 -> byte.toNat ≤ last) :
      IsVarint last (room + 1) [byte] byte.toNat
  | more {room : Nat} {byte : UInt8} {bytes : List UInt8} {value : Nat} (goesOn : 128 ≤ byte.toNat)
      (later : IsVarint last room bytes value) :
      IsVarint last (room + 1) (byte :: bytes) (byte.toNat % 128 + 128 * value)

theorem IsVarint.nonempty {last room value : Nat} {bytes : List UInt8} (number : IsVarint last room bytes value) :
    bytes ≠ [] := by
  cases number <;> exact List.cons_ne_nil _ _

/-- A tag or a length has 32 bits. -/
abbrev IsVarint32 := IsVarint 15 5

/-- A value has 64 bits. -/
abbrev IsVarint64 := IsVarint 1 10

structure IsTag (field wireType : Nat) (bytes : List UInt8) : Prop where
  names : field ≠ 0
  narrow : wireType < 8
  number : IsVarint32 bytes (field * 8 + wireType)

/-! ## Fields -/

/-- The bytes of a value that is no group, with what it holds where it is delimited by a length. -/
inductive IsValue : Nat -> Option (List UInt8) -> List UInt8 -> Prop
  | varint {bytes : List UInt8} {value : Nat} (number : IsVarint64 bytes value) : IsValue 0 none bytes
  | fixed64 {bytes : List UInt8} (width : bytes.length = 8) : IsValue 1 none bytes
  | delimited {bytes payload : List UInt8} (length : IsVarint32 bytes payload.length) :
      IsValue 2 (some payload) (bytes ++ payload)
  | fixed32 {bytes : List UInt8} (width : bytes.length = 4) : IsValue 5 none bytes

/-- The bytes are a message with these fields outside of any group. -/
inductive Spells : List (Nat × Option (List UInt8)) -> List UInt8 -> Prop
  | nil : Spells [] []
  | value {field wireType : Nat} {payload : Option (List UInt8)} {tag bytes rest : List UInt8}
      {fields : List (Nat × Option (List UInt8))} (tagged : IsTag field wireType tag)
      (value : IsValue wireType payload bytes) (later : Spells fields rest) :
      Spells ((field, payload) :: fields) (tag ++ (bytes ++ rest))
  | group {field : Nat} {opening inner closing rest : List UInt8} {inside fields : List (Nat × Option (List UInt8))}
      (opens : IsTag field 3 opening) (holds : Spells inside inner) (closes : IsTag field 4 closing)
      (later : Spells fields rest) :
      Spells ((field, none) :: fields) (opening ++ (inner ++ (closing ++ rest)))

def IsMessage (bytes : List UInt8) : Prop :=
  ∃ fields, Spells fields bytes

theorem length_lt_of_tag {field wireType : Nat} {tag : List UInt8} (tagged : IsTag field wireType tag)
    (rest : List UInt8) : rest.length < (tag ++ rest).length := by
  have nonempty := List.length_pos_iff.mpr tagged.number.nonempty
  rw [List.length_append]
  omega

theorem nonempty_of_tag {field wireType : Nat} {tag : List UInt8} (tagged : IsTag field wireType tag)
    (rest : List UInt8) : tag ++ rest ≠ [] :=
  List.append_ne_nil_of_left_ne_nil tagged.number.nonempty rest

/-! ## Field by field -/

/-- The bytes of one field, a group with all it holds. -/
inductive IsField : Nat -> Option (List UInt8) -> List UInt8 -> Prop
  | value {field wireType : Nat} {payload : Option (List UInt8)} {tag bytes : List UInt8}
      (tagged : IsTag field wireType tag) (value : IsValue wireType payload bytes) :
      IsField field payload (tag ++ bytes)
  | group {field : Nat} {opening inner closing : List UInt8} {inside : List (Nat × Option (List UInt8))}
      (opens : IsTag field 3 opening) (holds : Spells inside inner) (closes : IsTag field 4 closing) :
      IsField field none (opening ++ (inner ++ closing))

theorem IsField.nonempty {field : Nat} {payload : Option (List UInt8)} {bytes : List UInt8}
    (spelled : IsField field payload bytes) : bytes ≠ [] := by
  cases spelled with
  | value tagged _ => exact nonempty_of_tag tagged _
  | group opens _ _ => exact nonempty_of_tag opens _

theorem readAll_of_field {field : Nat} {payload : Option (List UInt8)} {bytes rest : List UInt8} {state later : S}
    (spelled : IsField field payload bytes) (stepped : step state (bytes ++ rest) = some (later, rest)) :
    readAll step state (bytes ++ rest) = readAll step later rest := by
  refine readAll_of_step (List.append_ne_nil_of_left_ne_nil spelled.nonempty rest) stepped ?_
  have positive := List.length_pos_iff.mpr spelled.nonempty
  rw [List.length_append]
  omega

/-- A loop that takes a field in every turn and keeps its invariant goes through a message and keeps it. -/
theorem readAll_of_fields (step : S -> List UInt8 -> Option (S × List UInt8)) (Holds : S -> Prop)
    {fields : List (Nat × Option (List UInt8))} {data : List UInt8} (spelled : Spells fields data)
    (takes : ∀ (field : Nat) (payload : Option (List UInt8)) (bytes rest : List UInt8) (state : S),
      (field, payload) ∈ fields -> IsField field payload bytes -> Holds state ->
        ∃ later, step state (bytes ++ rest) = some (later, rest) ∧ Holds later)
    {state : S} (holds : Holds state) : ∃ final, readAll step state data = some final ∧ Holds final := by
  induction spelled generalizing state with
  | nil => exact ⟨state, rfl, holds⟩
  | @value field wireType payload tag bytes rest fields tagged value _ ih =>
    have first := IsField.value tagged value
    rcases takes field payload _ rest state List.mem_cons_self first holds with ⟨later, stepped, keeps⟩
    rw [← List.append_assoc, readAll_of_field first stepped]
    refine ih (fun field payload bytes rest state member => ?_) keeps
    exact takes field payload bytes rest state (List.mem_cons_of_mem _ member)
  | @group field opening inner closing rest inside fields opens holdsInside closes _ _ laterHypothesis =>
    have first := IsField.group opens holdsInside closes
    rcases takes field none _ rest state List.mem_cons_self first holds with ⟨later, stepped, keeps⟩
    have same : opening ++ (inner ++ (closing ++ rest)) = opening ++ (inner ++ closing) ++ rest := by
      simp only [List.append_assoc]
    rw [same, readAll_of_field first stepped]
    refine laterHypothesis (fun field payload bytes rest state member => ?_) keeps
    exact takes field payload bytes rest state (List.mem_cons_of_mem _ member)

end Wire
end Library
end AgUi
