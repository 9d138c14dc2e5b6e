import AgUi.Library.Building
import AgUi.Generator.Wire

namespace AgUi
namespace Generator

open Library Library.Building

/-!
# The slots a generation writes

A message or an enum has slots, each with a key and a number, and numbers it
reserves.  Whatever a part of the generator does, it draws numbers for the
slots it makes, and for no others; a message is pushed with the slots it made
and with every number of its group that was out of use.
-/

/-- A message or an enum: its group, the names it is spelled with, its slots, and what it reserves. -/
structure Block where
  group : Text
  names : List Text
  slots : List (Text × Nat)
  reserved : List Nat

def Block.Identified (block : Block) : Prop :=
  ∀ name ∈ block.names, Identifier name

/-- The slots of the fields, with their numbers. -/
def fieldSlots (scope : Text) (fields : List WireField) : List (Text × Nat) :=
  fields.map fun field => (slot scope field.name, field.number)

def valueSlots (scope : Text) (values : List EnumValue) : List (Text × Nat) :=
  values.map fun value => (slot scope value.name, value.number)

def oneofNames : Option WireOneof -> List Text
  | none => []
  | some oneof => oneof.entries.map WireField.name

def oneofSlots (scope : Text) : Option WireOneof -> List (Text × Nat)
  | none => []
  | some oneof => fieldSlots (slot scope oneof.name.text) oneof.entries

/-- The block of a message at a path. -/
def MessageBody.block (path : Text) (outer : List Text) (body : MessageBody) : Block where
  group := path
  names := outer ++ (body.name :: (body.fields.map WireField.name ++ oneofNames body.oneof))
  slots := fieldSlots path body.fields ++ oneofSlots path body.oneof
  reserved := body.reserved

/-- A message and the messages nested in it. -/
def WireMessage.blocks (message : WireMessage) : List Block :=
  message.toMessageBody.block message.name [] ::
    message.nested.map fun nested => nested.block (slot message.name nested.name) [message.name]

def WireEnum.block (wireEnum : WireEnum) : Block where
  group := wireEnum.name
  names := wireEnum.name :: wireEnum.values.map EnumValue.name
  slots := valueSlots wireEnum.name wireEnum.values
  reserved := wireEnum.reserved

/-- Every message and enumeration, nested ones included. -/
def blocksOf (enums : List WireEnum) (messages : List WireMessage) : List Block :=
  enums.map WireEnum.block ++ messages.flatMap WireMessage.blocks

def Wiring.blocks (wiring : Wiring) : List Block :=
  blocksOf wiring.enums wiring.messages

/-! ## Blocks and the freeze -/

/-- A block says of its slots and of its group what the freeze says. -/
structure Sound (freeze : WireFreeze) (block : Block) : Prop where
  numbered : ∀ entry ∈ block.slots, freeze.numbers.get? entry.1 = some entry.2
  withheld : freeze.Withholds block.group block.reserved
  shaped : block.Identified -> ∀ entry ∈ block.slots,
    groupOf entry.1 = block.group ∧ Readable entry.1

theorem Sound.grows {before after : WireFreeze} {block : Block} (sound : Sound before block)
    (grows : Numbering.Grows before after) : Sound after block where
  numbered := fun entry member => grows.keeps _ _ (sound.numbered entry member)
  withheld := sound.withheld.grows grows
  shaped := sound.shaped

/--
What a part of the generator does: it draws, and the keys it puts to use are
those of the slots it hands on and of the blocks it pushes.
-/
structure Draws (before after : Wiring) (handed : List (Text × Nat)) : Prop where
  grows : Numbering.Grows before.freeze after.freeze
  numbered : ∀ entry ∈ handed, after.freeze.numbers.get? entry.1 = some entry.2
  used : ∀ key, after.freeze.live.has key = true ->
    before.freeze.live.has key = true ∨ key ∈ handed.map Prod.fst ∨
      ∃ block ∈ after.blocks, key ∈ block.slots.map Prod.fst
  kept : ∀ block ∈ before.blocks, block ∈ after.blocks
  sound : ∀ block ∈ after.blocks, block ∈ before.blocks ∨ Sound after.freeze block

namespace Draws

theorem refl (wiring : Wiring) : Draws wiring wiring [] where
  grows := .refl wiring.freeze
  numbered := fun _ member => nomatch member
  used := fun _ used => Or.inl used
  kept := fun _ member => member
  sound := fun _ member => Or.inl member

theorem append {first second third : Wiring} {early late : List (Text × Nat)} (one : Draws first second early)
    (other : Draws second third late) : Draws first third (early ++ late) where
  grows := one.grows.trans other.grows
  numbered := by
    intro entry member
    rcases List.mem_append.mp member with inEarly | inLate
    · exact other.grows.keeps _ _ (one.numbered entry inEarly)
    · exact other.numbered entry inLate
  used := by
    intro key used
    rw [List.map_append]
    rcases other.used key used with before | inLate | inBlock
    · rcases one.used key before with older | inEarly | ⟨block, member, listed⟩
      · exact Or.inl older
      · exact Or.inr (Or.inl (List.mem_append_left _ inEarly))
      · exact Or.inr (Or.inr ⟨block, other.kept block member, listed⟩)
    · exact Or.inr (Or.inl (List.mem_append_right _ inLate))
    · exact Or.inr (Or.inr inBlock)
  kept := fun block member => other.kept block (one.kept block member)
  sound := by
    intro block member
    rcases other.sound block member with before | sound
    · exact (one.sound block before).imp id fun sound => sound.grows other.grows
    · exact Or.inr sound

/-- A part that hands nothing on leaves what the next part hands on. -/
theorem after {first second third : Wiring} {late : List (Text × Nat)} (one : Draws first second [])
    (other : Draws second third late) : Draws first third late :=
  one.append other

/-- The slots handed on may be listed otherwise. -/
theorem congr {before after : Wiring} {handed listed : List (Text × Nat)} (draws : Draws before after handed)
    (same : ∀ entry, entry ∈ listed ↔ entry ∈ handed) : Draws before after listed where
  grows := draws.grows
  numbered := fun entry member => draws.numbered entry ((same entry).mp member)
  used := by
    intro key used
    rcases draws.used key used with older | inHanded | inBlock
    · exact Or.inl older
    · rcases List.mem_map.mp inHanded with ⟨entry, member, equal⟩
      exact Or.inr (Or.inl (List.mem_map.mpr ⟨entry, (same entry).mpr member, equal⟩))
    · exact Or.inr (Or.inr inBlock)
  kept := draws.kept
  sound := draws.sound

theorem then_silent {first second third : Wiring} {handed : List (Text × Nat)} (one : Draws first second handed)
    (other : Draws second third []) : Draws first third handed := by
  have both := one.append other
  rwa [List.append_nil] at both

/-- Blocks are pushed that carry the slots at hand, but for those that stay at hand. -/
theorem push {first second third : Wiring} {handed left : List (Text × Nat)} {blocks : List Block}
    (draws : Draws first second handed) (sameFreeze : third.freeze = second.freeze)
    (pushed : ∀ block, block ∈ third.blocks ↔ block ∈ second.blocks ∨ block ∈ blocks)
    (stays : ∀ entry ∈ left, entry ∈ handed)
    (carried : ∀ entry ∈ handed,
      entry ∈ left ∨ ∃ block ∈ blocks, entry ∈ block.slots)
    (sound : ∀ block ∈ blocks, Sound second.freeze block) : Draws first third left where
  grows := by
    rw [sameFreeze]
    exact draws.grows
  numbered := by
    intro entry member
    rw [sameFreeze]
    exact draws.numbered entry (stays entry member)
  used := by
    intro key used
    rw [sameFreeze] at used
    rcases draws.used key used with older | inHanded | ⟨block, member, listed⟩
    · exact Or.inl older
    · rcases List.mem_map.mp inHanded with ⟨entry, member, rfl⟩
      rcases carried entry member with inLeft | ⟨block, new, listed⟩
      · exact Or.inr (Or.inl (List.mem_map.mpr ⟨entry, inLeft, rfl⟩))
      · exact Or.inr (Or.inr ⟨block, (pushed block).mpr (Or.inr new), List.mem_map.mpr ⟨entry, listed, rfl⟩⟩)
    · exact Or.inr (Or.inr ⟨block, (pushed block).mpr (Or.inl member), listed⟩)
  kept := fun block member => (pushed block).mpr (Or.inl (draws.kept block member))
  sound := by
    intro block member
    rw [sameFreeze]
    rcases (pushed block).mp member with older | new
    · exact draws.sound block older
    · exact Or.inr (sound block new)

end Draws

/-! ## Steps -/

theorem draws_numberFor {key : Text} {kind : SlotKind} {before : Wiring} {result : Nat × Wiring}
    (done : numberFor key kind before = .ok result) : Draws before result.2 [(key, result.1)] := by
  cases done
  refine ⟨Numbering.grows_numberFor _ _ _, ?_, ?_, fun _ member => member, fun _ member => Or.inl member⟩
  · intro entry member
    rw [List.mem_singleton.mp member]
    exact Numbering.get?_numberFor _ _ _
  · intro other used
    have drawn := Numbering.has_live_numberFor before.freeze key other kind.first
    rw [drawn, Bool.or_eq_true, decide_eq_true_eq] at used
    rcases used with same | older
    · rw [same]
      exact Or.inr (Or.inl List.mem_cons_self)
    · exact Or.inl older

theorem reservedIn_ok {group : Text} {before : Wiring} {result : List Nat × Wiring}
    (done : reservedIn group before = .ok result) :
    result.2 = before ∧ before.freeze.Withholds group result.1 := by
  cases done
  refine ⟨rfl, ?_⟩
  intro key number inGroup numbered unused
  rw [List.mem_insertionSort]
  exact Numbering.withholds_unused before.freeze group key number inGroup numbered unused

theorem draws_addEmitted {name : Text} {before : Wiring} {result : Unit × Wiring}
    (done : addEmitted name before = .ok result) : Draws before result.2 [] := by
  cases done
  exact ⟨.refl _, fun _ member => absurd member List.not_mem_nil, fun _ used => Or.inl used, fun _ member => member,
    fun _ member => Or.inl member⟩

theorem draws_addDissolved {name : Text} {before : Wiring} {result : Unit × Wiring}
    (done : addDissolved name before = .ok result) : Draws before result.2 [] := by
  cases done
  exact ⟨.refl _, fun _ member => absurd member List.not_mem_nil, fun _ used => Or.inl used, fun _ member => member,
    fun _ member => Or.inl member⟩

theorem refuse_ne_ok {A : Type} {parts : List Text} {value : A} : refuse parts ≠ .ok value := by
  intro done
  cases done

theorem lift_refuse_ne_ok {A : Type} {parts : List Text} {before : Wiring} {result : A × Wiring} :
    (liftM (refuse parts : Except GenerateError A) : Build A) before ≠ .ok result := by
  intro done
  cases done

/-- A message is pushed whose blocks carry the slots at hand. -/
theorem draws_pushMessage {first second : Wiring} {message : WireMessage} {handed : List (Text × Nat)}
    {result : Unit × Wiring} (draws : Draws first second handed)
    (carried : ∀ entry ∈ handed, ∃ block ∈ message.blocks, entry ∈ block.slots)
    (sound : ∀ block ∈ message.blocks, Sound second.freeze block)
    (done : pushMessage message second = .ok result) : Draws first result.2 [] := by
  cases done
  refine draws.push ?_ ?_ (fun _ member => absurd member List.not_mem_nil)
    (fun entry member => Or.inr (carried entry member)) sound
  · rfl
  intro block
  simp only [Wiring.blocks, blocksOf, List.flatMap_append, List.flatMap_singleton, List.mem_append, or_assoc]

/-- An enum is pushed whose values are at hand. -/
theorem draws_pushEnum {first second : Wiring} {wireEnum : WireEnum} {left : List (Text × Nat)}
    {result : Unit × Wiring} (draws : Draws first second (wireEnum.block.slots ++ left))
    (sound : Sound second.freeze wireEnum.block) (done : pushEnum wireEnum second = .ok result) :
    Draws first result.2 left := by
  cases done
  have blocks : ∀ block ∈ [wireEnum.block], Sound second.freeze block := by
    intro block member
    rw [List.mem_singleton.mp member]
    exact sound
  have carried : ∀ entry ∈ wireEnum.block.slots ++ left,
      entry ∈ left ∨ ∃ block ∈ [wireEnum.block], entry ∈ block.slots := by
    intro entry member
    rcases List.mem_append.mp member with inEnum | inLeft
    · exact Or.inr ⟨_, List.mem_singleton_self _, inEnum⟩
    · exact Or.inl inLeft
  refine draws.push ?_ ?_ (fun _ member => List.mem_append_right _ member) carried blocks
  · rfl
  intro block
  simp only [Wiring.blocks, blocksOf, List.map_append, List.map_cons, List.map_nil, List.mem_append,
    List.mem_singleton]
  tauto

end Generator
end AgUi
