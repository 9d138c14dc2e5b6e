import AgUi.Protocol.Values

namespace AgUi
namespace Protocol

open Library

/-!
# Positions in a value

A position is the way to a place in a value, key by key and index by index.
A value without some of its positions keeps everything else as it was; its
arrays close up, so that a place may have another position in what is left.
-/

inductive Step where
  | key (name : String)
  | index (place : Nat)
deriving DecidableEq

abbrev Position := List Step

namespace Json

/-- A value that holds no others. -/
def isLeaf : Json -> Bool
  | array _ => false
  | object _ => false
  | _ => true

/-- What holds of a value if it holds of the values inside it. -/
@[elab_as_elim] theorem induction {P : Json -> Prop} (leaf : ∀ value, value.isLeaf = true -> P value)
    (array : ∀ items, (∀ item ∈ items, P item) -> P (.array items))
    (object : ∀ members, (∀ member ∈ members, P member.2) -> P (.object members))
    (value : Json) : P value := by
  refine @Json.rec P (fun items => ∀ item ∈ items, P item)
    (fun members => ∀ member ∈ members, P member.2) (fun member => P member.2)
    ?null ?bool ?number ?string array object ?noItem ?item ?noMember ?member ?pair value
  case null => exact leaf _ rfl
  case bool => exact fun _ => leaf _ rfl
  case number => exact fun _ => leaf _ rfl
  case string => exact fun _ => leaf _ rfl
  case noItem => exact fun _ impossible => absurd impossible List.not_mem_nil
  case item => exact fun _ _ head tail => List.forall_mem_cons.mpr ⟨head, tail⟩
  case noMember => exact fun _ impossible => absurd impossible List.not_mem_nil
  case member => exact fun _ _ head tail => List.forall_mem_cons.mpr ⟨head, tail⟩
  case pair => exact fun _ _ held => held

/-- The value at a position. -/
def at? (value : Json) : Position -> Option Json
  | [] => some value
  | .key name :: rest => (value.member? name).bind fun child => child.at? rest
  | .index place :: rest =>
    match value with
    | array items => items[place]?.bind fun child => child.at? rest
    | _ => none

/-! ## Removing positions -/

/-- The positions that are left to go beyond a step. -/
def beyond (removed : Position -> Bool) (step : Step) : Position -> Bool :=
  fun position => removed (step :: position)

mutual

/-- The value without the positions that are removed. -/
def without (removed : Position -> Bool) : Json -> Json
  | array items => array (withoutItems removed 0 items)
  | object members => object (withoutMembers removed members)
  | value => value

def withoutItems (removed : Position -> Bool) (index : Nat) : List Json -> List Json
  | [] => []
  | item :: rest =>
    if removed [.index index] then withoutItems removed (index + 1) rest
    else without (beyond removed (.index index)) item :: withoutItems removed (index + 1) rest

def withoutMembers (removed : Position -> Bool) : List (String × Json) -> List (String × Json)
  | [] => []
  | (key, value) :: rest =>
    if removed [.key key] then withoutMembers removed rest
    else (key, without (beyond removed (.key key)) value) :: withoutMembers removed rest

end

/-- What a step becomes when its array closes up. -/
def closeUp (removed : Position -> Bool) : Step -> Step
  | .key name => .key name
  | .index place => .index ((List.range place).countP fun earlier => !removed [.index earlier])

/-- The position of the same place in what is left, if it is left. -/
def counterpart? (removed : Position -> Bool) : Position -> Option Position
  | [] => some []
  | step :: rest =>
    if removed [step] then none
    else (counterpart? (beyond removed step) rest).map fun later => closeUp removed step :: later

section

variable {removed : Position -> Bool}

theorem without_of_isLeaf {value : Json} (leaf : value.isLeaf = true) : value.without removed = value := by
  cases value with
  | array items => cases leaf
  | object members => cases leaf
  | _ => rfl

variable (members : List (String × Json))

theorem lookup_withoutMembers {name : String} (kept : removed [.key name] = false) :
    (withoutMembers removed members).lookup name =
      (members.lookup name).map (without (beyond removed (.key name))) := by
  induction members with
  | nil => rfl
  | cons member rest ih =>
    rcases member with ⟨key, value⟩
    rw [withoutMembers, OrderedMap.lookup_cons_ite]
    by_cases own : name = key
    · subst own
      rw [if_pos rfl, kept, if_neg Bool.false_ne_true, OrderedMap.lookup_cons_ite, if_pos rfl]
      rfl
    · rw [if_neg own, ← ih]
      split
      · rfl
      · rw [OrderedMap.lookup_cons_ite, if_neg own]

/-- A kept item stands behind as many as are kept before it. -/
theorem getElem?_withoutItems (items : List Json) (index : Nat) {place : Nat}
    (kept : removed [.index (index + place)] = false) :
    (withoutItems removed index items)[(List.range place).countP fun earlier => !removed [.index (index + earlier)]]? =
      items[place]?.map (without (beyond removed (.index (index + place)))) := by
  induction items generalizing index place with
  | nil => rfl
  | cons item rest ih =>
    rw [withoutItems]
    cases place with
    | zero =>
      rw [Nat.add_zero] at kept
      rw [Nat.add_zero, kept, if_neg Bool.false_ne_true]
      rfl
    | succ place =>
      have next : index + (place + 1) = index + 1 + place := by omega
      rw [next] at kept
      have later := ih (index + 1) kept
      have shifted : (fun earlier => !removed [.index (index + (earlier + 1))]) =
          fun earlier => !removed [.index (index + 1 + earlier)] := by
        funext earlier
        rw [Nat.add_assoc, Nat.add_comm 1]
      rw [List.range_succ_eq_map, List.countP_cons, List.countP_map, next, List.getElem?_cons_succ, ← later]
      change (if removed [.index index] = true then _ else _)[(List.range place).countP
        (fun earlier => !removed [.index (index + (earlier + 1))]) + _]? = _
      rw [shifted, Nat.add_zero]
      cases removed [.index index] with
      | true => rfl
      | false => rfl

theorem withoutMembers_congr {others : Position -> Bool} {members : List (String × Json)}
    (same : ∀ key ∈ members.map Prod.fst, ∀ rest,
      removed (.key key :: rest) = others (.key key :: rest)) :
    withoutMembers removed members = withoutMembers others members := by
  induction members with
  | nil => rfl
  | cons member rest ih =>
    rcases member with ⟨key, value⟩
    have below : beyond removed (.key key) = beyond others (.key key) := by
      funext position
      exact same key List.mem_cons_self position
    rw [withoutMembers, withoutMembers, same key List.mem_cons_self, below,
      ih (List.forall_mem_cons.mp same).2]

theorem withoutItems_congr {others : Position -> Bool} {items : List Json} {index : Nat}
    (same : ∀ place, index ≤ place -> ∀ rest, removed (.index place :: rest) = others (.index place :: rest)) :
    withoutItems removed index items = withoutItems others index items := by
  induction items generalizing index with
  | nil => rfl
  | cons item rest ih =>
    have below : beyond removed (.index index) = beyond others (.index index) := by
      funext position
      exact same index (Nat.le_refl _) position
    rw [withoutItems, withoutItems, same index (Nat.le_refl _), below,
      ih fun place later => same place (Nat.le_of_succ_le later)]

theorem without_nothing (value : Json) : value.without (fun _ => false) = value := by
  induction value using induction with
  | leaf value leaf => exact without_of_isLeaf leaf
  | array items each =>
    rw [without]
    congr 1
    generalize 0 = index
    induction items generalizing index with
    | nil => rfl
    | cons item rest ih =>
      rw [withoutItems, if_neg Bool.false_ne_true, ih (List.forall_mem_cons.mp each).2]
      congr 1
      exact each item List.mem_cons_self
  | object members each =>
    rw [without]
    congr 1
    induction members with
    | nil => rfl
    | cons member rest ih =>
      rw [withoutMembers, if_neg Bool.false_ne_true, ih (List.forall_mem_cons.mp each).2]
      congr 1
      exact congrArg (Prod.mk _) (each member List.mem_cons_self)

theorem lookup_withoutMembers_of_removed {name : String}
    (gone : removed [.key name] = true) : (withoutMembers removed members).lookup name = none := by
  induction members with
  | nil => rfl
  | cons member rest ih =>
    rcases member with ⟨key, value⟩
    rw [withoutMembers]
    split
    · exact ih
    next kept =>
      rw [OrderedMap.lookup_cons_ite, if_neg (fun own : name = key => kept (own ▸ gone)), ih]

theorem exists_of_mem_withoutItems {items : List Json} {index : Nat} {left : Json}
    (member : left ∈ withoutItems removed index items) :
    ∃ item ∈ items, ∃ below, left = item.without below := by
  induction items generalizing index with
  | nil => cases member
  | cons item rest ih =>
    rw [withoutItems] at member
    split at member
    · rcases ih member with ⟨source, listed, same⟩
      exact ⟨source, List.mem_cons_of_mem _ listed, same⟩
    · rcases List.mem_cons.mp member with own | later
      · exact ⟨item, List.mem_cons_self, _, own⟩
      · rcases ih later with ⟨source, listed, same⟩
        exact ⟨source, List.mem_cons_of_mem _ listed, same⟩

theorem exists_of_mem_withoutMembers {members : List (String × Json)} {left : String × Json}
    (member : left ∈ withoutMembers removed members) :
    ∃ source ∈ members, ∃ below, left.2 = source.2.without below := by
  induction members with
  | nil => cases member
  | cons first rest ih =>
    rcases first with ⟨key, value⟩
    rw [withoutMembers] at member
    split at member
    · rcases ih member with ⟨source, listed, same⟩
      exact ⟨source, List.mem_cons_of_mem _ listed, same⟩
    · rcases List.mem_cons.mp member with own | later
      · exact ⟨(key, value), List.mem_cons_self, _, congrArg Prod.snd own⟩
      · rcases ih later with ⟨source, listed, same⟩
        exact ⟨source, List.mem_cons_of_mem _ listed, same⟩

theorem keys_withoutMembers_sublist :
    ((withoutMembers removed members).map Prod.fst).Sublist (members.map Prod.fst) := by
  induction members with
  | nil => exact .slnil
  | cons member rest ih =>
    rcases member with ⟨key, value⟩
    rw [withoutMembers]
    split
    · exact ih.cons key
    · exact ih.cons_cons key

/-- Where no item itself is removed, each stays in its place. -/
theorem getElem?_withoutItems_of_kept (items : List Json) (kept : ∀ place, removed [.index place] = false)
    (place : Nat) :
    (withoutItems removed 0 items)[place]? = items[place]?.map (without (beyond removed (.index place))) := by
  have moved := getElem?_withoutItems items 0 (kept (0 + place))
  have all : (List.range place).countP (fun earlier => !removed [.index (0 + earlier)]) = place := by
    rw [List.countP_eq_length.mpr fun earlier _ => ?_, List.length_range]
    rw [kept]
    rfl
  rwa [all, Nat.zero_add] at moved

/-- Where only members of the object itself are removed, the others are as they were. -/
theorem withoutMembers_of_flat
    (flat : ∀ key step rest, removed (.key key :: step :: rest) = false) :
    withoutMembers removed members = members.filter fun member => !removed [.key member.1] := by
  induction members with
  | nil => rfl
  | cons member rest ih =>
    rcases member with ⟨key, value⟩
    rw [withoutMembers]
    cases gone : removed [.key key] with
    | true =>
      rw [if_pos rfl, List.filter_cons_of_neg (by simpa using gone), ih]
    | false =>
      have nothing : beyond removed (.key key) = fun _ => false := by
        funext position
        cases position with
        | nil => exact gone
        | cons step rest => exact flat key step rest
      rw [if_neg Bool.false_ne_true, List.filter_cons_of_pos (by simpa using gone), ih, nothing,
        without_nothing]

/-- To remove more below one member is to set that member. -/
theorem setEntries_withoutMembers {more : Position -> Bool} {members : List (String × Json)} {key : String}
    {value : Json}
    (distinct : (members.map Prod.fst).Nodup) (present : members.lookup key = some value)
    (kept : more [.key key] = false) (untouched : ∀ rest, removed (.key key :: rest) = false)
    (others : ∀ other rest, other ≠ key -> removed (.key other :: rest) = more (.key other :: rest)) :
    OrderedMap.setEntries key (value.without (beyond more (.key key))) (withoutMembers removed members) =
      withoutMembers more members := by
  induction members with
  | nil => cases present
  | cons member rest ih =>
    rcases member with ⟨first, own⟩
    rw [List.map_cons, List.nodup_cons] at distinct
    rw [OrderedMap.lookup_cons_ite] at present
    by_cases same : key = first
    · subst same
      rw [if_pos rfl] at present
      cases present
      have later : withoutMembers removed rest = withoutMembers more rest := by
        apply withoutMembers_congr
        intro other member rest'
        exact others other rest' fun equal => distinct.1 (equal ▸ member)
      rw [withoutMembers, withoutMembers, kept, untouched, if_neg Bool.false_ne_true, if_neg Bool.false_ne_true,
        OrderedMap.setEntries, if_pos rfl, later]
    · rw [if_neg same] at present
      have below : beyond removed (.key first) = beyond more (.key first) := by
        funext position
        exact others first position fun equal => same equal.symm
      have tail := ih distinct.2 present
      rw [withoutMembers, withoutMembers, others first [] fun equal => same equal.symm, below]
      split
      · exact tail
      · rw [OrderedMap.setEntries, if_neg (fun equal => same equal.symm), tail]

/-- What is left at the counterpart of a position is what was there, without what is removed below. -/
theorem at?_without {position other : Position} (left : counterpart? removed position = some other) (value : Json) :
    (value.without removed).at? other =
      (value.at? position).map (without (position.foldl beyond removed)) := by
  induction position generalizing removed other value with
  | nil =>
    cases left
    rfl
  | cons step rest ih =>
    rw [counterpart?] at left
    cases gone : removed [step] with
    | true =>
      rw [gone] at left
      cases left
    | false =>
      rw [gone, if_neg Bool.false_ne_true] at left
      rcases Option.map_eq_some_iff.mp left with ⟨later, found, rfl⟩
      cases step with
      | key name =>
        cases value with
        | object members =>
          change ((withoutMembers removed members).lookup name).bind _ = Option.map _ ((members.lookup name).bind _)
          rw [lookup_withoutMembers members gone, Option.bind_map, Option.map_bind]
          apply Option.bind_congr
          intro child _
          exact ih found child
        | _ => rfl
      | index place =>
        cases value with
        | array items =>
          have item := getElem?_withoutItems items 0 ((Nat.zero_add place).symm ▸ gone)
          simp only [Nat.zero_add] at item
          change (withoutItems removed 0 items)[_]?.bind _ = Option.map _ (items[place]?.bind _)
          rw [item, Option.bind_map, Option.map_bind]
          apply Option.bind_congr
          intro child _
          exact ih found child
        | _ => rfl

/-- A leaf at a position that is left is the same leaf. -/
theorem at?_without_leaf {position other : Position} (left : counterpart? removed position = some other)
    {value leaf : Json} (place : value.at? position = some leaf) (isLeaf : leaf.isLeaf = true) :
    (value.without removed).at? other = some leaf := by
  rw [at?_without left, place, Option.map_some, without_of_isLeaf isLeaf]

/-- A position is gone if it or one above it is removed. -/
theorem counterpart?_eq_none_iff (position : Position) :
    counterpart? removed position = none ↔
      ∃ above, above ≠ [] ∧ removed above = true ∧ above <+: position := by
  induction position generalizing removed with
  | nil =>
    constructor
    · intro impossible
      cases impossible
    · rintro ⟨above, something, _, initial⟩
      exact absurd (List.prefix_nil.mp initial) something
  | cons step rest ih =>
    rw [counterpart?]
    cases gone : removed [step] with
    | true => exact iff_of_true (if_pos rfl) ⟨[step], List.cons_ne_nil _ _, gone, rest, rfl⟩
    | false =>
      rw [if_neg Bool.false_ne_true, Option.map_eq_none_iff, ih]
      constructor
      · rintro ⟨above, something, removes, initial⟩
        exact ⟨step :: above, List.cons_ne_nil _ _, removes, List.cons_prefix_cons.mpr ⟨rfl, initial⟩⟩
      · rintro ⟨above, something, removes, initial⟩
        cases above with
        | nil => exact absurd rfl something
        | cons first above =>
          rcases List.cons_prefix_cons.mp initial with ⟨rfl, later⟩
          refine ⟨above, ?_, removes, later⟩
          rintro rfl
          rw [gone] at removes
          cases removes

end

end Json

end Protocol
end AgUi
