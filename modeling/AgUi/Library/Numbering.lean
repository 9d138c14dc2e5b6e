import AgUi.Library.OrderedMap

namespace AgUi
namespace Library

/-!
# Numbers that are given once

Keys draw numbers, and the keys of one group draw different ones.  A key that
has a number keeps it.  A key without one draws the number after the largest
of its group, whether or not the keys holding the others are still in use, so
a number never changes hands.
-/

variable {K G : Type} [DecidableEq K] [DecidableEq G]

/-- The numbers given so far, the keys of each group, and the keys in use. -/
structure Numbering (groupOf : K -> G) where
  numbers : OrderedMap K Nat := .empty
  groups : OrderedMap G (OrderedSet K) := .empty
  live : OrderedSet K := .empty
  grouped : ∀ group key, ((groups.get? group).getD .empty).has key = (decide (groupOf key = group) && numbers.has key)

namespace Numbering

variable {groupOf : K -> G}

def empty : Numbering groupOf where
  grouped := by
    intro group key
    rw [OrderedMap.get?_empty, Option.getD_none, OrderedMap.has_empty, OrderedMap.has_empty, Bool.and_false]

def members (numbering : Numbering groupOf) (group : G) : OrderedSet K :=
  (numbering.groups.get? group).getD .empty

variable (numbering : Numbering groupOf)

theorem has_members (group : G) (key : K) :
    (numbering.members group).has key = (decide (groupOf key = group) && numbering.numbers.has key) :=
  numbering.grouped group key

/-- Give a key a number. -/
def record (numbering : Numbering groupOf) (key : K) (number : Nat) : Numbering groupOf where
  numbers := numbering.numbers.set key number
  groups := numbering.groups.set (groupOf key) ((numbering.members (groupOf key)).add key)
  live := numbering.live
  grouped := by
    intro group other
    rw [OrderedMap.get?_set, OrderedMap.has_set]
    by_cases same : group = groupOf key
    · subst same
      rw [if_pos rfl, Option.getD_some, OrderedSet.has_add, has_members]
      by_cases equal : other = key
      · subst equal
        simp
      · simp [equal]
    · rw [if_neg same, numbering.grouped]
      by_cases equal : other = key
      · subst equal
        simp [Ne.symm same]
      · simp [equal]

def use (numbering : Numbering groupOf) (key : K) : Numbering groupOf :=
  { numbering with live := numbering.live.add key }

/-- The number after the largest of some keys, and at least a first one. -/
def following (numbers : OrderedMap K Nat) (first : Nat) (keys : List K) : Nat :=
  keys.foldl (fun next key =>
    match numbers.get? key with
    | some number => if next ≤ number then number + 1 else next
    | none => next) first

/-- The number of a key: the one it has, or the next of its group. -/
def numberFor (numbering : Numbering groupOf) (key : K) (first : Nat) : Nat × Numbering groupOf :=
  match (numbering.use key).numbers.get? key with
  | some number => (number, numbering.use key)
  | none =>
    let next := following numbering.numbers first (numbering.members (groupOf key)).keys
    (next, (numbering.use key).record key next)

/-- The numbers of a group that no key in use has. -/
def unused (numbering : Numbering groupOf) (group : G) : List Nat :=
  ((numbering.members group).keys.filter fun key => !numbering.live.has key).filterMap numbering.numbers.get?

@[simp] theorem numbers_record (key : K) (number : Nat) :
    (numbering.record key number).numbers = numbering.numbers.set key number := rfl

@[simp] theorem live_record (key : K) (number : Nat) :
    (numbering.record key number).live = numbering.live := rfl

@[simp] theorem numbers_use (key : K) :
    (numbering.use key).numbers = numbering.numbers := rfl

@[simp] theorem has_live_use (key other : K) :
    (numbering.use key).live.has other = (decide (other = key) || numbering.live.has other) :=
  OrderedSet.has_add numbering.live key other

/-! ## The next number -/

theorem first_le_following (numbers : OrderedMap K Nat) (first : Nat) (keys : List K) :
    first ≤ following numbers first keys := by
  unfold following
  induction keys generalizing first with
  | nil => exact Nat.le_refl first
  | cons key rest ih =>
    rw [List.foldl_cons]
    apply Nat.le_trans _ (ih _)
    cases numbers.get? key with
    | none => exact Nat.le_refl first
    | some number =>
      dsimp only
      split <;> omega

theorem lt_following {numbers : OrderedMap K Nat} {keys : List K} {key : K} {number : Nat} (member : key ∈ keys)
    (numbered : numbers.get? key = some number) (first : Nat) : number < following numbers first keys := by
  unfold following
  induction keys generalizing first with
  | nil => cases member
  | cons head rest ih =>
    rw [List.foldl_cons]
    rcases List.mem_cons.mp member with same | later
    · subst same
      rw [numbered]
      dsimp only
      apply Nat.lt_of_lt_of_le _ (first_le_following numbers _ rest)
      split <;> omega
    · exact ih later _

/-! ## What a draw does -/

/-- No two keys of a group have one number. -/
def Apart (numbering : Numbering groupOf) : Prop :=
  ∀ left right number, groupOf left = groupOf right -> numbering.numbers.get? left = some number ->
    numbering.numbers.get? right = some number -> left = right

/-- Every key keeps its number, and stays in use; a key that is new is in use; numbers stay apart. -/
structure Grows (before after : Numbering groupOf) : Prop where
  keeps : ∀ key number, before.numbers.get? key = some number -> after.numbers.get? key = some number
  uses : ∀ key, before.live.has key = true -> after.live.has key = true
  drawn : ∀ key, after.numbers.has key = true -> before.numbers.has key = true ∨ after.live.has key = true
  apart : before.Apart -> after.Apart

namespace Grows

theorem refl (numbering : Numbering groupOf) : Grows numbering numbering :=
  ⟨fun _ _ found => found, fun _ used => used, fun _ present => Or.inl present, id⟩

theorem trans {first second third : Numbering groupOf} (early : Grows first second) (late : Grows second third) :
    Grows first third where
  keeps := fun key number found => late.keeps key number (early.keeps key number found)
  uses := fun key used => late.uses key (early.uses key used)
  drawn := by
    intro key present
    rcases late.drawn key present with before | used
    · exact (early.drawn key before).imp id (late.uses key)
    · exact Or.inr used
  apart := fun apart => late.apart (early.apart apart)

end Grows

theorem numberFor_of_numbered {numbering : Numbering groupOf} {key : K} {number : Nat}
    (numbered : numbering.numbers.get? key = some number) (first : Nat) :
    numbering.numberFor key first = (number, numbering.use key) := by
  unfold numberFor
  rw [numbers_use, numbered]

theorem numberFor_of_new {numbering : Numbering groupOf} {key : K} (unnumbered : numbering.numbers.get? key = none)
    (first : Nat) :
    numbering.numberFor key first =
      (following numbering.numbers first (numbering.members (groupOf key)).keys,
        (numbering.use key).record key (following numbering.numbers first (numbering.members (groupOf key)).keys)) := by
  unfold numberFor
  rw [numbers_use, unnumbered]

/-- The number drawn is larger than every number of the group. -/
theorem lt_next {numbering : Numbering groupOf} {key other : K} {number : Nat} (same : groupOf other = groupOf key)
    (numbered : numbering.numbers.get? other = some number) (first : Nat) :
    number < following numbering.numbers first (numbering.members (groupOf key)).keys := by
  apply lt_following _ numbered
  rw [OrderedMap.mem_keys_iff, has_members, decide_eq_true same, Bool.true_and, OrderedMap.has_eq_true_iff]
  exact ⟨number, numbered⟩

theorem apart_record {numbering : Numbering groupOf} {key : K} {next : Nat} (apart : numbering.Apart)
    (fresh : ∀ other number, groupOf other = groupOf key -> numbering.numbers.get? other = some number ->
      number < next) :
    (numbering.record key next).Apart := by
  intro left right number same leftNumber rightNumber
  rw [numbers_record, OrderedMap.get?_set] at leftNumber rightNumber
  by_cases leftNew : left = key
  · by_cases rightNew : right = key
    · rw [leftNew, rightNew]
    · rw [if_pos leftNew] at leftNumber
      rw [if_neg rightNew] at rightNumber
      have least := fresh right number (by rw [← same, leftNew]) rightNumber
      cases leftNumber
      exact absurd least (Nat.lt_irrefl _)
  · rw [if_neg leftNew] at leftNumber
    by_cases rightNew : right = key
    · rw [if_pos rightNew] at rightNumber
      have least := fresh left number (by rw [same, rightNew]) leftNumber
      cases rightNumber
      exact absurd least (Nat.lt_irrefl _)
    · rw [if_neg rightNew] at rightNumber
      exact apart left right number same leftNumber rightNumber

theorem grows_use (key : K) : Grows numbering (numbering.use key) where
  keeps := fun _ _ found => found
  uses := fun other used => by rw [has_live_use, used, Bool.or_true]
  drawn := fun _ present => Or.inl present
  apart := id

/-- A draw only adds to the numbering. -/
theorem grows_numberFor (key : K) (first : Nat) :
    Grows numbering (numbering.numberFor key first).2 := by
  cases numbered : numbering.numbers.get? key with
  | some number =>
    rw [numberFor_of_numbered numbered]
    exact grows_use numbering key
  | none =>
    rw [numberFor_of_new numbered]
    apply (grows_use numbering key).trans
    refine ⟨?_, fun _ used => used, ?_, ?_⟩
    · intro other number found
      have different : other ≠ key := by
        intro same
        rw [same, numbers_use, numbered] at found
        cases found
      rw [numbers_record, OrderedMap.get?_set, if_neg different]
      exact found
    · intro other present
      rw [numbers_record, OrderedMap.has_set] at present
      by_cases same : other = key
      · right
        rw [live_record, has_live_use, decide_eq_true same, Bool.true_or]
      · left
        rw [decide_eq_false same, Bool.false_or] at present
        exact present
    · intro apart
      apply apart_record apart
      intro other number same found
      exact lt_next same found first

/-- The key drawn for has the number drawn. -/
theorem get?_numberFor (key : K) (first : Nat) :
    (numbering.numberFor key first).2.numbers.get? key = some (numbering.numberFor key first).1 := by
  cases numbered : numbering.numbers.get? key with
  | some number =>
    rw [numberFor_of_numbered numbered]
    exact numbered
  | none =>
    rw [numberFor_of_new numbered, numbers_record, OrderedMap.get?_set, if_pos rfl]

theorem has_live_numberFor (key other : K) (first : Nat) :
    (numbering.numberFor key first).2.live.has other = (decide (other = key) || numbering.live.has other) := by
  cases numbered : numbering.numbers.get? key with
  | some number =>
    rw [numberFor_of_numbered numbered]
    exact has_live_use numbering key other
  | none =>
    rw [numberFor_of_new numbered, live_record]
    exact has_live_use numbering key other

/-! ## Numbers out of use -/

/-- A list holds every number of a group whose key is out of use. -/
def Withholds (numbering : Numbering groupOf) (group : G) (numbers : List Nat) : Prop :=
  ∀ key number, groupOf key = group -> numbering.numbers.get? key = some number ->
    numbering.live.has key = false -> number ∈ numbers

theorem withholds_unused (group : G) :
    numbering.Withholds group (numbering.unused group) := by
  intro key number inGroup numbered unused
  apply List.mem_filterMap.mpr
  refine ⟨key, List.mem_filter.mpr ⟨?_, by rw [unused]; rfl⟩, numbered⟩
  rw [OrderedMap.mem_keys_iff, has_members, decide_eq_true inGroup, Bool.true_and, OrderedMap.has_eq_true_iff]
  exact ⟨number, numbered⟩

/-- Drawing puts keys to use only. -/
theorem Withholds.grows {before after : Numbering groupOf} {group : G} {numbers : List Nat}
    (withholds : before.Withholds group numbers) (grows : Grows before after) : after.Withholds group numbers := by
  intro key number inGroup numbered unused
  have wasUnused : before.live.has key = false := by
    cases used : before.live.has key with
    | false => rfl
    | true => rw [grows.uses key used] at unused; cases unused
  have present : after.numbers.has key = true := (OrderedMap.has_eq_true_iff _ _).mpr ⟨number, numbered⟩
  rcases grows.drawn key present with had | used
  · rcases (OrderedMap.has_eq_true_iff _ _).mp had with ⟨old, found⟩
    have kept := grows.keeps key old found
    rw [numbered] at kept
    cases kept
    exact withholds key number inGroup found wasUnused
  · rw [used] at unused
    cases unused

end Numbering

end Library
end AgUi
