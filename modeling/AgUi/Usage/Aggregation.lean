import Mathlib.Algebra.Ring.Int.Defs
import AgUi.Library.Attempts
import AgUi.Library.Grouping
import AgUi.Protocol.Event

namespace AgUi
namespace Usage

open Library Protocol

/-!
# Aggregation of token usage

A producer collects one entry for each call of a model and sums them into one
entry for each pair of provider and model.  The TypeScript version groups the
entries by a text it joins from the pair and adds JavaScript numbers, the Python
version groups by the pair itself, adds without bound, and then builds entries
whose counts the schema bounds.
-/

/-! ## Counts -/

inductive CountKey where
  | inputTokens
  | outputTokens
  | totalTokens
  | reasoningTokens
  | cachedInputTokens
  | cacheWriteInputTokens
deriving DecidableEq

/-- `COUNT_KEYS` -/
def countKeys : List CountKey :=
  [.inputTokens, .outputTokens, .totalTokens, .reasoningTokens, .cachedInputTokens, .cacheWriteInputTokens]

/-- `entry[field]` -/
def count (field : CountKey) (entry : TokenUsage) : Option Int :=
  match field with
  | .inputTokens => entry.inputTokens
  | .outputTokens => entry.outputTokens
  | .totalTokens => entry.totalTokens
  | .reasoningTokens => entry.reasoningTokens
  | .cachedInputTokens => entry.cachedInputTokens
  | .cacheWriteInputTokens => entry.cacheWriteInputTokens

/-- `entry[field] = value` -/
def setCount (field : CountKey) (value : Int) (entry : TokenUsage) : TokenUsage :=
  match field with
  | .inputTokens => { entry with inputTokens := some value }
  | .outputTokens => { entry with outputTokens := some value }
  | .totalTokens => { entry with totalTokens := some value }
  | .reasoningTokens => { entry with reasoningTokens := some value }
  | .cachedInputTokens => { entry with cachedInputTokens := some value }
  | .cacheWriteInputTokens => { entry with cacheWriteInputTokens := some value }

abbrev Label := Option String × Option String

def label (entry : TokenUsage) : Label :=
  (entry.provider, entry.model)

theorem count_setCount (field other : CountKey) (value : Int) (entry : TokenUsage) :
    count field (setCount other value entry) = if field = other then some value else count field entry := by
  cases field <;> cases other <;> rfl

variable (field : CountKey)

@[simp] theorem label_setCount (value : Int) (entry : TokenUsage) :
    label (setCount field value entry) = label entry := by
  cases field <;> rfl

/-- An entry is its label and its counts. -/
theorem entry_ext {one other : TokenUsage} (labels : label one = label other)
    (counts : ∀ field, count field one = count field other) : one = other := by
  cases one
  cases other
  cases labels
  cases counts .inputTokens
  cases counts .outputTokens
  cases counts .totalTokens
  cases counts .reasoningTokens
  cases counts .cachedInputTokens
  cases counts .cacheWriteInputTokens
  rfl

/-! ## Bounds -/

/-- The largest count of the schema, which is `Number.MAX_SAFE_INTEGER`. -/
def maxTokenCount : Int := 9007199254740991

/-- What the schema asks of a count: `min(0).max(9007199254740991)`, and in
Python `ge=0, le=9007199254740991`. -/
def InBounds (value : Int) : Prop :=
  0 ≤ value ∧ value ≤ maxTokenCount

instance (value : Int) : Decidable (InBounds value) :=
  inferInstanceAs (Decidable (_ ∧ _))

/-- An entry the schema admits. -/
def WellFormed (entry : TokenUsage) : Prop :=
  ∀ field, ∀ value ∈ count field entry, InBounds value

/-! ## The TypeScript version -/

/-- The number that stands for a whole number in JavaScript: the nearest one
with 53 significant bits, and of two the even one. -/
def toNumber (value : Int) : Int :=
  let unit : Int := 2 ^ (value.natAbs.log2 - 52)
  let below := value / unit
  let rest := value % unit
  if 2 * rest < unit ∨ (2 * rest = unit ∧ below % 2 = 0) then below * unit
  else (below + 1) * unit

example : toNumber 9007199254740993 = 9007199254740992 := by decide

/-- The body of the loop over `COUNT_KEYS`. -/
def addCount (entry target : TokenUsage) (field : CountKey) : TokenUsage :=
  match count field entry with
  | none => target
  | some value => setCount field (toNumber ((count field target).getD 0 + value)) target

def addCounts (target entry : TokenUsage) : TokenUsage :=
  countKeys.foldl (addCount entry) target

/-- The text an entry is grouped by. -/
def groupKey (label : Label) : String :=
  label.1.getD "" ++ " " ++ label.2.getD ""

def grouped (entries : List TokenUsage) : OrderedMap String TokenUsage :=
  group (fun entry => groupKey (label entry))
    (fun entry => { provider := entry.provider, model := entry.model }) addCounts entries

def aggregateTokenUsage (entries : List TokenUsage) : List TokenUsage :=
  (grouped entries).entries.map Prod.snd

/-! ## The Python version -/

namespace Python

abbrev Counts := OrderedMap CountKey Int

/-- The body of the loop over `_COUNT_KEYS`. -/
def addCount (entry : TokenUsage) (target : Counts) (field : CountKey) : Counts :=
  match count field entry with
  | none => target
  | some value => target.set field ((target.get? field).getD 0 + value)

def addCounts (target : Counts) (entry : TokenUsage) : Counts :=
  countKeys.foldl (addCount entry) target

def grouped (entries : List TokenUsage) : OrderedMap Label Counts :=
  group label (fun _ => OrderedMap.empty) addCounts entries

/-- `TokenUsage(provider=..., model=..., **counts)`.  The constructor checks the
bounds of every count and raises an error where one is out of them. -/
def tokenUsage (label : Label) (counts : Counts) : Option TokenUsage :=
  if ∀ field ∈ countKeys, ∀ value ∈ counts.get? field, InBounds value then
    some {
      provider := label.1
      model := label.2
      inputTokens := counts.get? .inputTokens
      outputTokens := counts.get? .outputTokens
      totalTokens := counts.get? .totalTokens
      reasoningTokens := counts.get? .reasoningTokens
      cachedInputTokens := counts.get? .cachedInputTokens
      cacheWriteInputTokens := counts.get? .cacheWriteInputTokens }
  else none

/-- An error at one of the groups is the error of the call. -/
def aggregateTokenUsage (entries : List TokenUsage) : Option (List TokenUsage) :=
  (grouped entries).entries.mapM fun group => tokenUsage group.1 group.2

end Python

/-! ## Sums of what is present -/

/-- `(target ?? 0) + value`, unless there is no value. -/
def plus (target value : Option Int) : Option Int :=
  match value with
  | none => target
  | some value => some (target.getD 0 + value)

/-- The sum of a count over the entries that carry it. -/
def total (field : CountKey) (entries : List TokenUsage) : Option Int :=
  if (entries.filterMap (count field)).isEmpty then none else some (entries.filterMap (count field)).sum

@[simp] theorem plus_none (target : Option Int) : plus target none = target := rfl

theorem none_plus (value : Option Int) : plus none value = value := by
  cases value with
  | none => rfl
  | some value => exact congrArg some (Int.zero_add value)

@[simp] theorem getD_plus (target value : Option Int) :
    (plus target value).getD 0 = target.getD 0 + value.getD 0 := by
  cases value with
  | none => exact (Int.add_zero _).symm
  | some value => rfl

theorem plus_assoc (first second third : Option Int) :
    plus (plus first second) third = plus first (plus second third) := by
  cases third with
  | none => rfl
  | some last =>
    cases second with
    | none => simp [plus]
    | some middle => simp [plus, Int.add_assoc]

theorem plus_comm (first second : Option Int) : plus first second = plus second first := by
  cases first <;> cases second <;> simp [plus, Int.add_comm]

@[simp] theorem total_nil : total field [] = none := rfl

theorem total_cons (entry : TokenUsage) (rest : List TokenUsage) :
    total field (entry :: rest) = plus (count field entry) (total field rest) := by
  unfold total
  cases carried : count field entry with
  | none => rw [List.filterMap_cons_none carried, none_plus]
  | some value =>
    rw [List.filterMap_cons_some carried]
    cases List.filterMap (count field) rest with
    | nil | cons other more => simp [plus]

theorem total_singleton (entry : TokenUsage) : total field [entry] = count field entry := by
  rw [total_cons, total_nil, plus_none]

theorem total_append (early late : List TokenUsage) :
    total field (early ++ late) = plus (total field early) (total field late) := by
  induction early with
  | nil => exact (none_plus _).symm
  | cons entry rest ih =>
    rw [List.cons_append, total_cons, total_cons, ih, plus_assoc]

/-- Of admitted entries no count adds up to less than nothing. -/
theorem total_nonneg {entries : List TokenUsage} (wellFormed : ∀ entry ∈ entries, WellFormed entry) :
    0 ≤ (total field entries).getD 0 := by
  induction entries with
  | nil => exact Int.le_refl 0
  | cons entry rest ih =>
    rw [List.forall_mem_cons] at wellFormed
    rw [total_cons, getD_plus]
    apply Int.add_nonneg ?_ (ih wellFormed.2)
    cases carried : count field entry with
    | none => exact Int.le_refl 0
    | some value => exact (wellFormed.1 field value carried).1

theorem total_perm {entries other : List TokenUsage} (perm : entries.Perm other) :
    total field entries = total field other := by
  induction perm with
  | nil => rfl
  | cons entry _ ih => rw [total_cons, total_cons, ih]
  | swap first second rest =>
    rw [total_cons, total_cons, total_cons, total_cons, ← plus_assoc, ← plus_assoc,
      plus_comm (count field second)]
  | trans _ _ first second => exact first.trans second

/-! ## Sums of numbers -/

/-- Up to the largest safe integer a number is the whole number it stands for. -/
theorem toNumber_eq {value : Int} (within : InBounds value) : toNumber value = value := by
  have size : value.natAbs < 2 ^ 53 := by
    have lower := within.1
    have upper := within.2
    unfold maxTokenCount at upper
    omega
  have bits : value.natAbs.log2 - 52 = 0 := by
    by_cases zero : value.natAbs = 0
    · rw [zero]
      rfl
    · have short := (Nat.log2_lt zero).mpr size
      omega
  unfold toNumber
  rw [bits]
  simp

/-- What the loop makes of one count. -/
def added (target value : Option Int) : Option Int :=
  match value with
  | none => target
  | some value => some (toNumber (target.getD 0 + value))

theorem added_eq {target value : Option Int} (within : InBounds (target.getD 0 + value.getD 0)) :
    added target value = plus target value := by
  cases value with
  | none => rfl
  | some value => exact congrArg some (toNumber_eq within)

/-! ## What a group sums up to -/

theorem count_addCount (field other : CountKey) (entry target : TokenUsage) :
    count field (addCount entry target other) =
      if field = other then added (count field target) (count field entry) else count field target := by
  unfold addCount
  cases carried : count other entry with
  | none =>
    dsimp only
    split
    · rename_i same
      rw [same, carried, added]
    · rfl
  | some value =>
    dsimp only
    rw [count_setCount]
    split
    · rename_i same
      rw [same, carried, added]
    · rfl

/-- Every count is added once. -/
theorem count_addCounts (target entry : TokenUsage) :
    count field (addCounts target entry) = added (count field target) (count field entry) := by
  simp only [addCounts, countKeys, List.foldl_cons, List.foldl_nil, count_addCount]
  cases field <;> simp

@[simp] theorem label_addCount (entry target : TokenUsage) (field : CountKey) :
    label (addCount entry target field) = label target := by
  unfold addCount
  cases count field entry with
  | none => rfl
  | some value => exact label_setCount _ _ _

@[simp] theorem label_addCounts (target entry : TokenUsage) : label (addCounts target entry) = label target := by
  simp [addCounts, countKeys]

theorem label_foldl_addCounts (entries : List TokenUsage) (target : TokenUsage) :
    label (entries.foldl addCounts target) = label target := by
  induction entries generalizing target with
  | nil => rfl
  | cons entry rest ih =>
    rw [List.foldl_cons, ih, label_addCounts]

/-- Where the whole sum is in bounds, no number on the way to it is rounded. -/
theorem count_foldl_addCounts {entries : List TokenUsage} {target : TokenUsage}
    (wellFormed : ∀ entry ∈ entries, WellFormed entry) (begun : 0 ≤ (count field target).getD 0)
    (fits : (count field target).getD 0 + (total field entries).getD 0 ≤ maxTokenCount) :
    count field (entries.foldl addCounts target) = plus (count field target) (total field entries) := by
  induction entries generalizing target with
  | nil => rfl
  | cons entry rest ih =>
    have carried : 0 ≤ (total field [entry]).getD 0 :=
      total_nonneg field fun other member => wellFormed other (List.mem_append_left rest member)
    rw [total_singleton] at carried
    rw [List.forall_mem_cons] at wellFormed
    have later := total_nonneg field wellFormed.2
    rw [total_cons, getD_plus] at fits
    have own : count field (addCounts target entry) = plus (count field target) (count field entry) := by
      rw [count_addCounts]
      exact added_eq ⟨Int.add_nonneg begun carried, by omega⟩
    rw [List.foldl_cons, ih wellFormed.2, own, total_cons, plus_assoc]
    · rw [own, getD_plus]
      exact Int.add_nonneg begun carried
    · rw [own, getD_plus]
      omega

namespace Python

theorem get?_addCount (field other : CountKey) (entry : TokenUsage) (target : Counts) :
    (addCount entry target other).get? field =
      if field = other then plus (target.get? field) (count field entry) else target.get? field := by
  unfold addCount
  cases carried : count other entry with
  | none =>
    dsimp only
    split
    · rename_i same
      rw [same, carried, plus_none]
    · rfl
  | some value =>
    dsimp only
    rw [OrderedMap.get?_set]
    split
    · rename_i same
      rw [same, carried, plus]
    · rfl

theorem get?_addCounts (field : CountKey) (target : Counts) (entry : TokenUsage) :
    (addCounts target entry).get? field = plus (target.get? field) (count field entry) := by
  simp only [addCounts, countKeys, List.foldl_cons, List.foldl_nil, get?_addCount]
  cases field <;> simp

theorem get?_foldl_addCounts (field : CountKey) (entries : List TokenUsage) (target : Counts) :
    (entries.foldl addCounts target).get? field = plus (target.get? field) (total field entries) := by
  induction entries generalizing target with
  | nil => rfl
  | cons entry rest ih =>
    rw [List.foldl_cons, ih, get?_addCounts, total_cons, plus_assoc]

theorem tokenUsage_eq {name : Label} {counts : Counts}
    (within : ∀ field, ∀ value ∈ counts.get? field, InBounds value) :
    ∃ entry, tokenUsage name counts = some entry ∧ label entry = name ∧
      ∀ field, count field entry = counts.get? field := by
  refine ⟨_, if_pos fun field _ => within field, rfl, ?_⟩
  intro field
  cases field <;> rfl

theorem inBounds_of_tokenUsage {name : Label} {counts : Counts} {entry : TokenUsage}
    (made : tokenUsage name counts = some entry) (field : CountKey) :
    ∀ value ∈ counts.get? field, InBounds value := by
  unfold tokenUsage at made
  split at made
  · rename_i within
    exact within field (by cases field <;> decide)
  · cases made

end Python

end Usage
end AgUi
