import Mathlib.Data.List.Sort
import Mathlib.Data.List.Lex
import Mathlib.Tactic.Tauto
import AgUi.Library.Numerals

namespace AgUi
namespace ManagedAgents

open Library Decimals

/-!
# Session keys

The key of a thread's state puts one after the other what is fixed when the
remote session is created, each field behind its length, and the thread id.
The vault ids are one field, joined at commas.

A text is the list of its code units: those of UTF-16 in TypeScript, and whole
code points in Python, where the function is the same.
-/

namespace SessionKeys

abbrev Text := List Nat

def unitsOf (chars : List Char) : Text :=
  chars.map Char.toNat

structure AgentConfig where
  managedAgentId : Text
  agentVersion : Option Int := none
  environmentId : Text
  vaultIds : Option (List Text) := none

/-- `config.vaultIds ?? []` -/
def AgentConfig.vaults (config : AgentConfig) : List Text :=
  config.vaultIds.getD []

def colon : Nat :=
  58

def comma : Nat :=
  44

def bar : Nat :=
  124

/-- A value after its length. -/
def field (value : Text) : Text :=
  unitsOf (Nat.toDigits 10 value.length) ++ colon :: (value ++ [bar])

/-- `String(version)` of a version below 10^21, from which on JavaScript writes an exponent. -/
def versionText : Option Int -> Text
  | none => []
  | some version => unitsOf (intText version)

/-- `sort()`: by code units. -/
def sortTexts (texts : List Text) : List Text :=
  texts.insertionSort (· ≤ ·)

def sessionKey (config : AgentConfig) (threadId : Text) : Text :=
  field config.managedAgentId ++ (field (versionText config.agentVersion) ++ (field config.environmentId ++
    (field ([comma].intercalate (sortTexts config.vaults)) ++ threadId)))

/-! ## Fields -/

theorem unitsOf_injective {first second : List Char} (same : unitsOf first = unitsOf second) : first = second := by
  exact List.map_injective_iff.mpr (fun _ _ equal => Char.toNat_inj.mp equal) same

theorem colon_notMem_digits (number : Nat) : colon ∉ unitsOf (Nat.toDigits 10 number) := by
  intro member
  rcases List.mem_map.mp member with ⟨char, listed, equal⟩
  have isDigit := Nat.isDigit_of_mem_toDigits (by decide) (by decide) listed
  have bounds := digit_bounds isDigit
  have zero : '0'.toNat = 48 := by decide
  rw [zero, equal] at bounds
  unfold colon at bounds
  omega

/-- What stands before the first mark can be told from the text. -/
theorem append_mark_inj {mark : Nat} {first second rest others : Text} (unmarked : mark ∉ first) (other : mark ∉ second)
    (same : first ++ mark :: rest = second ++ mark :: others) : first = second ∧ rest = others := by
  rcases List.append_eq_append_iff.mp same with ⟨more, longer, tails⟩ | ⟨more, longer, tails⟩
  · cases more with
    | nil => exact ⟨by rw [longer, List.append_nil], (List.cons.inj tails).2⟩
    | cons head _ =>
      rw [longer, (List.cons.inj tails).1] at other
      exact absurd (List.mem_append_right first List.mem_cons_self) other
  · cases more with
    | nil => exact ⟨by rw [longer, List.append_nil], (List.cons.inj tails).2.symm⟩
    | cons head _ =>
      rw [longer, (List.cons.inj tails).1] at unmarked
      exact absurd (List.mem_append_right second List.mem_cons_self) unmarked

/-- A field and what follows it can be told from the text. -/
theorem field_append_inj {value other rest others : Text} :
    field value ++ rest = field other ++ others ↔ value = other ∧ rest = others := by
  constructor
  · intro same
    unfold field at same
    rw [List.append_assoc, List.append_assoc, List.cons_append, List.cons_append, List.append_assoc,
      List.append_assoc] at same
    rcases append_mark_inj (colon_notMem_digits _) (colon_notMem_digits _) same with ⟨digits, tails⟩
    have length : value.length = other.length := by
      rw [← decimal_toDigits value.length, unitsOf_injective digits, decimal_toDigits]
    rcases List.append_inj tails length with ⟨values, later⟩
    exact ⟨values, (List.cons.inj later).2⟩
  · rintro ⟨rfl, rfl⟩
    rfl

theorem versionText_injective {version other : Option Int} (same : versionText version = versionText other) :
    version = other := by
  have written : ∀ number : Int, unitsOf (intText number) ≠ [] := by
    intro number empty
    unfold unitsOf intText at empty
    split at empty
    · cases empty
    · exact Nat.toDigits_ne_nil (List.map_eq_nil_iff.mp empty)
  cases version with
  | none =>
    cases other with
    | none => rfl
    | some number => exact absurd same.symm (written number)
  | some number =>
    cases other with
    | none => exact absurd same (written number)
    | some second => exact congrArg some (intText_injective (unitsOf_injective same))

/-! ## Vaults -/

/-- Two lists are sorted alike if they have the same members as often. -/
theorem sortTexts_eq_iff (first second : List Text) : sortTexts first = sortTexts second ↔ first.Perm second := by
  constructor
  · intro same
    exact ((List.perm_insertionSort _ first).symm.trans (List.Perm.of_eq same)).trans (List.perm_insertionSort _ second)
  · intro perm
    have both := ((List.perm_insertionSort (· ≤ ·) first).trans perm).trans
      (List.perm_insertionSort (· ≤ ·) second).symm
    exact both.eq_of_pairwise' (List.pairwise_insertionSort (· ≤ ·) first) (List.pairwise_insertionSort (· ≤ ·) second)

/-- The texts between the commas of a list of texts; a list of none is that of an empty text. -/
def cutAtCommas : List Text -> List Text
  | [] => [[]]
  | text :: rest => (text :: rest).flatMap (List.splitOn comma)

/-- The commas that join texts cannot be told from those inside. -/
theorem splitOn_intercalate (texts : List Text) : ([comma].intercalate texts).splitOn comma = cutAtCommas texts := by
  cases texts with
  | nil => rfl
  | cons text rest =>
    induction rest generalizing text with
    | nil =>
      rw [List.intercalate_singleton, cutAtCommas, List.flatMap_cons, List.flatMap_nil, List.append_nil]
    | cons next rest ih =>
      rw [List.intercalate_cons_cons, List.append_assoc, List.singleton_append, List.splitOn_append_cons_self, ih,
        cutAtCommas, cutAtCommas]
      exact List.flatMap_cons.symm

theorem intercalate_eq_iff (first second : List Text) :
    [comma].intercalate first = [comma].intercalate second ↔ cutAtCommas first = cutAtCommas second := by
  constructor
  · intro same
    rw [← splitOn_intercalate, same, splitOn_intercalate]
  · intro same
    have joined : ∀ texts : List Text, [comma].intercalate (cutAtCommas texts) = [comma].intercalate texts := by
      intro texts
      rw [← splitOn_intercalate, List.intercalate_splitOn]
    rw [← joined first, same, joined]

/-! ## Keys -/

/-- The settings are the same but for the vaults. -/
structure SameButVaults (config other : AgentConfig) (threadId otherId : Text) : Prop where
  managedAgentId : config.managedAgentId = other.managedAgentId
  agentVersion : config.agentVersion = other.agentVersion
  environmentId : config.environmentId = other.environmentId
  threadId : threadId = otherId

/-- The same settings, with the same vaults in any order. -/
def SameSession (config other : AgentConfig) (threadId otherId : Text) : Prop :=
  SameButVaults config other threadId otherId ∧ config.vaults.Perm other.vaults

theorem sessionKey_eq_iff (config other : AgentConfig) (threadId otherId : Text) :
    sessionKey config threadId = sessionKey other otherId ↔
      SameButVaults config other threadId otherId ∧
        cutAtCommas (sortTexts config.vaults) = cutAtCommas (sortTexts other.vaults) := by
  unfold sessionKey
  rw [field_append_inj, field_append_inj, field_append_inj, field_append_inj, intercalate_eq_iff]
  constructor
  · rintro ⟨agent, version, environment, vaults, thread⟩
    exact ⟨⟨agent, versionText_injective version, environment, thread⟩, vaults⟩
  · rintro ⟨⟨agent, version, environment, thread⟩, vaults⟩
    exact ⟨agent, congrArg versionText version, environment, vaults, thread⟩

/-- Keys tell settings apart, unless these differ in the vaults alone, and those are the same once cut at commas. -/
theorem sessionKeys_exact_iff (config other : AgentConfig) (threadId otherId : Text) :
    (sessionKey config threadId = sessionKey other otherId ↔ SameSession config other threadId otherId) ↔
      ¬ (SameButVaults config other threadId otherId ∧ ¬ config.vaults.Perm other.vaults ∧
        cutAtCommas (sortTexts config.vaults) = cutAtCommas (sortTexts other.vaults)) := by
  have alike : config.vaults.Perm other.vaults ->
      cutAtCommas (sortTexts config.vaults) = cutAtCommas (sortTexts other.vaults) :=
    fun perm => congrArg cutAtCommas ((sortTexts_eq_iff _ _).mpr perm)
  rw [sessionKey_eq_iff, SameSession]
  tauto

/-- Two vaults have the key of one vault whose id has a comma. -/
theorem vaults_share_key :
    ¬ ∀ config other : AgentConfig, ∀ threadId otherId : Text,
      sessionKey config threadId = sessionKey other otherId ↔ SameSession config other threadId otherId := by
  intro always
  have same := (always
    { managedAgentId := unitsOf "agent".toList, environmentId := unitsOf "env".toList,
      vaultIds := some [unitsOf ['a'], unitsOf ['b']] }
    { managedAgentId := unitsOf "agent".toList, environmentId := unitsOf "env".toList,
      vaultIds := some [unitsOf ['a', ',', 'b']] } [] []).mp (by decide)
  exact absurd same.2.length_eq (by decide)

end SessionKeys

end ManagedAgents
end AgUi
