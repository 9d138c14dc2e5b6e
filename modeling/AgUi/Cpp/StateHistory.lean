import Mathlib.Data.List.Infix
import AgUi.Cpp.StateManager

namespace AgUi
namespace Cpp

open Library JsonPatch

/-!
# The history of the state

A ledger is kept beside the manager: the states that were superseded while the
history was enabled and not rolled back, and of these the ones the history is
there to hold, the oldest of which go when the maximum is reached or lowered.

The history holds what the ledger says, as long as the maximum is never set
below the number of states held: nothing is dropped when it is lowered, and
afterwards only one state goes for every state that comes.
-/

/-! ## Calls -/

/-- The public calls that may change the manager. -/
inductive StateCall (N : Type) where
  | enableHistory (enable : Bool) (maxSize : Nat)
  | setState (state : Doc N)
  | applyPatch (patch : Doc N)
  | restoreFromSnapshot (snapshot : Doc N)
  | clear
  | rollback

/-- What the caller learns. -/
inductive Outcome where
  | done
  | threw (error : PatchError)
  | rolledBack (succeeded : Bool)
deriving DecidableEq

section

variable {N : Type} (sameNumber : N -> N -> Bool)

/-- What a call does, and how it ends. -/
def StateManager.perform (manager : StateManager N) : StateCall N -> StateManager N × Outcome
  | .enableHistory enable maxSize => (manager.enableHistory enable maxSize, .done)
  | .setState state => (manager.setState state, .done)
  | .applyPatch patch =>
    ((manager.applyPatch sameNumber patch).1, (manager.applyPatch sameNumber patch).2.elim .done .threw)
  | .restoreFromSnapshot snapshot => (manager.restoreFromSnapshot snapshot, .done)
  | .clear => (manager.clear, .done)
  | .rollback => (manager.rollback.1, .rolledBack manager.rollback.2)

/-! ## The ledger -/

structure Ledger (N : Type) where
  manager : StateManager N
  /-- Superseded while the history was enabled, and not rolled back; the latest stands last. -/
  superseded : List (Doc N) := []
  /-- Those of them that are to be held. -/
  held : List (Doc N) := []

/-- The last ones, as many as the maximum allows; a maximum of zero is none. -/
def mostRecent (maxSize : Nat) (states : List (Doc N)) : List (Doc N) :=
  if maxSize = 0 then states else states.drop (states.length - maxSize)

/-- A mutation takes the state down. -/
def StateCall.mutates (call : StateCall N) (outcome : Outcome) : Bool :=
  match call with
  | .setState _ | .restoreFromSnapshot _ | .clear => true
  | .applyPatch _ => outcome == .done
  | _ => false

def Ledger.enter (ledger : Ledger N) (call : StateCall N) : Ledger N :=
  let performed := ledger.manager.perform sameNumber call
  if call.mutates performed.2 then
    if ledger.manager.historyEnabled then
      { manager := performed.1
        superseded := ledger.superseded ++ [ledger.manager.currentState]
        held := mostRecent ledger.manager.maxHistorySize (ledger.held ++ [ledger.manager.currentState]) }
    else { ledger with manager := performed.1 }
  else
    match call with
    | .enableHistory true maxSize => { ledger with manager := performed.1, held := mostRecent maxSize ledger.held }
    | .enableHistory false _ => { manager := performed.1 }
    | .rollback =>
      if performed.2 = .rolledBack true then
        { manager := performed.1, superseded := ledger.superseded.dropLast, held := ledger.held.dropLast }
      else { ledger with manager := performed.1 }
    | _ => { ledger with manager := performed.1 }

/-! ## What is promised -/

/-- The history holds the most recent of the superseded states, and no more than the maximum. -/
structure Exact (ledger : Ledger N) : Prop where
  history : ledger.manager.history = ledger.held
  recent : ledger.held <:+ ledger.superseded
  bounded : ledger.manager.historyEnabled = true -> ledger.manager.maxHistorySize ≠ 0 ->
    ledger.manager.history.length ≤ ledger.manager.maxHistorySize

/-- A patch that throws changes nothing, and a rollback brings back the state before the latest mutation. -/
structure Faithful (ledger : Ledger N) (call : StateCall N) : Prop where
  atomic : ∀ patch error, call = .applyPatch patch ->
    (ledger.manager.perform sameNumber call).2 = .threw error ->
      (ledger.manager.perform sameNumber call).1 = ledger.manager
  restores : call = .rollback -> (ledger.manager.perform sameNumber call).2 = .rolledBack true ->
    ledger.superseded.getLast? = some (ledger.manager.perform sameNumber call).1.currentState

/-- Every state that is reached and every call on the way keep the promise. -/
def HoldsAlong : Ledger N -> List (StateCall N) -> Prop
  | ledger, [] => Exact ledger
  | ledger, call :: rest =>
    Exact ledger ∧ Faithful sameNumber ledger call ∧ HoldsAlong (ledger.enter sameNumber call) rest

/-- The history is not enabled with a maximum below what it holds. -/
def Room (manager : StateManager N) (call : StateCall N) : Prop :=
  ∀ maxSize, call = .enableHistory true maxSize -> maxSize ≠ 0 -> manager.history.length ≤ maxSize

/-- No call of the sequence enables the history with too small a maximum. -/
def RoomAlong : Ledger N -> List (StateCall N) -> Prop
  | _, [] => True
  | ledger, call :: rest => Room ledger.manager call ∧ RoomAlong (ledger.enter sameNumber call) rest

/-! ## One call -/

theorem mostRecent_of_le {maxSize : Nat} {states : List (Doc N)} (fits : maxSize ≠ 0 -> states.length ≤ maxSize) :
    mostRecent maxSize states = states := by
  unfold mostRecent
  split
  · rfl
  next positive =>
    rw [Nat.sub_eq_zero_of_le (fits positive), List.drop_zero]

theorem mostRecent_suffix (maxSize : Nat) (states : List (Doc N)) : mostRecent maxSize states <:+ states := by
  unfold mostRecent
  split
  · exact List.suffix_refl states
  · exact List.drop_suffix _ _

theorem length_mostRecent {maxSize : Nat} (positive : maxSize ≠ 0) (states : List (Doc N)) :
    (mostRecent maxSize states).length ≤ maxSize := by
  unfold mostRecent
  rw [if_neg positive, List.length_drop]
  omega

/-- One state goes where one has come too many. -/
theorem history_addToHistory {manager : StateManager N} (state : Doc N)
    (bounded : manager.maxHistorySize ≠ 0 -> manager.history.length ≤ manager.maxHistorySize) :
    (manager.addToHistory state).history = mostRecent manager.maxHistorySize (manager.history ++ [state]) := by
  unfold StateManager.addToHistory mostRecent
  dsimp only
  by_cases unbounded : manager.maxHistorySize = 0
  · rw [if_pos unbounded, if_neg (by omega)]
  · have fits := bounded unbounded
    rw [if_neg unbounded, List.length_append, List.length_singleton]
    by_cases full : manager.history.length = manager.maxHistorySize
    · rw [if_pos (by omega), full, Nat.add_sub_cancel_left, List.drop_one]
    · rw [if_neg (by omega), Nat.sub_eq_zero_of_le (by omega), List.drop_zero]

theorem suffix_dropLast {states others : List (Doc N)} (suffix : states <:+ others) (some : states ≠ []) :
    states.dropLast <:+ others.dropLast ∧ others.getLast? = states.getLast? := by
  rcases suffix with ⟨before, rfl⟩
  refine ⟨?_, List.getLast?_append_of_ne_nil before some⟩
  rw [List.dropLast_append_of_ne_nil some]
  exact List.suffix_append before _

/-- What a mutation makes of the ledger. -/
def Ledger.supersede (ledger : Ledger N) (state : Doc N) : Ledger N :=
  if ledger.manager.historyEnabled then
    { manager := ledger.manager.supersede ledger.manager.currentState state
      superseded := ledger.superseded ++ [ledger.manager.currentState]
      held := mostRecent ledger.manager.maxHistorySize (ledger.held ++ [ledger.manager.currentState]) }
  else { ledger with manager := ledger.manager.supersede ledger.manager.currentState state }

theorem Exact.supersede {ledger : Ledger N} (exact : Exact ledger) (state : Doc N) :
    Exact (ledger.supersede state) := by
  unfold Ledger.supersede StateManager.supersede
  by_cases enabled : ledger.manager.historyEnabled = true
  · rw [if_pos enabled, if_pos enabled]
    have history := history_addToHistory ledger.manager.currentState (exact.bounded enabled)
    constructor
    · exact history.trans (by rw [exact.history])
    · refine List.IsSuffix.trans (mostRecent_suffix _ _) ?_
      rcases exact.recent with ⟨before, superseded⟩
      exact ⟨before, by rw [← superseded, List.append_assoc]⟩
    · intro _ positive
      change (ledger.manager.addToHistory ledger.manager.currentState).history.length ≤ ledger.manager.maxHistorySize
      rw [history]
      exact length_mostRecent positive _
  · rw [if_neg enabled, if_neg enabled]
    exact ⟨exact.history, exact.recent, exact.bounded⟩

/-- A patch goes through and supersedes the state, or it throws and the manager is as it was. -/
theorem applyPatch_cases (manager : StateManager N) (patch : Doc N) :
    (∃ state, manager.applyPatch sameNumber patch = (manager.supersede manager.currentState state, none)) ∨
      ∃ error, manager.applyPatch sameNumber patch = (manager, some error) := by
  unfold StateManager.applyPatch
  cases patch with
  | array operations =>
    dsimp only
    cases applyOps sameNumber operations manager.currentState with
    | ok state => exact Or.inl ⟨state, rfl⟩
    | error error => exact Or.inr ⟨error, rfl⟩
  | _ => exact Or.inr ⟨_, rfl⟩

theorem Exact.enableHistory {ledger : Ledger N} (exact : Exact ledger) (enable : Bool) (maxSize : Nat) :
    Exact (ledger.enter sameNumber (.enableHistory enable maxSize)) ↔
      Room ledger.manager (.enableHistory enable maxSize) := by
  cases enable with
  | false =>
    constructor
    · exact nofun
    · exact fun _ => ⟨rfl, List.nil_suffix, fun _ _ => Nat.zero_le _⟩
  | true =>
    constructor
    · intro entered _ same positive
      cases same
      exact entered.bounded rfl positive
    · intro room
      have fits : maxSize ≠ 0 -> ledger.held.length ≤ maxSize := by
        rw [← exact.history]
        exact room maxSize rfl
      have kept := mostRecent_of_le fits
      refine ⟨?_, ?_, fun _ => room maxSize rfl⟩
      · exact exact.history.trans kept.symm
      · exact (show mostRecent maxSize ledger.held <:+ ledger.superseded from kept.symm ▸ exact.recent)

theorem rollback_cases (manager : StateManager N) :
    (manager.history = [] ∧ manager.rollback = (manager, false)) ∨
      ∃ before state, manager.history = before ++ [state] ∧
        manager.rollback = ({ manager with currentState := state, history := before }, true) := by
  unfold StateManager.rollback
  rcases List.eq_nil_or_concat' manager.history with nothing | ⟨before, state, history⟩
  · rw [nothing]
    exact Or.inl ⟨rfl, rfl⟩
  · rw [history, List.getLast?_concat, List.dropLast_concat]
    exact Or.inr ⟨before, state, rfl, rfl⟩

theorem Faithful.of_other {ledger : Ledger N} {call : StateCall N} (noPatch : ∀ patch, call ≠ .applyPatch patch)
    (noRollback : call ≠ .rollback) : Faithful sameNumber ledger call :=
  ⟨fun patch _ same => absurd same (noPatch patch), fun same => absurd same noRollback⟩

theorem Exact.rollback {ledger : Ledger N} (exact : Exact ledger) :
    Exact (ledger.enter sameNumber .rollback) ∧ Faithful sameNumber ledger .rollback := by
  rcases rollback_cases ledger.manager with ⟨_, rolled⟩ | ⟨before, state, history, rolled⟩
  · have performed : ledger.manager.perform sameNumber .rollback = (ledger.manager, .rolledBack false) := by
      unfold StateManager.perform
      rw [rolled]
    have entered : ledger.enter sameNumber .rollback = ledger := by
      unfold Ledger.enter
      rw [performed]
      rfl
    rw [entered]
    refine ⟨exact, ⟨?_, ?_⟩⟩
    · intro _ _ impossible
      cases impossible
    · intro _ impossible
      rw [performed] at impossible
      cases impossible
  · have performed : ledger.manager.perform sameNumber .rollback =
        ({ ledger.manager with currentState := state, history := before }, .rolledBack true) := by
      unfold StateManager.perform
      rw [rolled]
    have held : ledger.held = before ++ [state] := exact.history.symm.trans history
    have nonempty : ledger.held ≠ [] := by
      rw [held]
      exact List.append_ne_nil_of_right_ne_nil _ (List.cons_ne_nil _ _)
    have shorter := suffix_dropLast exact.recent nonempty
    have entered : ledger.enter sameNumber .rollback =
        { manager := { ledger.manager with currentState := state, history := before }
          superseded := ledger.superseded.dropLast
          held := ledger.held.dropLast } := by
      unfold Ledger.enter
      rw [performed]
      rfl
    rw [entered]
    refine ⟨⟨?_, shorter.1, ?_⟩, ⟨?_, ?_⟩⟩
    · rw [held, List.dropLast_concat]
    · intro enabled positive
      have bounded := exact.bounded enabled positive
      rw [history, List.length_append] at bounded
      exact Nat.le_of_succ_le bounded
    · intro _ _ impossible
      cases impossible
    · intro _ _
      rw [performed, shorter.2, held, List.getLast?_concat]

theorem Exact.enter {ledger : Ledger N} (exact : Exact ledger) (call : StateCall N) :
    (Exact (ledger.enter sameNumber call) ↔ Room ledger.manager call) ∧ Faithful sameNumber ledger call := by
  have other : (∀ maxSize, call ≠ .enableHistory true maxSize) -> Room ledger.manager call :=
    fun different maxSize same => absurd same (different maxSize)
  cases call with
  | enableHistory enable maxSize =>
    exact ⟨exact.enableHistory sameNumber enable maxSize, .of_other sameNumber (by intros; simp) (by simp)⟩
  | setState state | restoreFromSnapshot state =>
    have room := other nofun
    exact ⟨iff_of_true (exact.supersede state) room, .of_other sameNumber (by intros; simp) (by simp)⟩
  | clear =>
    have room := other nofun
    exact ⟨iff_of_true (exact.supersede (.object [])) room, .of_other sameNumber (by intros; simp) (by simp)⟩
  | rollback =>
    have room := other nofun
    have rolled := exact.rollback sameNumber
    exact ⟨iff_of_true rolled.1 room, rolled.2⟩
  | applyPatch patch =>
    have room := other nofun
    rcases applyPatch_cases sameNumber ledger.manager patch with ⟨state, applied⟩ | ⟨error, applied⟩
    · have performed : ledger.manager.perform sameNumber (.applyPatch patch) =
          (ledger.manager.supersede ledger.manager.currentState state, .done) := by
        unfold StateManager.perform
        dsimp only
        rw [applied]
        rfl
      have entered : ledger.enter sameNumber (.applyPatch patch) = ledger.supersede state := by
        unfold Ledger.enter
        rw [performed]
        rfl
      rw [entered]
      refine ⟨iff_of_true (exact.supersede state) room, ⟨?_, ?_⟩⟩
      · intro _ _ _ impossible
        rw [performed] at impossible
        cases impossible
      · intro impossible
        cases impossible
    · have performed : ledger.manager.perform sameNumber (.applyPatch patch) = (ledger.manager, .threw error) := by
        unfold StateManager.perform
        dsimp only
        rw [applied]
        rfl
      have entered : ledger.enter sameNumber (.applyPatch patch) = ledger := by
        unfold Ledger.enter
        rw [performed]
        rfl
      rw [entered]
      refine ⟨iff_of_true exact room, ⟨?_, ?_⟩⟩
      · intro _ _ _ _
        rw [performed]
      · intro impossible
        cases impossible

/-! ## Runs -/

theorem holdsAlong_iff (calls : List (StateCall N)) {ledger : Ledger N} (exact : Exact ledger) :
    HoldsAlong sameNumber ledger calls ↔ RoomAlong sameNumber ledger calls := by
  induction calls generalizing ledger with
  | nil => exact iff_of_true exact trivial
  | cons call rest ih =>
    have entered := exact.enter sameNumber call
    constructor
    · rintro ⟨_, _, later⟩
      have still : Exact (ledger.enter sameNumber call) := by
        cases rest with
        | nil => exact later
        | cons next others => exact later.1
      exact ⟨entered.1.mp still, (ih still).mp later⟩
    · rintro ⟨room, later⟩
      have still := entered.1.mpr room
      exact ⟨exact, entered.2, (ih still).mpr later⟩

/-- The history is exact along a run if and only if no call enables it with a maximum below what it holds. -/
theorem history_exact_iff (initial : Doc N) (calls : List (StateCall N)) :
    HoldsAlong sameNumber { manager := { currentState := initial } } calls ↔
      RoomAlong sameNumber { manager := { currentState := initial } } calls :=
  holdsAlong_iff sameNumber calls ⟨rfl, List.suffix_refl _, fun _ _ => Nat.zero_le _⟩

end

/-- Three states are held when the maximum is set to one. -/
theorem history_not_exact :
    ¬ HoldsAlong (fun left right : Nat => left == right) { manager := { currentState := .null } }
      [.enableHistory true 10, .setState (.number 1), .setState (.number 2), .setState (.number 3),
        .enableHistory true 1] := by
  rintro ⟨_, _, _, _, _, _, _, _, _, _, exact⟩
  exact absurd (exact.bounded rfl (by decide)) (by decide)

end Cpp
end AgUi
