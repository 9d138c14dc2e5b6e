import Mathlib.Data.List.Induction
import Mathlib.Data.List.Infix
import Mathlib.Order.Nat
import AgUi.Library.OrderedMap

namespace AgUi
namespace Langgraph

open Library

/-!
# Going back to a message

To run a thread again from a message, the checkpoint is looked up at which the
message was the last one.  The history of a thread is listed with the newest
checkpoint first; where the oldest checkpoint listed that has the message has
others after it, the search starts again from the parent of that checkpoint.

The server gives pages: from the newest checkpoint, or from a named one
backwards, and possibly not to the end.
-/

section

variable {M V R : Type}

/-! ## States of a thread -/

structure Values (M V : Type) where
  messages : Option (List M) := none
  /-- The other values by their names. -/
  others : OrderedMap String V := OrderedMap.empty

structure ThreadState (M V R : Type) where
  values : Values M V
  checkpointId : Option String
  /-- `parent_checkpoint?.checkpoint_id` -/
  parentCheckpointId : Option String
  /-- `next`, `tasks`, `metadata` and the rest. -/
  rest : R

namespace ThreadState

variable (idOf : M -> Option String) (messageId : String) (state : ThreadState M V R)

/-- `(state.values as State).messages ?? []` -/
def messages : List M :=
  state.values.messages.getD []

def has : Bool :=
  state.messages.any fun message => idOf message = some messageId

def messagesAfter : List M :=
  state.messages.drop (state.messages.findIdx (fun message => idOf message = some messageId) + 1)

/-- The message is the last one. -/
def EndsWith : Prop :=
  ∃ message, state.messages.getLast? = some message ∧ idOf message = some messageId

/-- A link counts unless it is missing or empty. -/
def parent : Option String :=
  state.parentCheckpointId.filter (· ≠ "")

/-- `{...selectedCheckpoint, values: {...selectedCheckpoint.values, ...targetStateValuesWithoutMessages}}` -/
def overlay (selected : Option (ThreadState M V R)) : ThreadState M V R :=
  let checkpoint := selected.getD { state with values := {} }
  { checkpoint with
    values := { checkpoint.values with others := checkpoint.values.others.merge state.values.others } }

end ThreadState

/-! ## The search -/

section Search

variable (getHistory : Option String -> List (ThreadState M V R)) (idOf : M -> Option String) (messageId : String)

/-- The checkpoint a page gives, if the page has the message. -/
def targetState (history : List (ThreadState M V R)) : Option (ThreadState M V R) :=
  history.reverse.find? fun state => state.has idOf messageId

/-- `reversed[targetStateIndex - 1]` -/
def olderState (history : List (ThreadState M V R)) : Option (ThreadState M V R) :=
  let targetStateIndex := history.reverse.findIdx fun state => state.has idOf messageId
  if targetStateIndex = 0 then none else history.reverse[targetStateIndex - 1]?

/-- The number is that of the calls the search may make; no answer is that they were not enough. -/
def getCheckpointByMessage : Nat -> Option String -> Option (Except String (ThreadState M V R))
  | 0, _ => none
  | calls + 1, checkpoint =>
    let history := getHistory (checkpoint.filter (· ≠ ""))
    match targetState idOf messageId history with
    | none => some (.error "Message not found")
    | some target =>
      if target.messagesAfter idOf messageId = [] then
        some (.ok (target.overlay (olderState idOf messageId history)))
      else getCheckpointByMessage calls target.parentCheckpointId

end Search

/-! ## Histories -/

/-- The states from a checkpoint backwards. -/
def backFrom (states : List (ThreadState M V R)) : Option String -> List (ThreadState M V R)
  | none => states
  | some checkpointId => states.dropWhile fun state => state.checkpointId ≠ some checkpointId

/-- The checkpoints of a thread with the newest first: what a checkpoint has for its parent is older. -/
structure History (M V R : Type) where
  states : List (ThreadState M V R)
  older : ∀ newer state rest parent, states = newer ++ state :: rest -> state.parent = some parent ->
    ∀ other ∈ newer ++ [state], other.checkpointId ≠ some parent

/-- A server lists the history of a thread, page by page. -/
structure Server (history : History M V R) where
  getHistory : Option String -> List (ThreadState M V R)
  page : ∀ checkpoint, getHistory checkpoint <+: backFrom history.states checkpoint

/-! ## Pages -/

section Pages

variable {idOf : M -> Option String} {messageId : String}

theorem targetState_split {history : List (ThreadState M V R)} {target : ThreadState M V R}
    (found : targetState idOf messageId history = some target) :
    ∃ newer older, history = newer ++ target :: older ∧
      target.has idOf messageId = true ∧ (∀ state ∈ older, state.has idOf messageId = false) ∧
      olderState idOf messageId history = older.head? := by
  rcases List.find?_eq_some_iff_append.mp found with ⟨has, before, after, split, without⟩
  have withoutEach : ∀ state ∈ before, state.has idOf messageId = false := by
    intro state member
    simpa using without state member
  refine ⟨after.reverse, before.reverse, ?_, has, ?_, ?_⟩
  · rw [← List.reverse_reverse history, split]
    simp
  · intro state member
    exact withoutEach state (List.mem_reverse.mp member)
  · have place : (before ++ target :: after).findIdx (fun state => state.has idOf messageId) = before.length := by
      rw [List.findIdx_append, if_neg, List.findIdx_cons, has]
      · simp
      · rw [List.findIdx_lt_length]
        rintro ⟨state, member, hasIt⟩
        rw [withoutEach state member] at hasIt
        cases hasIt
    rw [olderState, split, place, List.head?_reverse]
    cases before using List.reverseRecOn with
    | nil => rfl
    | append_singleton front last =>
      rw [if_neg (by simp), List.getLast?_concat, List.length_append, List.length_singleton, Nat.add_sub_cancel,
        List.append_assoc, List.getElem?_append_right (Nat.le_refl _), Nat.sub_self]
      rfl

/-- The first message with the identifier is the last message. -/
theorem endsWith_of_none_after {state : ThreadState M V R} (has : state.has idOf messageId = true)
    (none : state.messagesAfter idOf messageId = []) : state.EndsWith idOf messageId := by
  rcases List.any_eq_true.mp has with ⟨message, member, named⟩
  have within : state.messages.findIdx (fun message => idOf message = some messageId) < state.messages.length := by
    rw [List.findIdx_lt_length]
    exact ⟨message, member, named⟩
  have last : state.messages.length ≤ state.messages.findIdx (fun message => idOf message = some messageId) + 1 :=
    List.drop_eq_nil_iff.mp none
  refine ⟨state.messages[state.messages.findIdx fun message => idOf message = some messageId], ?_, ?_⟩
  · rw [List.getLast?_eq_getElem?, List.getElem?_eq_some_iff]
    refine ⟨by omega, ?_⟩
    congr 1
    omega
  · have found := List.findIdx_getElem (w := within)
    simpa using found

theorem has_of_endsWith {state : ThreadState M V R} (ends : state.EndsWith idOf messageId) :
    state.has idOf messageId = true := by
  rcases ends with ⟨message, last, named⟩
  exact List.any_eq_true.mpr ⟨message, List.mem_of_getLast? last, by simpa using named⟩

end Pages

/-! ## Restarts -/

section Restarts

variable {history : History M V R} (server : Server history) (idOf : M -> Option String) (messageId : String)

/-- A checkpoint that is listed without being the answer: the message has others after it. -/
def Restarts (checkpoint : Option String) (target : ThreadState M V R) : Prop :=
  targetState idOf messageId (server.getHistory checkpoint) = some target ∧
    target.messagesAfter idOf messageId ≠ []

/-- The checkpoints the history is asked for, as long as there is a link to go back by. -/
inductive Asked : Option String -> Nat -> Prop
  | first : Asked none 0
  | restart {checkpoint : Option String} {target : ThreadState M V R} {parent : String} {calls : Nat} :
      Asked checkpoint calls -> Restarts server idOf messageId checkpoint target ->
      target.parent = some parent -> Asked (some parent) (calls + 1)

/-- Every checkpoint at which the search starts again has a parent. -/
def Linked : Prop :=
  ∀ checkpoint calls target, Asked server idOf messageId checkpoint calls ->
    Restarts server idOf messageId checkpoint target -> target.parent ≠ none

/-- What a page answers: what lies directly before the oldest checkpoint that ends with the message, or that
checkpoint itself where nothing does, with the other values of that checkpoint on top. -/
def Selected (page : List (ThreadState M V R)) (state : ThreadState M V R) : Prop :=
  ∃ newer target older, page = newer ++ target :: older ∧
    target.EndsWith idOf messageId ∧ (∀ other ∈ older, Not (other.EndsWith idOf messageId)) ∧
      state = target.overlay older.head?

/-- An answer: the message is not found, or a page that was asked for has it. -/
inductive Answers : Except String (ThreadState M V R) -> Prop
  | notFound : Answers (.error "Message not found")
  | found {checkpoint : Option String} {calls : Nat} {state : ThreadState M V R} :
      Asked server idOf messageId checkpoint calls ->
      Selected idOf messageId (server.getHistory checkpoint) state -> Answers (.ok state)

/-- Finitely many calls are made, and the answer is right. -/
def Settles : Prop :=
  ∃ calls answer,
    getCheckpointByMessage server.getHistory idOf messageId calls none = some answer ∧
      Answers server idOf messageId answer

variable {server idOf messageId}

/-! ### Steps -/

variable {checkpoint : Option String}

theorem search_of_missing (calls : Nat) (link : checkpoint.filter (· ≠ "") = checkpoint)
    (missing : targetState idOf messageId (server.getHistory checkpoint) = none) :
    getCheckpointByMessage server.getHistory idOf messageId (calls + 1) checkpoint =
      some (.error "Message not found") := by
  rw [getCheckpointByMessage, link]
  rw [missing]

variable {target : ThreadState M V R}

theorem search_of_last (calls : Nat) (link : checkpoint.filter (· ≠ "") = checkpoint)
    (found : targetState idOf messageId (server.getHistory checkpoint) = some target)
    (last : target.messagesAfter idOf messageId = []) :
    getCheckpointByMessage server.getHistory idOf messageId (calls + 1) checkpoint =
      some (.ok (target.overlay (olderState idOf messageId (server.getHistory checkpoint)))) := by
  rw [getCheckpointByMessage, link]
  rw [found]
  dsimp only
  rw [if_pos last]

/-- A restart goes on at the parent; a link that is missing or empty leads to the beginning. -/
theorem search_of_restart (calls : Nat) (link : checkpoint.filter (· ≠ "") = checkpoint)
    (restarts : Restarts server idOf messageId checkpoint target) :
    getCheckpointByMessage server.getHistory idOf messageId (calls + 1) checkpoint =
      getCheckpointByMessage server.getHistory idOf messageId calls target.parent := by
  have same : ∀ calls, getCheckpointByMessage server.getHistory idOf messageId calls target.parentCheckpointId =
      getCheckpointByMessage server.getHistory idOf messageId calls target.parent := by
    intro calls
    cases calls with
    | zero => rfl
    | succ calls =>
      rw [getCheckpointByMessage, getCheckpointByMessage, ThreadState.parent, Option.filter_filter]
      simp only [Bool.and_self]
  rw [getCheckpointByMessage, link]
  rw [restarts.1]
  dsimp only
  rw [if_neg restarts.2, same]

theorem parent_link : target.parent.filter (· ≠ "") = target.parent := by
  rw [ThreadState.parent, Option.filter_filter]
  simp only [Bool.and_self]

theorem Asked.link {calls : Nat} (asked : Asked server idOf messageId checkpoint calls) :
    checkpoint.filter (· ≠ "") = checkpoint := by
  cases asked with
  | first => rfl
  | restart before restarts parent =>
    rw [← parent]
    exact parent_link

/-! ### Ends -/

/-- The parent of a checkpoint lists less than the checkpoint does. -/
theorem length_backFrom_lt {parent : String}
    (found : targetState idOf messageId (server.getHistory checkpoint) = some target)
    (hasParent : target.parent = some parent) :
    (backFrom history.states (some parent)).length < (backFrom history.states checkpoint).length := by
  rcases targetState_split found with ⟨newer, older, split, _⟩
  rcases server.page checkpoint with ⟨unlisted, listed⟩
  have suffix : backFrom history.states checkpoint <:+ history.states := by
    cases checkpoint with
    | none => exact List.suffix_refl _
    | some checkpointId => exact List.dropWhile_suffix _
  rcases suffix with ⟨before, whole⟩
  rw [← listed, split] at whole ⊢
  have states : history.states = (before ++ newer) ++ target :: (older ++ unlisted) := by
    rw [← whole]
    simp
  have dropped : backFrom history.states (some parent) =
      (older ++ unlisted).dropWhile fun state => state.checkpointId ≠ some parent := by
    have around : history.states = ((before ++ newer) ++ [target]) ++ (older ++ unlisted) := by
      rw [states]
      simp
    rw [backFrom]
    nth_rewrite 1 [around]
    apply List.dropWhile_append_of_pos
    intro other member
    simpa using history.older _ _ _ _ states hasParent other member
  rw [dropped]
  have shorter := List.IsSuffix.length_le
    (List.dropWhile_suffix (l := older ++ unlisted) fun state : ThreadState M V R => state.checkpointId ≠ some parent)
  simp only [List.length_append, List.length_cons] at shorter ⊢
  omega

/-- Where every restart has a parent, the search comes to an answer. -/
theorem settles_from (linked : Linked server idOf messageId) (bound : Nat) :
    ∀ checkpoint calls, Asked server idOf messageId checkpoint calls ->
      (backFrom history.states checkpoint).length < bound ->
      ∃ answer,
        getCheckpointByMessage server.getHistory idOf messageId bound checkpoint = some answer ∧
          Answers server idOf messageId answer := by
  induction bound with
  | zero =>
    intro checkpoint calls asked below
    omega
  | succ bound ih =>
    intro checkpoint calls asked below
    cases found : targetState idOf messageId (server.getHistory checkpoint) with
    | none => exact ⟨_, search_of_missing bound asked.link found, .notFound⟩
    | some target =>
      by_cases last : target.messagesAfter idOf messageId = []
      · refine ⟨_, search_of_last bound asked.link found last, .found asked ?_⟩
        rcases targetState_split found with ⟨newer, older, split, has, without, before⟩
        refine ⟨newer, target, older, split, endsWith_of_none_after has last, ?_, by rw [before]⟩
        intro other member ends
        exact absurd (has_of_endsWith ends) (by rw [without other member]; decide)
      · have restarts : Restarts server idOf messageId checkpoint target := ⟨found, last⟩
        cases hasParent : target.parent with
        | none => exact absurd hasParent (linked checkpoint calls target asked restarts)
        | some parent =>
          have shorter := length_backFrom_lt found hasParent
          rw [search_of_restart bound asked.link restarts, hasParent]
          exact ih (some parent) (calls + 1) (.restart asked restarts hasParent) (by omega)

/-- More calls do not change an answer. -/
theorem search_of_more {answer : Except String (ThreadState M V R)} (calls : Nat) : ∀ (checkpoint : Option String),
    getCheckpointByMessage server.getHistory idOf messageId calls checkpoint = some answer ->
      getCheckpointByMessage server.getHistory idOf messageId (calls + 1) checkpoint = some answer := by
  induction calls with
  | zero =>
    intro checkpoint none
    cases none
  | succ calls ih =>
    intro checkpoint answered
    rw [getCheckpointByMessage] at answered ⊢
    cases found : targetState idOf messageId (server.getHistory (checkpoint.filter (· ≠ ""))) with
    | none =>
      rw [found] at answered
      exact answered
    | some target =>
      rw [found] at answered
      dsimp only at answered ⊢
      by_cases last : target.messagesAfter idOf messageId = []
      · rw [if_pos last] at answered ⊢
        exact answered
      · rw [if_neg last] at answered ⊢
        exact ih _ answered

theorem search_of_le {answer : Except String (ThreadState M V R)} {fewer more : Nat} (order : fewer ≤ more)
    (answered : getCheckpointByMessage server.getHistory idOf messageId fewer checkpoint = some answer) :
    getCheckpointByMessage server.getHistory idOf messageId more checkpoint = some answer := by
  induction order with
  | refl => exact answered
  | step order ih => exact search_of_more _ _ ih

/-- The search from the beginning goes through every checkpoint that is asked for. -/
theorem search_through {made : Nat} (asked : Asked server idOf messageId checkpoint made) (calls : Nat) :
    getCheckpointByMessage server.getHistory idOf messageId (calls + made) none =
      getCheckpointByMessage server.getHistory idOf messageId calls checkpoint := by
  induction asked generalizing calls with
  | first => rfl
  | @restart checkpoint target parent made asked restarts hasParent ih =>
    have shifted := ih (calls + 1)
    rw [search_of_restart calls asked.link restarts, hasParent] at shifted
    rw [← shifted]
    congr 1
    omega

/-- A restart without a parent is the search from the beginning, which so has no end. -/
theorem never_of_stranded {made : Nat} (asked : Asked server idOf messageId checkpoint made)
    (restarts : Restarts server idOf messageId checkpoint target) (stranded : target.parent = none) (calls : Nat) :
    getCheckpointByMessage server.getHistory idOf messageId calls none = none := by
  have again : ∀ calls, getCheckpointByMessage server.getHistory idOf messageId (calls + (made + 1)) none =
      getCheckpointByMessage server.getHistory idOf messageId calls none := by
    intro calls
    have through := search_through asked (calls + 1)
    rw [search_of_restart calls asked.link restarts, stranded] at through
    rw [← through]
    congr 1
    omega
  have rounds : ∀ count, getCheckpointByMessage server.getHistory idOf messageId (count * (made + 1)) none = none := by
    intro count
    induction count with
    | zero =>
      rw [Nat.zero_mul]
      rfl
    | succ count ih => rw [Nat.succ_mul, again, ih]
  by_contra answered
  rcases Option.ne_none_iff_exists'.mp answered with ⟨answer, found⟩
  have later := search_of_le (Nat.le_mul_of_pos_right calls (Nat.succ_pos made)) found
  rw [rounds] at later
  cases later

end Restarts

/-- The search comes to an end, with the answer that a page has, if and only if every restart has a parent. -/
theorem settles_iff_linked {history : History M V R} (server : Server history) (idOf : M -> Option String)
    (messageId : String) : Settles server idOf messageId ↔ Linked server idOf messageId := by
  constructor
  · rintro ⟨calls, answer, found, _⟩ checkpoint made target asked restarts stranded
    rw [never_of_stranded asked restarts stranded calls] at found
    cases found
  · intro linked
    exact ⟨_, settles_from linked _ none 0 .first (Nat.lt_succ_self _)⟩

end

/-! ### A first checkpoint with two messages -/

def startedWithTwo : ThreadState String Unit Unit where
  values := { messages := some ["m1", "m2"] }
  checkpointId := some "c1"
  parentCheckpointId := none
  rest := ()

def startedHistory : History String Unit Unit where
  states := [startedWithTwo]
  older := by
    intro newer state rest parent split hasParent other member
    have alone : state = startedWithTwo := by
      have listed : state ∈ [startedWithTwo] := by
        rw [split]
        simp
      simpa using listed
    rw [alone] at hasParent
    cases hasParent

def wholeServer : Server startedHistory where
  getHistory := backFrom startedHistory.states
  page := fun _ => List.prefix_refl _

/-- The search for the first of them never ends. -/
theorem startedWithTwo_not_settles : Not (Settles wholeServer some "m1") := by
  rintro ⟨calls, answer, found, _⟩
  have restarts : Restarts wholeServer some "m1" none startedWithTwo := ⟨rfl, by decide⟩
  rw [never_of_stranded .first restarts rfl calls] at found
  cases found

end Langgraph
end AgUi
