import Mathlib.Data.List.TakeWhile
import AgUi.Cpp.StateManager
import AgUi.Library.Numerals

namespace AgUi
namespace Cpp

open Library Decimals JsonPatch

/-!
# Patches as the standard has them

The manager differs from the standard in three points by design: "/" is the
whole document as the empty path is, what an addition lacks on the way to its
place is made, and the whole document is not removed.  Evaluated with these, a
patch comes to the document the manager comes to, or fails where it does.

The operations have to be strict for it: the manager also reads indexes with a
sign, zeros or spaces in front and anything behind, takes a member that is
missing for null or the root, keeps a tilde that escapes nothing, and moves
values into themselves.
-/

/-! ## Results -/

theorem toOption_bind {E A B : Type} (result : Except E A) (next : A -> Except E B) :
    (result >>= next).toOption = result.toOption.bind fun value => (next value).toOption := by
  cases result with
  | error error => rfl
  | ok value => rfl

theorem toOption_raise {A : Type} (parts : List Text) : (raise parts : Except PatchError A).toOption = none := by
  rfl

theorem toOption_ok {E A : Type} (value : A) : (Except.ok value : Except E A).toOption = some value := by
  rfl

/-! ## Pointers -/

/-- Where every tilde is an escape, the segments are the tokens. -/
theorem readSegments_eq (current text : Text) : ∀ {tokens : List Text},
    (text.splitOn '/').mapM unescape = some tokens ->
      readSegments current text = tokens.modifyHead (current ++ ·) := by
  fun_induction readSegments current text with
  | case1 current =>
    intro tokens read
    cases read
    simp
  | case2 current =>
    intro tokens read
    cases read
    simp
  | case3 current char notSlash =>
    intro tokens read
    by_cases tilde : char = '~'
    · subst tilde
      cases read
    · rw [splitOn_other notSlash, mapM_modifyHead (unescape_cons tilde)] at read
      cases read
      simp
  | case4 current next rest ih =>
    intro tokens read
    rw [splitOn_slash, List.mapM_cons] at read
    rcases Option.bind_eq_some_iff.mp read with ⟨first, readFirst, readRest⟩
    rcases Option.bind_eq_some_iff.mp readRest with ⟨others, readOthers, same⟩
    cases readFirst
    cases same
    rw [ih readOthers]
    cases others with
    | nil => simp
    | cons other others => simp
  | case5 current char next rest notSlash escaped ih =>
    intro tokens read
    rw [escaped.1, escaped.2, splitOn_other (by decide), splitOn_other (by decide), List.modifyHead_modifyHead,
      Function.comp_def, mapM_modifyHead unescape_zero] at read
    rcases Option.map_eq_some_iff.mp read with ⟨others, readOthers, same⟩
    rw [ih readOthers, ← same]
    simp [List.modifyHead_modifyHead, Function.comp_def]
  | case6 current char next rest notSlash notZero escaped ih =>
    intro tokens read
    rw [escaped.1, escaped.2, splitOn_other (by decide), splitOn_other (by decide), List.modifyHead_modifyHead,
      Function.comp_def, mapM_modifyHead unescape_one] at read
    rcases Option.map_eq_some_iff.mp read with ⟨others, readOthers, same⟩
    rw [ih readOthers, ← same]
    simp [List.modifyHead_modifyHead, Function.comp_def]
  | case7 current char next rest notSlash notZero notOne ih =>
    intro tokens read
    by_cases tilde : char = '~'
    · subst tilde
      rw [mapM_splitOn_tilde (fun zero => notZero ⟨rfl, zero⟩) (fun one => notOne ⟨rfl, one⟩)] at read
      cases read
    · rw [splitOn_other notSlash, mapM_modifyHead (unescape_cons tilde)] at read
      rcases Option.map_eq_some_iff.mp read with ⟨others, readOthers, same⟩
      rw [ih readOthers, ← same]
      simp [List.modifyHead_modifyHead, Function.comp_def]

/-- Only the empty path is the root. -/
theorem tokensOf_cons_ne_nil (char : Char) (text : Text) : tokensOf (char :: text) ≠ some [] := by
  intro read
  rw [tokensOf] at read
  by_cases slash : char = '/'
  · rw [if_pos slash] at read
    cases pieces : text.splitOn '/' with
    | nil => exact absurd pieces (List.splitOn_ne_nil '/' text)
    | cons piece others =>
      rw [pieces, List.mapM_cons] at read
      rcases Option.bind_eq_some_iff.mp read with ⟨first, readFirst, readRest⟩
      rcases Option.bind_eq_some_iff.mp readRest with ⟨rest, readOthers, same⟩
      cases same
  · rw [if_neg slash] at read
    cases read

theorem parsePath_eq {path : Text} {tokens : List Text} (read : tokensOf path = some tokens) (notSlash : path ≠ ['/']) :
    parsePath path = tokens := by
  cases path with
  | nil =>
    cases read
    rfl
  | cons char rest =>
    rw [tokensOf] at read
    by_cases slash : char = '/'
    · subst slash
      rw [if_pos rfl] at read
      rw [parsePath, if_neg (by simp), if_neg (fun none => notSlash (by rw [none])), readSegments_eq [] rest read]
      cases tokens with
      | nil => rfl
      | cons token tokens => rfl
    · rw [if_neg slash] at read
      cases read

/-- What is no pointer and has no slash in front has no segments. -/
theorem parsePath_of_head {path : Text} (head : path.head? ≠ some '/') : parsePath path = [] := by
  cases path with
  | nil => rfl
  | cons char rest => rw [parsePath, if_pos (fun slash => head (by rw [slash]; rfl))]

/-! ## Places -/

/-- Below a bound, the number that is read is the index a token stands for. -/
def SamePlace (bound : Nat) (token : Text) : Prop :=
  ∀ place, place < bound -> (index token = some place ↔ stoul token = .value place)

theorem parseArrayIndex_eq_ok {segment path : Text} {place : Nat} :
    parseArrayIndex segment path = .ok place ↔ stoul segment = .value place := by
  unfold parseArrayIndex
  cases stoul segment with
  | value number => simp
  | invalid | outOfRange => simp [raise]

/-- Where nothing stands beyond the bound, what is done with the number is done with the index. -/
theorem SamePlace.parsed {A B : Type} {bound : Nat} {token : Text} (same : SamePlace bound token) (path : Text)
    (result : Except PatchError A -> Option B) (failed : ∀ error, result (.error error) = none)
    {next : Nat -> Except PatchError A} {chosen : Nat -> Option B}
    (inside : ∀ place, index token = some place -> place < bound -> result (next place) = chosen place)
    (outside : ∀ place, bound ≤ place -> result (next place) = none ∧ chosen place = none) :
    result (parseArrayIndex token path >>= next) = (index token).bind chosen := by
  by_cases within : ∃ place, place < bound ∧ index token = some place
  · rcases within with ⟨place, below, read⟩
    rw [parseArrayIndex_eq_ok.mpr ((same place below).mp read), read]
    exact inside place read below
  · have nothing : (index token).bind chosen = none := by
      cases read : index token with
      | none => rfl
      | some place =>
        have beyond : bound ≤ place := by
          by_contra below
          exact within ⟨place, by omega, read⟩
        exact (outside place beyond).2
    rw [nothing]
    cases parsed : parseArrayIndex token path with
    | error error => exact failed error
    | ok place =>
      have beyond : bound ≤ place := by
        by_contra below
        exact within ⟨place, by omega, (same place (by omega)).mpr (parseArrayIndex_eq_ok.mp parsed)⟩
      exact (outside place beyond).1

theorem stoul_of_digits {token : Text} (notEmpty : token ≠ []) (digits : token.all Char.isDigit = true)
    (small : decimal token < 2 ^ 64) : stoul token = .value (decimal token) := by
  cases token with
  | nil => exact absurd rfl notEmpty
  | cons first rest =>
    have firstDigit : first.isDigit = true := (List.all_eq_true.mp digits) first (List.mem_cons_self ..)
    have taken : (first :: rest).takeWhile Char.isDigit = first :: rest :=
      List.takeWhile_eq_self_iff.mpr (List.all_eq_true.mp digits)
    have notSpace : isSpace first = false := by
      by_contra space
      have within : first = ' ' ∨ '\t' ≤ first ∧ first ≤ '\r' := by
        rwa [Bool.not_eq_false, isSpace, Bool.or_eq_true, Bool.and_eq_true, decide_eq_true_eq, decide_eq_true_eq,
          decide_eq_true_eq] at space
      rcases within with rfl | ⟨tab, carriage⟩
      · exact absurd firstDigit (by decide)
      · simp only [Char.isDigit, Bool.and_eq_true, decide_eq_true_eq] at firstDigit
        exact absurd (Char.le_trans (show '0' ≤ first from firstDigit.1) carriage) (by decide)
    have notMinus : first ≠ '-' := by
      rintro rfl
      exact absurd firstDigit (by decide)
    have notPlus : first ≠ '+' := by
      rintro rfl
      exact absurd firstDigit (by decide)
    rw [stoul, List.dropWhile_cons_of_neg (by simp [notSpace])]
    dsimp only
    rw [if_neg notMinus, if_neg notPlus, taken, stoulDigits, if_neg (by simp), if_neg (by omega), if_neg (by simp)]

/-- An index as the standard has it is read alike. -/
theorem samePlace_of_numeral {token : Text} (numeral : IsNumeral token) (small : decimal token < 2 ^ 64)
    (bound : Nat) : SamePlace bound token := by
  intro place below
  rw [index, if_pos numeral, stoul_of_digits numeral.1 numeral.2.1 small]
  simp

section Walks

variable {N : Type}

/-- At every array on the way the token names the same place in both readings; an addition may name the end. -/
def Alike (spare : Nat) : List Text -> Doc N -> Prop
  | [], _ => True
  | token :: rest, document =>
    (∀ items, document = .array items -> SamePlace (items.length + if rest = [] then spare else 0) token) ∧
      ∀ inner, child document token = some inner -> Alike spare rest inner

/-! ## The evaluation as designed -/

/-- "/" is the whole document. -/
def placeOf (path : Text) : Option (List Text) :=
  if path = ['/'] then some [] else tokensOf path

/-- The way on from a document; an object that lacks the member leads to a new object. -/
def childOrNew (document : Doc N) (token : Text) : Option (Doc N) :=
  match document with
  | .object members => some ((members.lookup token).getD (.object []))
  | document => child document token

/-- An addition that makes what it lacks on the way. -/
def addMaking (value : Doc N) : List Text -> Doc N -> Option (Doc N)
  | [], _ => some value
  | [token], document => addChild token value document
  | token :: next :: rest, document =>
    (childOrNew document token).bind fun inner =>
      (addMaking value (next :: rest) inner).map (setChild document token)

theorem toOption_elementAt (items : List (Doc N)) (place : Nat) (otherwise : List Text) :
    (elementAt items place otherwise).toOption = items[place]? := by
  rw [elementAt]
  cases items[place]? with
  | none => rfl
  | some item => rfl

/-- One step into an array, and the element changed. -/
theorem changeElement_eq {items : List (Doc N)} {token : Text} (same : SamePlace items.length token)
    (path : Text) (otherwise : List Text) {change : Doc N -> Except PatchError (Doc N)}
    {changed : Doc N -> Option (Doc N)}
    (each : ∀ inner, child (.array items) token = some inner -> (change inner).toOption = changed inner) :
    (do
        let place ← parseArrayIndex token path
        let inner ← elementAt items place otherwise
        let value ← change inner
        .ok (.array (items.set place value)) : Except PatchError (Doc N)).toOption =
      (child (.array items) token).bind fun inner => (changed inner).map (setChild (.array items) token) := by
  rw [child_array, Option.bind_assoc]
  apply same.parsed path Except.toOption (fun error => rfl)
  · intro place read below
    rw [toOption_bind, toOption_elementAt]
    cases found : items[place]? with
    | none => rfl
    | some inner =>
      rw [Option.bind_some, Option.bind_some, toOption_bind,
        each inner (by rw [child_array, read, Option.bind_some, found])]
      cases changed inner with
      | none => rfl
      | some value => rw [Option.bind_some, Option.map_some, setChild_of_index read, toOption_ok]
  · intro place beyond
    rw [toOption_bind, toOption_elementAt, List.getElem?_eq_none beyond]
    exact ⟨rfl, rfl⟩

theorem valueAt_eq (path : Text) (tokens : List Text) : ∀ (document : Doc N), Alike 0 tokens document ->
    (valueAt path tokens document).toOption.join = get tokens document := by
  induction tokens with
  | nil =>
    intro document alike
    rfl
  | cons token rest ih =>
    intro document alike
    rw [get_cons]
    cases document with
    | object members =>
      rw [valueAt, child]
      cases found : members.lookup token with
      | none => rfl
      | some inner => exact ih inner (alike.2 inner found)
    | array items =>
      have same := alike.1 items rfl
      rw [ite_self, Nat.add_zero] at same
      rw [valueAt, child_array, Option.bind_assoc]
      apply same.parsed path (fun result => result.toOption.join) (fun error => rfl)
      · intro place read below
        cases found : items[place]? with
        | none => rfl
        | some inner => exact ih inner (alike.2 inner (by rw [child_array, read, Option.bind_some, found]))
      · intro place beyond
        rw [List.getElem?_eq_none beyond]
        exact ⟨rfl, rfl⟩
    | null | bool value | number value | string value => rfl

/-- Nothing is to be read in a document without arrays. -/
theorem alike_new (spare : Nat) (tokens : List Text) : Alike spare tokens (.object [] : Doc N) := by
  cases tokens with
  | nil => trivial
  | cons token rest =>
    constructor
    · intro items same
      cases same
    · intro inner entered
      cases entered

theorem addAt_eq (path : Text) (value : Doc N) (tokens : List Text) : ∀ (document : Doc N), tokens ≠ [] ->
    Alike 1 tokens document -> (addAt path value tokens document).toOption = addMaking value tokens document := by
  induction tokens with
  | nil =>
    intro document notEmpty alike
    exact absurd rfl notEmpty
  | cons token rest ih =>
    intro document notEmpty alike
    cases rest with
    | nil =>
      rw [addMaking]
      cases document with
      | object members | null | bool value | number value | string value => rfl
      | array items =>
        have same := alike.1 items rfl
        rw [if_pos rfl] at same
        rw [addAt, addChild]
        by_cases append : token = ['-']
        · rw [if_pos append, if_pos append, toOption_ok]
        · rw [if_neg append, if_neg append]
          apply same.parsed path Except.toOption (fun error => rfl)
          · intro place read below
            rw [if_neg (by omega), if_pos (by omega), toOption_ok]
          · intro place beyond
            rw [if_pos (by omega), if_neg (by omega)]
            exact ⟨rfl, rfl⟩
    | cons next rest =>
      rw [addMaking]
      cases document with
      | object members =>
        have inside : Alike 1 (next :: rest) ((members.lookup token).getD (.object [])) := by
          cases found : members.lookup token with
          | none => exact alike_new 1 _
          | some inner => exact alike.2 inner found
        rw [addAt, childOrNew, toOption_bind, ih _ (by simp) inside, Option.bind_some]
        cases addMaking value (next :: rest) ((members.lookup token).getD (.object [])) with
        | none => rfl
        | some changed => rfl
      | array items =>
        have same := alike.1 items rfl
        rw [if_neg (by simp), Nat.add_zero] at same
        exact changeElement_eq same path _ fun inner found =>
          ih inner (by simp) (alike.2 inner found)
      | null | bool value | number value | string value => rfl

theorem removeAt_eq (path : Text) (tokens : List Text) : ∀ (document : Doc N), Alike 0 tokens document ->
    (removeAt path tokens document).toOption = changeParent removeChild tokens document := by
  induction tokens with
  | nil =>
    intro document alike
    rfl
  | cons token rest ih =>
    intro document alike
    cases rest with
    | nil =>
      rw [changeParent]
      cases document with
      | object members =>
        rw [removeAt, removeChild]
        by_cases there : (members.lookup token).isSome = true
        · rw [if_pos there, if_pos there, toOption_ok]
        · rw [if_neg there, if_neg there, toOption_raise]
      | array items =>
        have same := alike.1 items rfl
        rw [ite_self, Nat.add_zero] at same
        apply same.parsed path Except.toOption (fun error => rfl)
        · intro place read below
          rw [if_neg (by omega), if_pos below, toOption_ok]
        · intro place beyond
          rw [if_pos beyond, if_neg (by omega)]
          exact ⟨rfl, rfl⟩
      | null | bool value | number value | string value => rfl
    | cons next rest =>
      rw [changeParent_cons]
      cases document with
      | object members =>
        rw [removeAt, child]
        cases found : members.lookup token with
        | none => rfl
        | some inner =>
          dsimp only
          rw [toOption_bind, Option.bind_some, ih inner (alike.2 inner found)]
          cases changeParent removeChild (next :: rest) inner with
          | none => rfl
          | some changed => rfl
      | array items =>
        have same := alike.1 items rfl
        rw [ite_self, Nat.add_zero] at same
        exact changeElement_eq same path _ fun inner found => ih inner (alike.2 inner found)
      | null | bool value | number value | string value => rfl

/-- What is found is assigned to. -/
theorem assignAt_eq (value : Doc N) (tokens : List Text) : ∀ (document found : Doc N),
    Alike 0 tokens document -> get tokens document = some found ->
      replace tokens value document = some (assignAt value tokens document) := by
  induction tokens with
  | nil =>
    intro document found alike get
    rfl
  | cons token rest ih =>
    intro document found alike get
    rw [get_cons] at get
    rcases Option.bind_eq_some_iff.mp get with ⟨inner, entered, getRest⟩
    rw [replace_cons, entered, Option.bind_some, ih inner found (alike.2 inner entered) getRest,
      Option.map_some]
    cases document with
    | object members =>
      have entered : members.lookup token = some inner := entered
      rw [assignAt, entered, setChild]
    | array items =>
      rw [child_array] at entered
      rcases Option.bind_eq_some_iff.mp entered with ⟨place, read, element⟩
      have below := (List.getElem?_eq_some_iff.mp element).1
      have number := (alike.1 items rfl place (by omega)).mp read
      rw [setChild_of_index read, assignAt, number]
      dsimp only
      rw [element]
    | null | bool value | number value | string value => cases entered

/-! ## Parents that are made -/

/-- Two tokens that name one place are the same. -/
theorem index_injective {token other : Text} {place : Nat} (read : index token = some place)
    (again : index other = some place) : token = other := by
  unfold index at read again
  split at read
  · rename_i numeral
    split at again
    · rename_i otherNumeral
      rw [← toDigits_decimal numeral, ← toDigits_decimal otherNumeral, Option.some.inj read,
        Option.some.inj again]
    · cases again
  · cases read

theorem setEntries_setEntries (key : Text) (first second : Doc N) (members : List (Text × Doc N)) :
    OrderedMap.setEntries key second (OrderedMap.setEntries key first members) =
      OrderedMap.setEntries key second members := by
  induction members with
  | nil => simp [OrderedMap.setEntries]
  | cons entry rest ih =>
    by_cases same : entry.1 = key
    · simp [OrderedMap.setEntries, same]
    · simp [OrderedMap.setEntries, same, ih]

theorem lookup_setEntries (key : Text) (value : Doc N) (members : List (Text × Doc N)) (other : Text) :
    (OrderedMap.setEntries key value members).lookup other =
      if other = key then some value else members.lookup other := by
  induction members with
  | nil =>
    by_cases same : other = key
    · simp [OrderedMap.setEntries, same]
    · simp [OrderedMap.setEntries, same, List.lookup_cons, beq_eq_false_iff_ne.mpr same]
  | cons entry rest ih =>
    rcases entry with ⟨name, old⟩
    by_cases same : name = key
    · by_cases found : other = key
      · simp [OrderedMap.setEntries, same, found]
      · simp [OrderedMap.setEntries, same, found, List.lookup_cons, beq_eq_false_iff_ne.mpr found]
    · rw [OrderedMap.setEntries, if_neg same, List.lookup_cons, List.lookup_cons, ih]
      by_cases found : other = name
      · simp [found, same]
      · rw [beq_eq_false_iff_ne.mpr found]

theorem setEntries_of_lookup {key : Text} {value : Doc N} {members : List (Text × Doc N)}
    (found : members.lookup key = some value) : OrderedMap.setEntries key value members = members := by
  induction members with
  | nil => cases found
  | cons entry rest ih =>
    rcases entry with ⟨name, old⟩
    by_cases same : key = name
    · rw [same, List.lookup_cons_self] at found
      cases found
      rw [OrderedMap.setEntries, if_pos same.symm, same]
    · rw [List.lookup_cons, beq_eq_false_iff_ne.mpr same] at found
      rw [OrderedMap.setEntries, if_neg (Ne.symm same), ih found]

/-- An element that has been read, with the number it was read by. -/
theorem element_of_parsed {A : Type} {items : List (Doc N)} {token path : Text} {otherwise : List Text}
    {next : Nat -> Doc N -> Except PatchError A} {result : A}
    (done : (do
      let place ← parseArrayIndex token path
      let inner ← elementAt items place otherwise
      next place inner) = .ok result) :
    ∃ place inner, stoul token = .value place ∧ items[place]? = some inner ∧ next place inner = .ok result := by
  cases parsed : parseArrayIndex token path with
  | error error =>
    rw [parsed] at done
    cases done
  | ok place =>
    rw [parsed] at done
    change (elementAt items place otherwise >>= _) = _ at done
    rw [elementAt] at done
    cases found : items[place]? with
    | none =>
      rw [found] at done
      cases done
    | some inner =>
      rw [found] at done
      exact ⟨place, inner, parseArrayIndex_eq_ok.mp parsed, found, done⟩

theorem makeParents_object {path token next : Text} {rest : List Text} {members : List (Text × Doc N)}
    {made : Doc N} (done : makeParents path (token :: next :: rest) (.object members) = .ok made) :
    ∃ inside, makeParents path (next :: rest) ((members.lookup token).getD (.object [])) = .ok inside ∧
      made = .object (OrderedMap.setEntries token inside members) := by
  rw [makeParents] at done
  cases below : makeParents path (next :: rest) ((members.lookup token).getD (.object [])) with
  | error error =>
    rw [below] at done
    cases done
  | ok inside =>
    rw [below] at done
    cases done
    exact ⟨inside, rfl, rfl⟩

theorem makeParents_array {path token next : Text} {rest : List Text} {items : List (Doc N)}
    {made : Doc N} (done : makeParents path (token :: next :: rest) (.array items) = .ok made) :
    ∃ place inner inside, stoul token = .value place ∧ items[place]? = some inner ∧
      makeParents path (next :: rest) inner = .ok inside ∧ made = .array (items.set place inside) := by
  rw [makeParents] at done
  rcases element_of_parsed done with ⟨place, inner, read, found, more⟩
  cases below : makeParents path (next :: rest) inner with
  | error error =>
    rw [below] at more
    cases more
  | ok inside =>
    rw [below] at more
    cases more
    exact ⟨place, inner, inside, read, found, below, rfl⟩

/-- An addition finds the parents it would have made. -/
theorem addAt_makeParents (path : Text) (value : Doc N) (tokens : List Text) : ∀ {document made : Doc N},
    makeParents path tokens document = .ok made -> addAt path value tokens made = addAt path value tokens document := by
  induction tokens with
  | nil =>
    intro document made done
    cases done
    rfl
  | cons token rest ih =>
    intro document made done
    cases rest with
    | nil =>
      cases done
      rfl
    | cons next rest =>
      cases document with
      | object members =>
        rcases makeParents_object done with ⟨inside, below, rfl⟩
        rw [addAt, addAt, lookup_setEntries, if_pos rfl, Option.getD_some, ih below]
        simp only [setEntries_setEntries]
      | array items =>
        rcases makeParents_array done with ⟨place, inner, inside, read, found, below, rfl⟩
        have within := (List.getElem?_eq_some_iff.mp found).1
        rw [addAt, addAt, parseArrayIndex_eq_ok.mpr read]
        change (elementAt _ place _ >>= _) = (elementAt _ place _ >>= _)
        rw [elementAt, elementAt, List.getElem?_set_self within, found]
        change (addAt path value (next :: rest) inside >>= _) = (addAt path value (next :: rest) inner >>= _)
        rw [ih below]
        simp only [List.set_set]
      | null | bool _ | number _ | string _ => cases done

/-- Where the parents cannot be made, nothing is added. -/
theorem addAt_of_makeParents_error (path : Text) (value : Doc N) (tokens : List Text) :
    ∀ {document : Doc N} {error : PatchError}, makeParents path tokens document = .error error ->
      (addAt path value tokens document).toOption = none := by
  induction tokens with
  | nil =>
    intro document error failed
    cases failed
  | cons token rest ih =>
    intro document error failed
    cases rest with
    | nil => cases failed
    | cons next rest =>
      cases document with
      | object members =>
        rw [makeParents] at failed
        rw [addAt, toOption_bind]
        cases below : makeParents path (next :: rest) ((members.lookup token).getD (.object [])) with
        | error error =>
          rw [ih below]
          rfl
        | ok inside =>
          rw [below] at failed
          cases failed
      | array items =>
        rw [makeParents] at failed
        rw [addAt]
        cases parsed : parseArrayIndex token path with
        | error error => rfl
        | ok place =>
          rw [parsed] at failed
          change (elementAt _ place _ >>= _) = _ at failed
          change (elementAt _ place _ >>= _).toOption = _
          cases found : elementAt items place ["Array index out of bounds: ".toList, token] with
          | error error => rfl
          | ok inner =>
            rw [found] at failed
            change (makeParents path (next :: rest) inner >>= _) = _ at failed
            change (addAt path value (next :: rest) inner >>= _).toOption = _
            rw [toOption_bind]
            cases below : makeParents path (next :: rest) inner with
            | error error =>
              rw [ih below]
              rfl
            | ok inside =>
              rw [below] at failed
              cases failed
      | null | bool _ | number _ | string _ => rfl

/-- Parents that are there are not made. -/
theorem makeParents_of_there (path : Text) (tokens : List Text) : ∀ {document made : Doc N}, Alike 1 tokens document ->
    (get tokens.dropLast document).isSome = true -> makeParents path tokens document = .ok made -> made = document := by
  induction tokens with
  | nil =>
    intro document made alike there done
    cases done
    rfl
  | cons token rest ih =>
    intro document made alike there done
    cases rest with
    | nil =>
      cases done
      rfl
    | cons next rest =>
      rw [List.dropLast_cons_of_ne_nil (by simp), get_cons] at there
      rcases Option.isSome_iff_exists.mp there with ⟨parent, found⟩
      rcases Option.bind_eq_some_iff.mp found with ⟨inner, entered, deeper⟩
      have inside := @ih inner
      cases document with
      | object members =>
        rcases makeParents_object done with ⟨made, below, rfl⟩
        have there : members.lookup token = some inner := entered
        rw [there, Option.getD_some] at below
        rw [inside (alike.2 inner entered) (by rw [deeper]; rfl) below, setEntries_of_lookup there]
      | array items =>
        rcases makeParents_array done with ⟨place, other, made, read, element, below, rfl⟩
        have within := (List.getElem?_eq_some_iff.mp element).1
        have named := (alike.1 items rfl place (by omega)).mpr read
        have same : other = inner := by
          rw [child_array, named, Option.bind_some, element] at entered
          exact Option.some.inj entered
        subst same
        rw [inside (alike.2 other entered) (by rw [deeper]; rfl) below,
          (List.getElem?_eq_some_iff.mp element).2.symm, List.set_getElem_self]
      | null | bool _ | number _ | string _ => cases done

/-- Making parents changes what stands at a place only if they are made inside it. -/
theorem makeParents_keeps (path : Text) (tokens : List Text) : ∀ {document made value : Doc N} {source : List Text},
    Alike 1 tokens document -> Alike 0 source document -> get source document = some value ->
      (source.isPrefixOf tokens = true -> (get tokens.dropLast document).isSome = true) ->
        makeParents path tokens document = .ok made -> get source made = some value ∧ Alike 0 source made := by
  induction tokens with
  | nil =>
    intro document made value source alike alikeSource stands apart done
    cases done
    exact ⟨stands, alikeSource⟩
  | cons token rest ih =>
    intro document made value source alike alikeSource stands apart done
    cases source with
    | nil =>
      rw [makeParents_of_there path _ alike (apart rfl) done]
      exact ⟨stands, alikeSource⟩
    | cons first others =>
      cases rest with
      | nil =>
        cases done
        exact ⟨stands, alikeSource⟩
      | cons next rest =>
        rw [get_cons] at stands
        rcases Option.bind_eq_some_iff.mp stands with ⟨inner, entered, deeper⟩
        -- on the same way the parents are made further down
        have along : first = token -> (List.isPrefixOf others (next :: rest) = true ->
            (get (next :: rest).dropLast inner).isSome = true) := by
          rintro rfl before
          have there := apart (by simpa using before)
          rwa [List.dropLast_cons_of_ne_nil (by simp), get_cons, entered, Option.bind_some] at there
        cases document with
        | object members =>
          rcases makeParents_object done with ⟨inside, below, rfl⟩
          have there : members.lookup first = some inner := entered
          have left : child (.object (OrderedMap.setEntries token inside members)) first =
              if first = token then some inside else some inner := by
            rw [child, lookup_setEntries, there]
          by_cases same : first = token
          · rw [same] at there entered
            rw [there, Option.getD_some] at below
            rcases ih (alike.2 inner entered) (alikeSource.2 inner (same ▸ entered)) deeper (along same) below with
              ⟨kept, alikeKept⟩
            rw [if_pos same] at left
            refine ⟨by rw [get_cons, left]; exact kept, fun items array => (by cases array), ?_⟩
            intro other found
            rw [left] at found
            cases found
            exact alikeKept
          · rw [if_neg same] at left
            refine ⟨by rw [get_cons, left]; exact deeper, fun items array => (by cases array), ?_⟩
            intro other found
            rw [left] at found
            cases found
            exact alikeSource.2 inner entered
        | array items =>
          rcases makeParents_array done with ⟨place, element, inside, read, found, below, rfl⟩
          have within := (List.getElem?_eq_some_iff.mp found).1
          have named := (alike.1 items rfl place (by omega)).mpr read
          rw [child_array] at entered
          rcases Option.bind_eq_some_iff.mp entered with ⟨number, numbered, there⟩
          have left : child (.array (items.set place inside)) first =
              if number = place then some inside else some inner := by
            rw [child_array, numbered, Option.bind_some, List.getElem?_set]
            by_cases same : place = number
            · rw [if_pos same, if_pos (by omega), if_pos same.symm]
            · rw [if_neg same, if_neg (Ne.symm same), there]
          have lengths : ∀ others, (.array (items.set place inside) : Doc N) = .array others ->
              SamePlace (others.length + if others = [] then 0 else 0) first := by
            intro others same
            cases same
            have before := alikeSource.1 items rfl
            rw [ite_self] at before ⊢
            rwa [List.length_set]
          by_cases same : number = place
          · have tokens : first = token := index_injective numbered (same ▸ named)
            have elements : element = inner := by
              rw [same, found] at there
              exact Option.some.inj there
            subst elements
            have enters : child (.array items) first = some element := by
              rw [child_array, numbered]
              exact there
            rcases ih (alike.2 element (tokens ▸ enters)) (alikeSource.2 element enters) deeper (along tokens)
              below with ⟨kept, alikeKept⟩
            rw [if_pos same] at left
            refine ⟨by rw [get_cons, left]; exact kept, ?_, ?_⟩
            · intro others array
              rw [ite_self]
              simpa using lengths others array
            · intro other reached
              rw [left] at reached
              cases reached
              exact alikeKept
          · rw [if_neg same] at left
            refine ⟨by rw [get_cons, left]; exact deeper, ?_, ?_⟩
            · intro others array
              rw [ite_self]
              simpa using lengths others array
            · intro other reached
              rw [left] at reached
              cases reached
              exact alikeSource.2 inner (by rw [child_array, numbered]; exact there)
        | null | bool _ | number _ | string _ => cases done

/-- Whether something can be added does not depend on what is added. -/
theorem addMaking_isSome (value other : Doc N) (tokens : List Text) : ∀ (document : Doc N),
    (addMaking value tokens document).isSome = (addMaking other tokens document).isSome := by
  induction tokens with
  | nil =>
    intro document
    rfl
  | cons token rest ih =>
    intro document
    cases rest with
    | nil =>
      cases document with
      | array items =>
        rw [addMaking, addMaking, addChild, addChild]
        by_cases append : token = ['-']
        · rw [if_pos append, if_pos append]
          rfl
        · rw [if_neg append, if_neg append]
          cases index token with
          | none => rfl
          | some place =>
            rw [Option.bind_some, Option.bind_some]
            by_cases within : place ≤ items.length
            · rw [if_pos within, if_pos within]
              rfl
            · rw [if_neg within, if_neg within]
      | object _ | null | bool _ | number _ | string _ => rfl
    | cons next rest =>
      rw [addMaking, addMaking]
      cases childOrNew document token with
      | none => rfl
      | some inner =>
        rw [Option.bind_some, Option.bind_some, Option.isSome_map, Option.isSome_map]
        exact ih inner

end Walks

/-! ## Paths -/

/-- A path with no tilde that escapes nothing, if it is a path at all. -/
def PlainPath (path : Text) : Prop :=
  path.head? = some '/' -> (tokensOf path).isSome = true

instance (path : Text) : Decidable (PlainPath path) :=
  inferInstanceAs (Decidable (_ -> _))

/-- A plain path stands for the whole document, for segments, or for nothing at all. -/
theorem PlainPath.cases {path : Text} (plain : PlainPath path) :
    (isRoot path = true ∧ placeOf path = some []) ∨
      (isRoot path = false ∧ ∃ token rest,
        placeOf path = some (token :: rest) ∧ parsePath path = token :: rest) ∨
      (isRoot path = false ∧ placeOf path = none ∧ parsePath path = []) := by
  by_cases root : path = ['/']
  · rw [root]
    exact Or.inl ⟨rfl, rfl⟩
  · rw [placeOf, if_neg root]
    cases path with
    | nil => exact Or.inl ⟨rfl, rfl⟩
    | cons char text =>
      have notRoot : isRoot (char :: text) = false := by
        simpa [isRoot] using root
      by_cases slash : char = '/'
      · rcases Option.isSome_iff_exists.mp (plain (by rw [slash]; rfl)) with ⟨tokens, read⟩
        have parsed := parsePath_eq read root
        cases tokens with
        | nil => exact absurd read (tokensOf_cons_ne_nil char text)
        | cons token rest => exact Or.inr (Or.inl ⟨notRoot, token, rest, read, parsed⟩)
      · refine Or.inr (Or.inr ⟨notRoot, ?_, parsePath_of_head ?_⟩)
        · rw [tokensOf, if_neg slash]
        · simpa using slash

section Operations

variable {N : Type} {path : Text} {document : Doc N}

/-- What is left where something is. -/
def removeWithin (tokens : List Text) (document : Doc N) : Option (Doc N) :=
  (remove tokens document).join

section

variable (plain : PlainPath path)

include plain

theorem applyAdd_eq (value : Doc N) (alike : ∀ tokens, placeOf path = some tokens -> Alike 1 tokens document) :
    (applyAdd path value document).toOption = (placeOf path).bind fun tokens => addMaking value tokens document := by
  rcases plain.cases with ⟨root, read⟩ | ⟨notRoot, token, rest, read, parsed⟩ | ⟨notRoot, read, parsed⟩
  · rw [read, applyAdd, if_pos root]
    rfl
  · rw [applyAdd, if_neg (by simp [notRoot]), parsed, read, Option.bind_some]
    exact addAt_eq path value _ document (by simp) (alike _ read)
  · rw [applyAdd, if_neg (by simp [notRoot]), parsed, read]
    rfl

section

variable (alike : ∀ tokens, placeOf path = some tokens -> Alike 0 tokens document)

include alike

theorem getValueAtPath_eq :
    (getValueAtPath path document).toOption.join = (placeOf path).bind fun tokens => get tokens document := by
  rcases plain.cases with ⟨root, read⟩ | ⟨notRoot, token, rest, read, parsed⟩ | ⟨notRoot, read, parsed⟩
  · rw [read, getValueAtPath, if_pos root]
    rfl
  · rw [getValueAtPath, if_neg (by simp [notRoot]), parsed, read, Option.bind_some]
    exact valueAt_eq path _ document (alike _ read)
  · rw [getValueAtPath, if_neg (by simp [notRoot]), parsed, read]
    rfl

theorem applyRemove_eq :
    (applyRemove path document).toOption = (placeOf path).bind fun tokens => removeWithin tokens document := by
  rcases plain.cases with ⟨root, read⟩ | ⟨notRoot, token, rest, read, parsed⟩ | ⟨notRoot, read, parsed⟩
  · rw [read, applyRemove, if_pos root]
    rfl
  · rw [applyRemove, if_neg (by simp [notRoot]), parsed, read, Option.bind_some, removeWithin, remove,
      if_neg (by simp), removeAt_eq path _ document (alike _ read)]
    cases changeParent removeChild (token :: rest) document with
    | none => rfl
    | some changed => rfl
  · rw [applyRemove, if_neg (by simp [notRoot]), parsed, read]
    rfl

theorem sourceAt_eq :
    (sourceAt path document).toOption = (placeOf path).bind fun tokens => get tokens document := by
  rw [← getValueAtPath_eq plain alike, sourceAt, toOption_bind]
  cases getValueAtPath path document with
  | error error => rfl
  | ok found =>
    cases found with
    | none => rfl
    | some value => rfl

end

theorem applyReplace_eq (value : Doc N)
    (alike : ∀ tokens, placeOf path = some tokens -> Alike 0 tokens document) :
    (applyReplace path value document).toOption =
      (placeOf path).bind fun tokens => replace tokens value document := by
  have found := getValueAtPath_eq plain alike
  rcases plain.cases with ⟨root, read⟩ | ⟨notRoot, token, rest, read, parsed⟩ | ⟨notRoot, read, parsed⟩
  · rw [read, applyReplace, if_pos root]
    rfl
  · rw [read, Option.bind_some] at found
    rw [applyReplace, if_neg (by simp [notRoot]), toOption_bind, parsed, read, Option.bind_some]
    cases reached : getValueAtPath path document with
    | error error =>
      rw [reached] at found
      rw [replace_eq_none value found.symm]
      rfl
    | ok target =>
      rw [reached, toOption_ok, Option.join_some] at found
      cases target with
      | none =>
        rw [replace_eq_none value found.symm]
        rfl
      | some actual =>
        rw [assignAt_eq value _ document actual (alike _ read) found.symm]
        rfl
  · rw [applyReplace, if_neg (by simp [notRoot]), getValueAtPath, if_neg (by simp [notRoot]), parsed, read]
    rfl

end

variable (sameNumber : N -> N -> Bool)

theorem applyTest_eq (plain : PlainPath path) (value : Doc N)
    (alike : ∀ tokens, placeOf path = some tokens -> Alike 0 tokens document) :
    (applyTest sameNumber path value document).toOption =
      (placeOf path).bind fun tokens =>
        (get tokens document).bind fun actual =>
          if equal sameNumber actual value then some document else none := by
  rw [← Option.bind_assoc, ← getValueAtPath_eq plain alike, applyTest, toOption_bind]
  cases getValueAtPath path document with
  | error error => rfl
  | ok found =>
    cases found with
    | none => rfl
    | some actual =>
      rw [toOption_ok, Option.bind_some, Option.join_some, Option.bind_some, apply_ite Except.toOption]
      rfl

/-- Nothing is added where a path stands for nothing. -/
theorem applyAdd_of_unread (plain : PlainPath path) (unread : placeOf path = none) (value document : Doc N) :
    (applyAdd path value document).toOption = none := by
  rw [applyAdd_eq plain value (fun tokens read => by rw [unread] at read; cases read), unread]
  rfl

theorem applyCopy_of_unread (plain : PlainPath path) (unread : placeOf path = none) (source : Text)
    (document : Doc N) : (applyCopy source path document).toOption = none := by
  rw [applyCopy, toOption_bind, Option.bind_eq_none_iff]
  intro value stands
  by_cases root : isRoot path = true
  · rw [if_pos root]
    simp only [toOption_bind, applyAdd_of_unread plain unread, Option.bind_fun_none]
  · rw [if_neg root]
    simp only [toOption_bind, applyAdd_of_unread plain unread, Option.bind_fun_none]

/-- No parents are made inside the source, where the addition can be carried out. -/
def ParentsApart (source path : List Text) (document : Doc N) : Prop :=
  source.isPrefixOf path = true -> (addMaking .null path document).isSome = true ->
    (get path.dropLast document).isSome = true

/-- The value that is copied when the parents are made is the one that was at the source. -/
theorem copyMade_eq {source : Text} (plainSource : PlainPath source) {tokens others : List Text} {value : Doc N}
    (readSource : placeOf source = some tokens) (found : get tokens document = some value)
    (alikeSource : Alike 0 tokens document) (alike : Alike 1 others document)
    (apart : ParentsApart tokens others document) (notEmpty : others ≠ []) :
    (do
        let made ← makeParents path others document
        let value ← sourceAt source made
        addAt path value others made : Except PatchError (Doc N)).toOption = addMaking value others document := by
  have adds := addAt_eq path value others document notEmpty alike
  rw [toOption_bind, ← adds]
  cases making : makeParents path others document with
  | error error =>
    rw [addAt_of_makeParents_error path value others making]
    rfl
  | ok made =>
    have added : ∀ other, addAt path other others made = addAt path other others document :=
      fun other => addAt_makeParents path other others making
    rw [toOption_ok, Option.bind_some, toOption_bind]
    by_cases there : (addMaking .null others document).isSome = true
    · rcases makeParents_keeps path others alike alikeSource found (fun before => apart before there) making with
        ⟨kept, alikeKept⟩
      have alikeMade : ∀ tokens', placeOf source = some tokens' -> Alike 0 tokens' made := by
        intro tokens' read
        rw [readSource] at read
        cases read
        exact alikeKept
      rw [sourceAt_eq plainSource alikeMade, readSource, Option.bind_some, kept, Option.bind_some, added]
    · have never : ∀ other, (addAt path other others made).toOption = none := by
        intro other
        rw [added, addAt_eq path other others document notEmpty alike, ← Option.not_isSome_iff_eq_none,
          addMaking_isSome other .null]
        exact there
      simp only [never, Option.bind_fun_none, ← added]

theorem applyCopy_eq {source : Text} (plainSource : PlainPath source) (plain : PlainPath path)
    {others : List Text} (read : placeOf path = some others)
    (alike : ∀ tokens, placeOf source = some tokens -> Alike 0 tokens document ∧
      ((get tokens document).isSome = true -> Alike 1 others document ∧ ParentsApart tokens others document)) :
    (applyCopy source path document).toOption =
      (placeOf source).bind fun tokens =>
        (get tokens document).bind fun value => addMaking value others document := by
  rw [applyCopy, toOption_bind]
  have stands := sourceAt_eq plainSource fun tokens readSource => (alike tokens readSource).1
  cases readSource : placeOf source with
  | none =>
    rw [readSource, Option.bind_none] at stands
    rw [stands]
    rfl
  | some tokens =>
    rw [readSource, Option.bind_some] at stands
    rw [stands, Option.bind_some]
    apply Option.bind_congr
    intro value found
    rcases (alike tokens readSource).2 (by rw [found]; rfl) with ⟨alikePath, apart⟩
    rcases plain.cases with ⟨root, readRoot⟩ | ⟨notRoot, token, rest, readPath, parsed⟩ | ⟨notRoot, unread, parsed⟩
    · rw [read] at readRoot
      cases readRoot
      rw [if_pos root]
      change (sourceAt source document >>= fun value => applyAdd path value document).toOption = _
      rw [toOption_bind, stands, found, Option.bind_some, applyAdd, if_pos root]
      rfl
    · rw [read] at readPath
      cases readPath
      simp only [applyAdd, notRoot, parsed]
      exact copyMade_eq plainSource readSource found (alike tokens readSource).1 alikePath apart (by simp)
    · rw [read] at unread
      cases unread

theorem applyMove_eq {source : Text} (plainSource : PlainPath source) (plain : PlainPath path)
    {others : List Text} (read : placeOf path = some others)
    (alike : ∀ tokens, placeOf source = some tokens -> Alike 0 tokens document ∧
      ((get tokens document).isSome = true ->
        ∀ rest, removeWithin tokens document = some rest -> Alike 1 others rest)) :
    (applyMove source path document).toOption =
      (placeOf source).bind fun tokens =>
        (get tokens document).bind fun value =>
          (removeWithin tokens document).bind fun rest => addMaking value others rest := by
  have alikeSource := fun tokens readSource => (alike tokens readSource).1
  have removed := applyRemove_eq plainSource alikeSource
  rw [applyMove, toOption_bind, sourceAt_eq plainSource alikeSource, Option.bind_assoc]
  apply Option.bind_congr
  intro tokens readSource
  apply Option.bind_congr
  intro value found
  rw [readSource, Option.bind_some] at removed
  rw [toOption_bind, removed]
  apply Option.bind_congr
  intro rest kept
  rw [applyAdd_eq plain value, read, Option.bind_some]
  intro others' read'
  rw [read] at read'
  cases read'
  exact (alike tokens readSource).2 (by rw [found]; rfl) rest kept

/-! ## Reading operations -/

variable (json : Doc N)

theorem toOption_textAt (key : Text) : (textAt json key).toOption = textOf json key := by
  unfold textAt textOf memberOf
  cases json with
  | object members =>
    dsimp only
    cases members.lookup key with
    | none => rfl
    | some value =>
      cases value with
      | _ => rfl
  | _ => rfl

theorem memberAt_eq (key : Text) : memberAt json key = memberOf json key := by
  cases json with
  | _ => rfl

/-- What is read of an operation whose name and path are texts. -/
def opOf (op : PatchOperation) (path : Text) (json : Doc N) (source : Text) : JsonPatchOp N :=
  { op := op, path := path, value := (memberOf json "value".toList).getD .null,
    hasValue := (memberOf json "value".toList).isSome, source := source }

theorem toOption_fromJson :
    (JsonPatchOp.fromJson json).toOption =
      (textOf json "op".toList).bind fun name =>
        (operationNames.lookup name).bind fun op =>
          (textOf json "path".toList).bind fun path =>
            (if (memberOf json "from".toList).isSome = true then textOf json "from".toList else some []).map
              (opOf op path json) := by
  rw [JsonPatchOp.fromJson, toOption_bind, toOption_textAt]
  apply Option.bind_congr
  intro name named
  cases operationNames.lookup name with
  | none => rfl
  | some op =>
    rw [Option.bind_some]
    dsimp only
    rw [toOption_bind, toOption_textAt]
    apply Option.bind_congr
    intro path isPath
    rw [memberAt_eq, memberAt_eq]
    by_cases there : (memberOf json "from".toList).isSome = true
    · rw [if_pos there, if_pos there, toOption_bind, toOption_textAt]
      cases textOf json "from".toList with
      | none => rfl
      | some source => rfl
    · rw [if_neg there, if_neg there]
      rfl

/-! ## Steps -/

/-- One operation as designed. -/
def performDesigned (operation : Operation N) (document : Doc N) : Option (Doc N) :=
  match operation with
  | .add path value => addMaking value path document
  | .remove path => removeWithin path document
  | .replace path value => replace path value document
  | .move source path =>
    if source.isPrefixOf path && source ≠ path then none
    else
      (get source document).bind fun value =>
        (removeWithin source document).bind fun rest => addMaking value path rest
  | .copy source path => (get source document).bind fun value => addMaking value path document
  | .test path value =>
    (get path document).bind fun actual => if equal sameNumber actual value then some document else none

/-- One operation object as designed. -/
def designedStep (json document : Doc N) : Option (Doc N) :=
  (readOperation placeOf json).bind fun operation => performDesigned sameNumber operation document

/-- The patch as designed: one operation after the other, up to the first that fails. -/
def evaluateDesigned (patch : List (Doc N)) (document : Doc N) : Option (Doc N) :=
  patch.foldlM (fun document json => designedStep sameNumber json document) document

/-- The places an operation uses are read alike in the document it arrives at. -/
def ReadAlike (document : Doc N) : Operation N -> Prop
  | .add path _ => Alike 1 path document
  | .remove path => Alike 0 path document
  | .replace path _ => Alike 0 path document
  | .test path _ => Alike 0 path document
  | .copy source path =>
    Alike 0 source document ∧
      ((get source document).isSome = true -> Alike 1 path document ∧ ParentsApart source path document)
  | .move source path =>
    Alike 0 source document ∧
      ((get source document).isSome = true ->
        (source ≠ [] -> source.isPrefixOf path = true -> source = path) ∧
          ∀ rest, removeWithin source document = some rest -> Alike 1 path rest)

/-- An operation of a patch that makes no use of what the manager reads more freely than it should. -/
structure Strict (json document : Doc N) : Prop where
  /-- What an operation has no use for is absent, or is a text. -/
  idle : textOf json "op".toList ≠ some "move".toList -> textOf json "op".toList ≠ some "copy".toList ->
    (memberOf json "from".toList).isSome = true -> (textOf json "from".toList).isSome = true
  value : textOf json "op".toList = some "add".toList ∨ textOf json "op".toList = some "replace".toList ∨
      textOf json "op".toList = some "test".toList ->
    (memberOf json "value".toList).isSome = true
  source : textOf json "op".toList = some "copy".toList -> (memberOf json "from".toList).isSome = true
  paths : ∀ path, textOf json "path".toList = some path -> PlainPath path
  sources : textOf json "op".toList = some "move".toList ∨ textOf json "op".toList = some "copy".toList ->
    ∀ path, textOf json "from".toList = some path -> PlainPath path
  alike : ∀ operation, readOperation placeOf json = some operation -> ReadAlike document operation

/-- One operation, read and carried out. -/
def applyStep (json document : Doc N) : Except PatchError (Doc N) :=
  (JsonPatchOp.fromJson json).bind fun op => applyPatchOp sameNumber op document

theorem toOption_applyStep :
    (applyStep sameNumber json document).toOption =
      (JsonPatchOp.fromJson json).toOption.bind fun op => (applyPatchOp sameNumber op document).toOption :=
  toOption_bind _ _

theorem readOperation_of_name {json : Doc N} {name : Text} {tokens : List Text}
    (named : textOf json "op".toList = some name) (isPath : textOf json "path".toList = some path)
    (read : placeOf path = some tokens) : readOperation placeOf json = operationNamed placeOf json name tokens := by
  rw [readOperation, named, Option.bind_some, readOf, isPath, Option.bind_some, read, Option.bind_some]

variable {op : PatchOperation}

/-- An operation with a name and with what its name asks for: it is left to compare what is done at its path. -/
theorem applyStep_of_name {json : Doc N} {name source : Text}
    (named : textOf json "op".toList = some name) (known : operationNames.lookup name = some op)
    (isSource : (if (memberOf json "from".toList).isSome = true then textOf json "from".toList else some []) =
      some source) (each : ∀ path, textOf json "path".toList = some path ->
      (applyPatchOp sameNumber (opOf op path json source) document).toOption =
        (placeOf path).bind fun tokens =>
          (operationNamed placeOf json name tokens).bind fun operation =>
            performDesigned sameNumber operation document) :
    (applyStep sameNumber json document).toOption = designedStep sameNumber json document := by
  rw [toOption_applyStep, toOption_fromJson, named, Option.bind_some, known, Option.bind_some, isSource]
  rw [designedStep, readOperation, named, Option.bind_some, readOf, Option.bind_assoc, Option.bind_assoc]
  cases isPath : textOf json "path".toList with
  | none => rfl
  | some path => exact each path isPath

/-- What an operation has no use for is read as some text. -/
theorem Strict.exists_source {json : Doc N} (strict : Strict json document)
    (notMove : textOf json "op".toList ≠ some "move".toList) (notCopy : textOf json "op".toList ≠ some "copy".toList) :
    ∃ source,
      (if (memberOf json "from".toList).isSome = true then textOf json "from".toList else some []) = some source := by
  by_cases there : (memberOf json "from".toList).isSome = true
  · rw [if_pos there]
    exact Option.isSome_iff_exists.mp (strict.idle notMove notCopy there)
  · rw [if_neg there]
    exact ⟨[], rfl⟩

/-- An operation that takes a value, which is given. -/
theorem applyStep_of_value {json : Doc N} {name : Text}
    {make : List Text -> Doc N -> Operation N} (strict : Strict json document)
    (named : textOf json "op".toList = some name) (known : operationNames.lookup name = some op)
    (notMove : name ≠ "move".toList) (notCopy : name ≠ "copy".toList)
    (hasValue : (memberOf json "value".toList).isSome = true)
    (made : ∀ tokens, operationNamed placeOf json name tokens = (memberOf json "value".toList).map (make tokens))
    (each : ∀ path value source, textOf json "path".toList = some path -> PlainPath path ->
      (∀ tokens, placeOf path = some tokens -> ReadAlike document (make tokens value)) ->
      (applyPatchOp sameNumber { op := op, path := path, value := value, hasValue := true, source := source }
          document).toOption =
        (placeOf path).bind fun tokens => performDesigned sameNumber (make tokens value) document) :
    (applyStep sameNumber json document).toOption = designedStep sameNumber json document := by
  rcases strict.exists_source (by rw [named]; simpa using notMove) (by rw [named]; simpa using notCopy) with
    ⟨source, isSource⟩
  rcases Option.isSome_iff_exists.mp hasValue with ⟨value, isValue⟩
  apply applyStep_of_name sameNumber named known isSource
  intro path isPath
  simp only [made, isValue, Option.map_some, Option.bind_some, opOf, Option.getD_some, Option.isSome_some]
  apply each path value source isPath (strict.paths path isPath)
  intro tokens read
  apply strict.alike
  rw [readOperation_of_name named isPath read, made, isValue, Option.map_some]

theorem applyStep_add {json : Doc N} (strict : Strict json document)
    (named : textOf json "op".toList = some "add".toList) :
    (applyStep sameNumber json document).toOption = designedStep sameNumber json document := by
  have known : operationNames.lookup "add".toList = some .add := by
    decide
  apply applyStep_of_value sameNumber strict named known (by decide) (by decide) (strict.value (Or.inl named))
  · intro tokens
    rw [operationNamed, if_pos rfl]
  · intro path value source isPath plain alike
    exact applyAdd_eq plain value alike

theorem applyStep_remove {json : Doc N} (strict : Strict json document)
    (named : textOf json "op".toList = some "remove".toList) :
    (applyStep sameNumber json document).toOption = designedStep sameNumber json document := by
  have known : operationNames.lookup "remove".toList = some .remove := by
    decide
  rcases strict.exists_source (by rw [named]; decide) (by rw [named]; decide) with ⟨source, isSource⟩
  apply applyStep_of_name sameNumber named known isSource
  intro path isPath
  have operation : ∀ tokens, operationNamed placeOf json "remove".toList tokens = some (.remove tokens) := by
    intro tokens
    rw [operationNamed, if_neg (by decide), if_pos rfl]
  simp only [operation, Option.bind_some]
  exact applyRemove_eq (strict.paths path isPath) fun tokens read =>
    strict.alike _ ((readOperation_of_name named isPath read).trans (operation tokens))

theorem applyStep_replace {json : Doc N} (strict : Strict json document)
    (named : textOf json "op".toList = some "replace".toList) :
    (applyStep sameNumber json document).toOption = designedStep sameNumber json document := by
  have known : operationNames.lookup "replace".toList = some .replace := by
    decide
  apply applyStep_of_value sameNumber strict named known (by decide) (by decide)
    (strict.value (Or.inr (Or.inl named)))
  · intro tokens
    rw [operationNamed, if_neg (by decide), if_neg (by decide), if_pos rfl]
  · intro path value source isPath plain alike
    exact applyReplace_eq plain value alike

theorem applyStep_test {json : Doc N} (strict : Strict json document)
    (named : textOf json "op".toList = some "test".toList) :
    (applyStep sameNumber json document).toOption = designedStep sameNumber json document := by
  have known : operationNames.lookup "test".toList = some .test := by
    decide
  apply applyStep_of_value sameNumber strict named known (by decide) (by decide)
    (strict.value (Or.inr (Or.inr named)))
  · intro tokens
    rw [operationNamed, if_neg (by decide), if_neg (by decide), if_neg (by decide), if_neg (by decide),
      if_neg (by decide), if_pos rfl]
  · intro path value source isPath plain alike
    exact applyTest_eq sameNumber plain value alike

/-- An operation whose source is no text, where its name asks for one. -/
theorem applyStep_of_no_source {json : Doc N} {name : Text}
    (named : textOf json "op".toList = some name) (known : operationNames.lookup name = some op)
    (there : (memberOf json "from".toList).isSome = true) (noText : textOf json "from".toList = none)
    (none : ∀ tokens, operationNamed placeOf json name tokens = none) :
    (applyStep sameNumber json document).toOption = designedStep sameNumber json document := by
  have nothing : readOperation placeOf json = .none := by
    rw [readOperation, named, Option.bind_some, Option.bind_eq_none_iff]
    exact fun tokens read => none tokens
  rw [toOption_applyStep, toOption_fromJson, named, Option.bind_some, known, Option.bind_some, if_pos there, noText,
    designedStep, nothing]
  cases textOf json "path".toList with
  | none => rfl
  | some path => rfl

theorem applyStep_copy {json : Doc N} (strict : Strict json document)
    (named : textOf json "op".toList = some "copy".toList) :
    (applyStep sameNumber json document).toOption = designedStep sameNumber json document := by
  have known : operationNames.lookup "copy".toList = some .copy := by
    decide
  have operation : ∀ tokens, operationNamed placeOf json "copy".toList tokens =
      (readOf placeOf json "from".toList).map (.copy · tokens) := by
    intro tokens
    rw [operationNamed, if_neg (by decide), if_neg (by decide), if_neg (by decide), if_neg (by decide), if_pos rfl]
  cases isFrom : textOf json "from".toList with
  | none =>
    apply applyStep_of_no_source sameNumber named known (strict.source named) isFrom
    intro tokens
    rw [operation, readOf, isFrom]
    rfl
  | some source =>
    apply applyStep_of_name sameNumber named known ((if_pos (strict.source named)).trans isFrom)
    intro path isPath
    have plainSource := strict.sources (Or.inr named) source isFrom
    have plain := strict.paths path isPath
    rw [applyPatchOp, opOf]
    dsimp only
    cases read : placeOf path with
    | none =>
      rw [applyCopy_of_unread plain read]
      rfl
    | some others =>
      rw [Option.bind_some, operation, readOf, isFrom, Option.bind_some]
      rw [applyCopy_eq plainSource plain read]
      · cases placeOf source with
        | none => rfl
        | some tokens => rfl
      · intro tokens readSource
        apply strict.alike (.copy tokens others)
        rw [readOperation_of_name named isPath read, operation, readOf, isFrom, Option.bind_some, readSource,
          Option.map_some]

/-- The root cannot be removed, and so it is not moved. -/
theorem applyMove_root (path : Text) (document : Doc N) : (applyMove [] path document).toOption = none := by
  rfl

theorem applyStep_move {json : Doc N} (strict : Strict json document)
    (named : textOf json "op".toList = some "move".toList) :
    (applyStep sameNumber json document).toOption = designedStep sameNumber json document := by
  have known : operationNames.lookup "move".toList = some .move := by
    decide
  have operation : ∀ tokens, operationNamed placeOf json "move".toList tokens =
      (readOf placeOf json "from".toList).map (.move · tokens) := by
    intro tokens
    rw [operationNamed, if_neg (by decide), if_neg (by decide), if_neg (by decide), if_pos rfl]
  cases isFrom : textOf json "from".toList with
  | none =>
    by_cases there : (memberOf json "from".toList).isSome = true
    · apply applyStep_of_no_source sameNumber named known there isFrom
      intro tokens
      rw [operation, readOf, isFrom]
      rfl
    · apply applyStep_of_name sameNumber named known (if_neg there)
      intro path isPath
      simp only [operation, readOf, isFrom, applyPatchOp, opOf, applyMove_root]
      exact (Option.bind_fun_none _).symm
  | some source =>
    have there : (memberOf json "from".toList).isSome = true := by
      cases found : memberOf json "from".toList with
      | none =>
        rw [textOf, found] at isFrom
        cases isFrom
      | some value => rfl
    apply applyStep_of_name sameNumber named known ((if_pos there).trans isFrom)
    intro path isPath
    have plainSource := strict.sources (Or.inl named) source isFrom
    have plain := strict.paths path isPath
    rw [applyPatchOp, opOf]
    dsimp only
    cases read : placeOf path with
    | none =>
      rw [applyMove, toOption_bind]
      simp only [toOption_bind, applyAdd_of_unread plain read, Option.bind_fun_none]
      rfl
    | some others =>
      have alike : ∀ tokens, placeOf source = some tokens -> ReadAlike document (.move tokens others) := by
        intro tokens readSource
        apply strict.alike
        rw [readOperation_of_name named isPath read, operation, readOf, isFrom, Option.bind_some, readSource,
          Option.map_some]
      rw [Option.bind_some, operation, readOf, isFrom, Option.bind_some,
        applyMove_eq plainSource plain read fun tokens readSource =>
          ⟨(alike tokens readSource).1, fun found => ((alike tokens readSource).2 found).2⟩]
      cases readSource : placeOf source with
      | none => rfl
      | some tokens =>
        rw [Option.bind_some, Option.map_some, Option.bind_some, performDesigned]
        by_cases root : tokens = []
        · subst root
          exact (ite_self none).symm
        · cases found : get tokens document with
          | none =>
            rw [Option.bind_none, ite_self]
          | some value =>
            have within := ((alike tokens readSource).2 (by rw [found]; rfl)).1 root
            rw [if_neg]
            simpa using within

/-- A name that is none of the six. -/
theorem applyStep_of_unknown {json : Doc N} {name : Text} (named : textOf json "op".toList = some name)
    (unknown : name ∉ operationNames.map Prod.fst) :
    (applyStep sameNumber json document).toOption = designedStep sameNumber json document := by
  have notKnown : operationNames.lookup name = none := by
    rw [List.lookup_eq_none_iff]
    intro entry member
    simpa using fun same : name = entry.1 => unknown (by rw [same]; exact List.mem_map_of_mem member)
  have nothing : ∀ tokens, operationNamed placeOf json name tokens = none := by
    intro tokens
    have each : ∀ other ∈ operationNames.map Prod.fst, name ≠ other := by
      intro other member same
      exact unknown (by rw [same]; exact member)
    rw [operationNamed, if_neg (each _ (by decide)), if_neg (each _ (by decide)), if_neg (each _ (by decide)),
      if_neg (each _ (by decide)), if_neg (each _ (by decide)), if_neg (each _ (by decide))]
  have unread : readOperation placeOf json = none := by
    rw [readOperation, named, Option.bind_some, Option.bind_eq_none_iff]
    exact fun tokens read => nothing tokens
  rw [toOption_applyStep, toOption_fromJson, named, Option.bind_some, notKnown, designedStep, unread]
  rfl

/-- The manager takes the object for an operation. -/
def Taken (json : Doc N) : Prop :=
  (∃ name, textOf json "op".toList = some name ∧ name ∈ operationNames.map Prod.fst) ∧
    (textOf json "path".toList).isSome = true

/-- One operation, whatever it is called. -/
theorem applyStep_eq {json : Doc N} (strict : Taken json -> Strict json document) :
    (applyStep sameNumber json document).toOption = designedStep sameNumber json document := by
  cases named : textOf json "op".toList with
  | none =>
    rw [toOption_applyStep, toOption_fromJson, designedStep, readOperation, named]
    rfl
  | some name =>
    by_cases known : name ∈ operationNames.map Prod.fst
    · cases isPath : textOf json "path".toList with
      | none =>
        rw [toOption_applyStep, toOption_fromJson, designedStep, readOperation, named, readOf, isPath,
          Option.bind_some]
        cases operationNames.lookup name with
        | none => rfl
        | some op => rfl
      | some path =>
        have strict := strict ⟨⟨name, named, known⟩, by rw [isPath]; rfl⟩
        have names : name = "add".toList ∨ name = "remove".toList ∨ name = "replace".toList ∨
            name = "move".toList ∨ name = "copy".toList ∨ name = "test".toList := by
          simpa [operationNames] using known
        rcases names with rfl | rfl | rfl | rfl | rfl | rfl
        · exact applyStep_add sameNumber strict named
        · exact applyStep_remove sameNumber strict named
        · exact applyStep_replace sameNumber strict named
        · exact applyStep_move sameNumber strict named
        · exact applyStep_copy sameNumber strict named
        · exact applyStep_test sameNumber strict named
    · exact applyStep_of_unknown sameNumber named known

/-! ## Patches -/

/-- Every operation is strict in the document it arrives at. -/
def StrictAlong : List (Doc N) -> Doc N -> Prop
  | [], _ => True
  | json :: rest, document =>
    (Taken json -> Strict json document) ∧
      ∀ next, designedStep sameNumber json document = some next -> StrictAlong rest next

theorem applyOps_cons (rest : List (Doc N)) (document : Doc N) :
    applyOps sameNumber (json :: rest) document =
      applyStep sameNumber json document >>= applyOps sameNumber rest := by
  rfl

theorem evaluateDesigned_cons (rest : List (Doc N)) (document : Doc N) :
    evaluateDesigned sameNumber (json :: rest) document =
      (designedStep sameNumber json document).bind (evaluateDesigned sameNumber rest) := by
  rfl

/-- A whole patch, by induction on its operations. -/
theorem applyOps_eq (patch : List (Doc N)) : ∀ (document : Doc N), StrictAlong sameNumber patch document ->
    (applyOps sameNumber patch document).toOption = evaluateDesigned sameNumber patch document := by
  induction patch with
  | nil =>
    intro document strict
    rfl
  | cons json rest ih =>
    intro document strict
    rw [applyOps_cons, toOption_bind, evaluateDesigned_cons, applyStep_eq sameNumber strict.1]
    apply Option.bind_congr
    intro next step
    exact ih next (strict.2 next step)

end Operations

/-- A patch whose operations are strict where they arrive comes to the document the evaluation prescribes, and is
rejected where the evaluation fails. -/
theorem applyPatch_strict {N : Type} (sameNumber : N -> N -> Bool) (manager : StateManager N)
    (operations : List (Doc N)) (strict : StrictAlong sameNumber operations manager.currentState) :
    ((manager.applyPatch sameNumber (.array operations)).2 = none ↔
        (evaluateDesigned sameNumber operations manager.currentState).isSome = true) ∧
      ∀ document, evaluateDesigned sameNumber operations manager.currentState = some document ->
        (manager.applyPatch sameNumber (.array operations)).1.currentState = document := by
  have agreed := applyOps_eq sameNumber operations manager.currentState strict
  rw [← agreed, StateManager.applyPatch]
  cases applied : applyOps sameNumber operations manager.currentState with
  | error error =>
    dsimp only
    constructor
    · simp [Except.toOption]
    · intro document same
      cases same
  | ok state =>
    dsimp only
    constructor
    · simp [Except.toOption]
    · intro document same
      cases same
      rfl

/-- Parents are made, where the standard has an error. -/
theorem applyPatch_makes_parent :
    ¬ ∀ (manager : StateManager Nat) (operations : List (Doc Nat)),
      ((manager.applyPatch (fun left right => left == right) (.array operations)).2 = none ↔
          (evaluateAll (fun left right => left == right) operations manager.currentState).isSome = true) ∧
        ∀ document,
          evaluateAll (fun left right => left == right) operations manager.currentState = some document ->
            (manager.applyPatch (fun left right => left == right) (.array operations)).1.currentState = document := by
  intro always
  have succeeds := (always { currentState := .object [] }
    [.object [("op".toList, .string "add".toList), ("path".toList, .string "/a/b".toList),
      ("value".toList, .null)]]).1.mp rfl
  exact absurd succeeds (by decide)

/-! ### An addition -/

def insertFirst : Doc Nat :=
  .object [("op".toList, .string "add".toList), ("path".toList, .string "/a/0".toList), ("value".toList, .number 1)]

def listed : Doc Nat :=
  .object [("a".toList, .array [.number 2])]

theorem readOperation_insertFirst :
    readOperation placeOf insertFirst = some (.add ["a".toList, "0".toList] (.number 1)) := by
  rfl

theorem strict_insertFirst : Strict insertFirst listed where
  idle := by decide
  value := by decide
  source := by decide
  paths := by
    intro path isPath
    cases isPath
    decide
  sources := by
    intro named path isFrom
    cases isFrom
  alike := by
    intro operation read
    rw [readOperation_insertFirst] at read
    cases read
    constructor
    · intro items same
      cases same
    · intro inner entered
      cases entered
      constructor
      · intro items same
        exact samePlace_of_numeral (by decide) (by decide) _
      · intro inner entered
        trivial

theorem applyPatch_strict_insertFirst :
    ((({ currentState := listed } : StateManager Nat).applyPatch (fun left right => left == right)
          (.array [insertFirst])).2 = none ↔
        (evaluateDesigned (fun left right => left == right) [insertFirst] listed).isSome = true) ∧
      ∀ document, evaluateDesigned (fun left right => left == right) [insertFirst] listed = some document ->
        (({ currentState := listed } : StateManager Nat).applyPatch (fun left right => left == right)
          (.array [insertFirst])).1.currentState = document :=
  applyPatch_strict (fun left right => left == right) { currentState := listed } [insertFirst]
    ⟨fun _ => strict_insertFirst, fun _ _ => trivial⟩

end Cpp
end AgUi
