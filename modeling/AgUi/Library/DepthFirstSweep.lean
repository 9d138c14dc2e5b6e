import AgUi.Library.DepthFirst

namespace AgUi
namespace Library
namespace DepthFirst

/-!
# Searches that find the same

What a search meets does not depend on how it records the cycles it closes, so
two searches of one graph hand the same paths to their records.  A search that
takes the neighbors of a frame in one sweep, down to the first that is new,
makes the same moves as one that takes them turn by turn.
-/

universe u v w

variable {N : Type u} {C : Type v} {D : Type w}

/-! ## Two records -/

/-- Two searches that stand at the same place, with related records. -/
structure Alike (Related : C -> D -> Prop) (left : Search N C) (right : Search N D) : Prop where
  color : left.color = right.color
  frames : left.frames = right.frames
  path : left.path = right.path
  found : Related left.found right.found

section Records

variable [DecidableEq N] {next : N -> List N} {record : C -> List N -> C} {other : D -> List N -> D}
  {Related : C -> D -> Prop}
  (keeps : ∀ left right cycle, Related left right -> Related (record left cycle) (other right cycle))

include keeps

theorem step_alike {left later : Search N C} {right : Search N D} (alike : Alike Related left right)
    (stepped : step next record left = some later) :
    ∃ last : Search N D, step next other right = some last ∧ Alike Related later last := by
  rcases left with ⟨color, frames, path, found⟩
  rcases right with ⟨color', frames', path', found'⟩
  rcases alike with ⟨rfl, rfl, rfl, related⟩
  cases frames with
  | nil => cases stepped
  | cons frame rest =>
    rcases frame with ⟨node, taken⟩
    unfold step at stepped ⊢
    dsimp only at stepped ⊢
    split at stepped
    · cases stepped
      exact ⟨_, rfl, rfl, rfl, rfl, related⟩
    · split at stepped
      · cases stepped
        exact ⟨_, rfl, rfl, rfl, rfl, related⟩
      · cases stepped
        exact ⟨_, rfl, rfl, rfl, rfl, keeps _ _ _ related⟩
      · cases stepped
        exact ⟨_, rfl, rfl, rfl, rfl, related⟩

theorem run_alike {fuel : Nat} {left final : Search N C} {right : Search N D} (alike : Alike Related left right)
    (ran : run next record fuel left = some final) :
    ∃ last : Search N D, run next other fuel right = some last ∧ Alike Related final last := by
  induction fuel generalizing left right with
  | zero =>
    unfold run at ran ⊢
    rw [← alike.frames]
    by_cases empty : left.frames.isEmpty = true
    · rw [if_pos empty] at ran ⊢
      cases ran
      exact ⟨right, rfl, alike⟩
    · rw [if_neg empty] at ran
      cases ran
  | succ fuel ih =>
    unfold run at ran ⊢
    cases stepped : step next record left with
    | none =>
      rw [stepped] at ran
      cases ran
      have stopped : step next other right = none :=
        step_eq_none_iff.mpr (alike.frames.symm.trans (step_eq_none_iff.mp stepped))
      rw [stopped]
      exact ⟨right, rfl, alike⟩
    | some later =>
      rw [stepped] at ran
      rcases step_alike keeps alike stepped with ⟨last, moved, same⟩
      rw [moved]
      exact ih same ran

theorem visit_alike {fuel : Nat} {left final : Search N C} {right : Search N D} {root : N}
    (alike : Alike Related left right) (visited : visit next record fuel left root = some final) :
    ∃ last : Search N D, visit next other fuel right root = some last ∧ Alike Related final last := by
  unfold visit at visited ⊢
  rw [← alike.color]
  by_cases new : left.color root = .unvisited
  · rw [if_pos new] at visited ⊢
    refine run_alike keeps ?_ visited
    exact ⟨rfl, rfl, rfl, alike.found⟩
  · rw [if_neg new] at visited ⊢
    cases visited
    exact ⟨right, rfl, alike⟩

/-- What a search does is done whatever it records. -/
theorem searchAll_alike {fuel : Nat} {roots : List N} {start : C} {begin : D} {final : Search N C}
    (related : Related start begin) (searched : searchAll next record fuel roots start = some final) :
    ∃ last : Search N D, searchAll next other fuel roots begin = some last ∧ Alike Related final last := by
  have folded : ∀ {left : Search N C} {right : Search N D}, Alike Related left right ->
      roots.foldlM (visit next record fuel) left = some final ->
      ∃ last : Search N D, roots.foldlM (visit next other fuel) right = some last ∧ Alike Related final last := by
    clear searched
    induction roots with
    | nil =>
      intro left right alike done
      cases done
      exact ⟨right, rfl, alike⟩
    | cons root rest ih =>
      intro left right alike done
      rw [List.foldlM_cons, Option.bind_eq_bind, Option.bind_eq_some_iff] at done
      rcases done with ⟨middle, visited, later⟩
      rcases visit_alike keeps alike visited with ⟨between, moved, same⟩
      rcases ih same later with ⟨last, rest, equal⟩
      refine ⟨last, ?_, equal⟩
      rw [List.foldlM_cons, moved]
      exact rest
  exact folded ⟨rfl, rfl, rfl, related⟩ searched

end Records

/-- Every path that is closed, in the order they are closed. -/
def collect (paths : List (List N)) (path : List N) : List (List N) :=
  paths ++ [path]

theorem foldl_collect (paths : List (List N)) : paths.foldl collect [] = paths := by
  induction paths using List.reverseRecOn with
  | nil => rfl
  | append_singleton earlier last ih =>
    rw [List.foldl_append, ih]
    rfl

/-- What a search records are the paths it closes, one after the other. -/
theorem found_searchAll [DecidableEq N] {next : N -> List N} {fuel : Nat} {roots : List N}
    {final : Search N (List (List N))}
    (collected : searchAll next collect fuel roots [] = some final) (record : C -> List N -> C) (start : C) :
    (searchAll next record fuel roots start).map Search.found = some (final.found.foldl record start) := by
  have keeps : ∀ (paths : List (List N)) (found : C) cycle, found = paths.foldl record start ->
      record found cycle = (collect paths cycle).foldl record start := by
    rintro paths found cycle rfl
    rw [collect, List.foldl_append]
    rfl
  have begun : start = ([] : List (List N)).foldl record start := rfl
  rcases searchAll_alike keeps begun collected with ⟨last, searched, alike⟩
  rw [searched, Option.map_some, alike.found]

/-- Some cycles of the graph are what every search of it records, whatever it makes of them. -/
theorem exists_closed_paths [DecidableEq N] (next : N -> List N) {fuel : Nat} {nodes roots : List N}
    (closed : ∀ node neighbor, Edge next node neighbor -> neighbor ∈ nodes) (fueled : enough next nodes ≤ fuel)
    (members : ∀ root ∈ roots, root ∈ nodes) :
    ∃ final : Search N (List (List N)), searchAll next collect fuel roots [] = some final ∧
      ∀ path ∈ final.found, IsCycle next path := by
  rcases searchAll_finds next collect ([] : List (List N)) closed fueled members with
    ⟨final, searched, cycles, collected, real, _⟩
  rw [foldl_collect] at collected
  refine ⟨final, searched, ?_⟩
  rw [collected]
  exact real

/-! ## Sweeps -/

section Sweep

variable [DecidableEq N] (next : N -> List N) (record : C -> List N -> C)

/-- Take the neighbors of a frame one after the other, down to the first that is new; the frame goes on behind it.
A frame whose neighbors are all taken leaves the path. -/
def sweep (node : N) (search : Search N C) : Nat -> List N -> Search N C
  | _, [] => { search with color := paint search.color node .done, path := search.path.dropLast }
  | taken, neighbor :: rest =>
    match search.color neighbor with
    | .onStack =>
      sweep node { search with found := record search.found (search.path.drop (search.path.idxOf neighbor)) }
        (taken + 1) rest
    | .unvisited =>
      { search with
        color := paint search.color neighbor .onStack
        frames := (neighbor, 0) :: (node, taken + 1) :: search.frames
        path := search.path ++ [neighbor] }
    | .done => sweep node search (taken + 1) rest

/-- Pop a frame and sweep on from where it stands. -/
def sweepStep (search : Search N C) : Option (Search N C) :=
  match search.frames with
  | [] => none
  | (node, taken) :: rest => some (sweep record node { search with frames := rest } taken ((next node).drop taken))

def sweepRun : Nat -> Search N C -> Option (Search N C)
  | 0, search => if search.frames.isEmpty then some search else none
  | fuel + 1, search =>
    match sweepStep next record search with
    | none => some search
    | some later => sweepRun fuel later

/-- A root is put on the path; nothing is on it between roots. -/
def sweepVisit (fuel : Nat) (search : Search N C) (root : N) : Option (Search N C) :=
  if search.color root = .unvisited then
    sweepRun next record fuel
      { search with
        color := paint search.color root .onStack, frames := (root, 0) :: search.frames, path := search.path ++ [root] }
  else some search

def sweepAll (fuel : Nat) (roots : List N) (start : C) : Option (Search N C) :=
  roots.foldlM (sweepVisit next record fuel) (blank start)

end Sweep

section

variable [DecidableEq N] {next : N -> List N} {record : C -> List N -> C}

variable {search final : Search N C} {fuel : Nat}

theorem sweepRun_succ (ran : sweepRun next record fuel search = some final) :
    sweepRun next record (fuel + 1) search = some final := by
  induction fuel generalizing search with
  | zero =>
    unfold sweepRun at ran
    by_cases empty : search.frames.isEmpty = true
    · rw [if_pos empty] at ran
      unfold sweepRun sweepStep
      rw [List.isEmpty_iff.mp empty]
      exact ran
    · rw [if_neg empty] at ran
      cases ran
  | succ fuel ih =>
    unfold sweepRun at ran ⊢
    cases stepped : sweepStep next record search with
    | none =>
      rw [stepped] at ran
      exact ran
    | some later =>
      rw [stepped] at ran
      exact ih ran

/-- A turn is a sweep, or the sweep goes on where the turn ends. -/
theorem sweepStep_of_step {search later : Search N C} (stepped : step next record search = some later) :
    sweepStep next record search = some later ∨
      (later.frames ≠ [] ∧ sweepStep next record search = sweepStep next record later) := by
  rcases search with ⟨color, frames, path, found⟩
  cases frames with
  | nil => cases stepped
  | cons frame rest =>
    rcases frame with ⟨node, taken⟩
    unfold step at stepped
    unfold sweepStep
    dsimp only at stepped ⊢
    cases taking : (next node)[taken]? with
    | none =>
      rw [taking] at stepped
      cases stepped
      rw [List.drop_eq_nil_of_le (List.getElem?_eq_none_iff.mp taking)]
      exact Or.inl rfl
    | some neighbor =>
      rw [taking] at stepped
      rcases List.getElem?_eq_some_iff.mp taking with ⟨inside, same⟩
      have split : (next node).drop taken = neighbor :: (next node).drop (taken + 1) := by
        rw [List.drop_eq_getElem_cons inside, same]
      rw [split, sweep]
      dsimp only at stepped ⊢
      cases met : color neighbor with
      | unvisited =>
        rw [met] at stepped
        cases stepped
        exact Or.inl rfl
      | onStack | done =>
        rw [met] at stepped
        cases stepped
        exact Or.inr ⟨List.cons_ne_nil _ _, rfl⟩

theorem exists_sweepStep {search : Search N C} (going : search.frames ≠ []) :
    ∃ later : Search N C, sweepStep next record search = some later := by
  unfold sweepStep
  split
  next empty => exact absurd empty going
  next => exact ⟨_, rfl⟩

/-- Sweeps end where turns end. -/
theorem sweepRun_of_run (ran : run next record fuel search = some final) :
    sweepRun next record fuel search = some final := by
  induction fuel generalizing search with
  | zero => exact ran
  | succ fuel ih =>
    unfold run at ran
    cases stepped : step next record search with
    | none =>
      rw [stepped] at ran
      unfold sweepRun sweepStep
      rw [step_eq_none_iff.mp stepped]
      exact ran
    | some later =>
      rw [stepped] at ran
      have swept := ih ran
      rcases sweepStep_of_step stepped with same | ⟨going, same⟩
      · unfold sweepRun
        rw [same]
        exact swept
      · rcases exists_sweepStep going with ⟨last, moves⟩
        have again := sweepRun_succ swept
        unfold sweepRun at again ⊢
        rw [moves] at again
        rw [same, moves]
        exact again

theorem sweepVisit_of_visit {root : N} (frames : search.frames = [])
    (path : search.path = []) (visited : visit next record fuel search root = some final) :
    sweepVisit next record fuel search root = some final := by
  unfold visit at visited
  unfold sweepVisit
  rw [frames, path]
  by_cases new : search.color root = .unvisited
  · rw [if_pos new] at visited ⊢
    exact sweepRun_of_run visited
  · rw [if_neg new] at visited ⊢
    exact visited

theorem foldlM_sweepVisit {nodes : List N} {start : C}
    (closed : ∀ node neighbor, Edge next node neighbor -> neighbor ∈ nodes) (fueled : enough next nodes ≤ fuel)
    {roots : List N} (members : ∀ root ∈ roots, root ∈ nodes) {search : Search N C}
    {cycles : List (List N)} (empty : search.frames = []) (explored : Explored next record start cycles search) :
    roots.foldlM (sweepVisit next record fuel) search = roots.foldlM (visit next record fuel) search := by
  induction roots generalizing search cycles with
  | nil => rfl
  | cons root rest ih =>
    rcases visit_explored closed fueled empty explored (members root List.mem_cons_self) with
      ⟨middle, visited, ended, _, _, more, known⟩
    have path : search.path = [] := by
      rw [explored.path, empty]
      rfl
    rw [List.foldlM_cons, List.foldlM_cons, visited, sweepVisit_of_visit empty path visited]
    exact ih (fun other member => members other (List.mem_cons_of_mem root member)) ended known

/-- A search by sweeps is the search by turns. -/
theorem sweepAll_eq_searchAll {nodes roots : List N} (start : C)
    (closed : ∀ node neighbor, Edge next node neighbor -> neighbor ∈ nodes) (fueled : enough next nodes ≤ fuel)
    (members : ∀ root ∈ roots, root ∈ nodes) :
    sweepAll next record fuel roots start = searchAll next record fuel roots start :=
  foldlM_sweepVisit closed fueled members rfl (explored_blank next record start)

end

end DepthFirst
end Library
end AgUi
