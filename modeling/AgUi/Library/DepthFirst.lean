import Mathlib.Data.List.Chain
import Mathlib.Data.List.Nodup
import Mathlib.Logic.Relation

namespace AgUi
namespace Library
namespace DepthFirst

/-!
# Depth-first search for cycles

The search keeps its stack of frames itself and paints the nodes it meets.  An
edge to a node that is on the stack closes a cycle, which is handed to
`record`; the search goes on behind it.

Where nothing was recorded, every node the search is done with is accessible
along the edges that leave it: no walk from it goes on for ever.
-/

universe u v

inductive Color where
  | unvisited
  | onStack
  | done
deriving DecidableEq

theorem Color.onStack_ne : Color.onStack ≠ .unvisited := by
  decide

theorem Color.done_ne : Color.done ≠ .unvisited := by
  decide

variable {N : Type u} {C : Type v}

/-- The innermost frame comes first, each with the number of neighbors it has taken.  The path lists the nodes of
the frames from the outermost on. -/
structure Search (N : Type u) (C : Type v) where
  color : N -> Color
  frames : List (N × Nat)
  path : List N
  found : C

/-- The edges of the graph, from a node to a neighbor. -/
def Edge (next : N -> List N) (node neighbor : N) : Prop :=
  neighbor ∈ next node

/-- Each node of the cycle has an edge to the one behind it, and the last one to the first. -/
def IsCycle (next : N -> List N) (cycle : List N) : Prop :=
  cycle ≠ [] ∧ (cycle ++ cycle.head?.toList).IsChain (Edge next)

def Cyclic (next : N -> List N) : Prop :=
  ∃ node, Relation.TransGen (Edge next) node node

section

variable [DecidableEq N]

def paint (color : N -> Color) (painted : N) (new : Color) : N -> Color :=
  fun node => if node = painted then new else color node

variable (next : N -> List N) (record : C -> List N -> C)

/-- One turn of the loop; none where the stack is empty. -/
def step (search : Search N C) : Option (Search N C) :=
  match search.frames with
  | [] => none
  | (node, taken) :: rest =>
    match (next node)[taken]? with
    | none =>
      some { search with color := paint search.color node .done, frames := rest, path := search.path.dropLast }
    | some neighbor =>
      let frames := (node, taken + 1) :: rest
      match search.color neighbor with
      | .unvisited =>
        some
          { search with
            color := paint search.color neighbor .onStack, frames := (neighbor, 0) :: frames
            path := search.path ++ [neighbor] }
      | .onStack =>
        some
          { search with
            frames := frames, found := record search.found (search.path.drop (search.path.idxOf neighbor)) }
      | .done => some { search with frames := frames }

/-- The loop, with a bound on its turns. -/
def run : Nat -> Search N C -> Option (Search N C)
  | 0, search => if search.frames.isEmpty then some search else none
  | fuel + 1, search =>
    match step next record search with
    | none => some search
    | some later => run fuel later

/-- A root that was met before is passed over. -/
def visit (fuel : Nat) (search : Search N C) (root : N) : Option (Search N C) :=
  if search.color root = .unvisited then
    run next record fuel
      { search with color := paint search.color root .onStack, frames := [(root, 0)], path := [root] }
  else some search

def blank (start : C) : Search N C :=
  { color := fun _ => .unvisited, frames := [], path := [], found := start }

/-- The search from every root that an earlier one has not reached. -/
def searchAll (fuel : Nat) (roots : List N) (start : C) : Option (Search N C) :=
  roots.foldlM (visit next record fuel) (blank start)

/-- What the unvisited nodes among some still cost. -/
def weight (color : N -> Color) : List N -> Nat
  | [] => 0
  | node :: rest => (if color node = .unvisited then (next node).length + 1 else 0) + weight color rest

/-- As many turns as a search among some nodes can take. -/
def enough (nodes : List N) : Nat :=
  weight next (fun _ => .unvisited) nodes

end

/-! ## Cycles -/

/-- Every walk along the edges that leave the node ends. -/
def Settles (next : N -> List N) (node : N) : Prop :=
  Acc (fun neighbor node => Edge next node neighbor) node

section

variable {next : N -> List N}

theorem Settles.not_cyclic {node : N} (settles : Settles next node) : ¬ Relation.TransGen (Edge next) node node := by
  have walks : Acc (Relation.TransGen fun neighbor node => Edge next node neighbor) node := Acc.transGen settles
  have irreflexive : ¬ Relation.TransGen (fun neighbor node => Edge next node neighbor) node node := by
    induction walks with
    | intro node _ ih =>
      intro loop
      exact ih node loop (settles.inv_of_transGen loop) loop
  exact fun loop => irreflexive (Relation.transGen_swap.mpr loop)

theorem IsCycle.cyclic {cycle : List N} (isCycle : IsCycle next cycle) : Cyclic next := by
  rcases isCycle with ⟨nonempty, chain⟩
  cases cycle with
  | nil => exact absurd rfl nonempty
  | cons first rest =>
    refine ⟨first, ?_⟩
    change (first :: (rest ++ [first])).IsChain (Edge next) at chain
    cases rest with
    | nil => exact .single (List.isChain_pair.mp chain)
    | cons second more =>
      rw [List.cons_append, List.isChain_cons_cons] at chain
      refine .head' chain.1 ?_
      refine List.relationReflTransGen_of_exists_isChain_cons (more ++ [first]) chain.2 ?_
      exact List.getLast_append_singleton (second :: more)

/-- A cycle can be entered anywhere. -/
theorem IsCycle.rotate {cycle : List N} (isCycle : IsCycle next cycle) {place : Nat} (inside : place < cycle.length) :
    IsCycle next (cycle.drop place ++ cycle.take place) := by
  rcases isCycle with ⟨nonempty, chain⟩
  rcases Nat.eq_zero_or_pos place with rfl | positive
  · rw [List.drop_zero, List.take_zero, List.append_nil]
    exact ⟨nonempty, chain⟩
  · have split : cycle = cycle.take place ++ cycle.drop place := (List.take_append_drop place cycle).symm
    have frontNonempty : cycle.take place ≠ [] := by
      intro empty
      have length := congrArg List.length empty
      rw [List.length_take, List.length_nil] at length
      omega
    have backNonempty : cycle.drop place ≠ [] := by
      intro empty
      have length := congrArg List.length empty
      rw [List.length_drop, List.length_nil] at length
      omega
    generalize cycle.take place = front at split frontNonempty ⊢
    generalize cycle.drop place = back at split backNonempty ⊢
    subst split
    cases front with
    | nil => exact absurd rfl frontNonempty
    | cons first middle =>
      cases back with
      | nil => exact absurd rfl backNonempty
      | cons other rest =>
        have parts := List.isChain_append.mp chain
        have inner := List.isChain_append.mp parts.1
        refine ⟨List.cons_ne_nil _ _, List.isChain_append.mpr ⟨?_, List.isChain_singleton _, ?_⟩⟩
        · refine List.isChain_append.mpr ⟨inner.2.1, inner.1, ?_⟩
          intro last isLast start isStart
          refine parts.2.2 last ?_ start isStart
          rw [List.getLast?_append_of_ne_nil _ (List.cons_ne_nil _ _)]
          exact isLast
        · intro last isLast start isStart
          rw [List.getLast?_append_of_ne_nil _ (List.cons_ne_nil _ _)] at isLast
          exact inner.2.2 last isLast start isStart

/-- The neighbors a frame has taken are done, but for the one whose own frame stands inside. -/
def Awaits (next : N -> List N) (color : N -> Color) : Option N -> List (N × Nat) -> Prop
  | _, [] => True
  | inside, (node, taken) :: rest =>
    (∀ neighbor ∈ (next node).take taken, color neighbor = .done ∨ inside = some neighbor) ∧
      Awaits next color (some node) rest

theorem Awaits.mono {color later : N -> Color} (grows : ∀ node, color node = .done -> later node = .done)
    {inside : Option N} {frames : List (N × Nat)} (awaits : Awaits next color inside frames) :
    Awaits next later inside frames := by
  induction frames generalizing inside with
  | nil => trivial
  | cons frame rest ih =>
    refine ⟨fun neighbor member => ?_, ih awaits.2⟩
    exact (awaits.1 neighbor member).imp_left (grows neighbor)

theorem mem_take_succ {A : Type u} {items : List A} {place : Nat} {last : A} (found : items[place]? = some last)
    {item : A} : item ∈ items.take (place + 1) ↔ item ∈ items.take place ∨ item = last := by
  rw [List.take_add_one, found, Option.toList_some, List.mem_append, List.mem_singleton]

end

/-! ## One turn -/

section

variable [DecidableEq N] {next : N -> List N} {record : C -> List N -> C}

/-- What one turn of the loop can do. -/
inductive Moves (next : N -> List N) (record : C -> List N -> C) : Search N C -> Search N C -> Prop
  /-- All neighbors have been taken. -/
  | leave {color : N -> Color} {node : N} {taken : Nat} {rest : List (N × Nat)} {path : List N} {found : C}
      (exhausted : (next node).length ≤ taken) :
      Moves next record ⟨color, (node, taken) :: rest, path, found⟩ ⟨paint color node .done, rest, path.dropLast, found⟩
  | enter {color : N -> Color} {node neighbor : N} {taken : Nat} {rest : List (N × Nat)} {path : List N} {found : C}
      (taking : (next node)[taken]? = some neighbor) (new : color neighbor = .unvisited) :
      Moves next record ⟨color, (node, taken) :: rest, path, found⟩
        ⟨paint color neighbor .onStack, (neighbor, 0) :: (node, taken + 1) :: rest, path ++ [neighbor], found⟩
  | close {color : N -> Color} {node neighbor : N} {taken : Nat} {rest : List (N × Nat)} {path : List N} {found : C}
      (taking : (next node)[taken]? = some neighbor) (standing : color neighbor = .onStack) :
      Moves next record ⟨color, (node, taken) :: rest, path, found⟩
        ⟨color, (node, taken + 1) :: rest, path, record found (path.drop (path.idxOf neighbor))⟩
  | skip {color : N -> Color} {node neighbor : N} {taken : Nat} {rest : List (N × Nat)} {path : List N} {found : C}
      (taking : (next node)[taken]? = some neighbor) (old : color neighbor = .done) :
      Moves next record ⟨color, (node, taken) :: rest, path, found⟩ ⟨color, (node, taken + 1) :: rest, path, found⟩

theorem moves_of_step {search later : Search N C} (stepped : step next record search = some later) :
    Moves next record search later := by
  rcases search with ⟨color, frames, path, found⟩
  unfold step at stepped
  cases frames with
  | nil => cases stepped
  | cons frame rest =>
    rcases frame with ⟨node, taken⟩
    dsimp only at stepped
    split at stepped
    · rename_i nothing
      cases stepped
      exact .leave (List.getElem?_eq_none_iff.mp nothing)
    · rename_i neighbor taking
      split at stepped
      · rename_i new
        cases stepped
        exact .enter taking new
      · rename_i standing
        cases stepped
        exact .close taking standing
      · rename_i old
        cases stepped
        exact .skip taking old

variable {search : Search N C}

theorem step_eq_none_iff : step next record search = none ↔ search.frames = [] := by
  constructor
  · intro stopped
    unfold step at stopped
    split at stopped
    · assumption
    · split at stopped
      · cases stopped
      · dsimp only at stopped
        split at stopped <;> cases stopped
  · intro empty
    unfold step
    rw [empty]

theorem paint_self (color : N -> Color) (painted : N) (new : Color) : paint color painted new painted = new :=
  if_pos rfl

theorem paint_of_ne (color : N -> Color) {painted node : N} (new : Color) (apart : node ≠ painted) :
    paint color painted new node = color node :=
  if_neg apart

variable {color : N -> Color}

theorem unvisited_of_paint {painted node : N} {new : Color} (seen : new ≠ .unvisited)
    (unvisited : paint color painted new node = .unvisited) : color node = .unvisited := by
  by_cases same : node = painted
  · rw [same, paint_self] at unvisited
    exact absurd unvisited seen
  · rwa [paint_of_ne color new same] at unvisited

/-- A node once met stays met. -/
theorem Moves.unvisited {search later : Search N C} (moves : Moves next record search later) {node : N}
    (unvisited : later.color node = .unvisited) : search.color node = .unvisited := by
  cases moves with
  | leave => exact unvisited_of_paint Color.done_ne unvisited
  | enter => exact unvisited_of_paint Color.onStack_ne unvisited
  | close | skip => exact unvisited

/-! ## The invariant -/

/-- What is known of a search from `start` that has recorded some cycles. -/
structure Explored (next : N -> List N) (record : C -> List N -> C) (start : C) (cycles : List (List N))
    (search : Search N C) : Prop where
  found : search.found = cycles.foldl record start
  real : ∀ cycle ∈ cycles, IsCycle next cycle
  path : search.path = (search.frames.map Prod.fst).reverse
  onStack : ∀ node, search.color node = .onStack ↔ node ∈ search.path
  distinct : search.path.Nodup
  chain : search.path.IsChain (Edge next)
  settles : cycles = [] -> ∀ node, search.color node = .done -> Settles next node
  awaits : cycles = [] -> Awaits next search.color none search.frames

/-- A node once done stays done. -/
theorem Moves.done {search later : Search N C} (moves : Moves next record search later)
    {start : C} {cycles : List (List N)} (explored : Explored next record start cycles search) {node : N}
    (done : search.color node = .done) : later.color node = .done := by
  cases moves with
  | @leave color top taken rest path found exhausted =>
    change paint color top .done node = .done
    by_cases same : node = top
    · rw [same]
      exact paint_self color top .done
    · rw [paint_of_ne color .done same]
      exact done
  | @enter color top neighbor taken rest path found taking new =>
    change paint color neighbor .onStack node = .done
    have apart : node ≠ neighbor := by
      rintro rfl
      exact absurd (done.symm.trans new) (by decide)
    rw [paint_of_ne color .onStack apart]
    exact done
  | close => exact done
  | skip => exact done

variable {node neighbor : N} {path : List N}

/-- A walk to a node that still stands on the path closes a cycle. -/
theorem isCycle_drop (chain : path.IsChain (Edge next))
    (last : path.getLast? = some node) (edge : Edge next node neighbor) (member : neighbor ∈ path) :
    IsCycle next (path.drop (path.idxOf neighbor)) := by
  have inside : path.idxOf neighbor < path.length := List.idxOf_lt_length_of_mem member
  have head : (path.drop (path.idxOf neighbor)).head? = some neighbor := by
    rw [List.head?_drop, List.getElem?_eq_getElem inside, List.getElem_idxOf]
  have nonempty : path.drop (path.idxOf neighbor) ≠ [] := by
    intro empty
    rw [empty] at head
    cases head
  refine ⟨nonempty, ?_⟩
  rw [head]
  refine List.isChain_append.mpr ⟨chain.drop _, List.isChain_singleton _, ?_⟩
  intro final isFinal first isFirst
  rw [List.getLast?_drop, if_neg (Nat.not_le_of_lt inside), last] at isFinal
  cases isFinal
  cases isFirst
  exact edge

variable {start : C} {cycles : List (List N)}

variable {rest : List (N × Nat)} {taken : Nat}

theorem Explored.leave {node : N} {found : C}
    (explored : Explored next record start cycles ⟨color, (node, taken) :: rest, path, found⟩)
    (exhausted : (next node).length ≤ taken) :
    Explored next record start cycles ⟨paint color node .done, rest, path.dropLast, found⟩ := by
  have split : path = (rest.map Prod.fst).reverse ++ [node] := explored.path.trans (List.reverse_cons ..)
  have dropped : path.dropLast = (rest.map Prod.fst).reverse := by
    rw [split, List.dropLast_concat]
  have fresh : node ∉ path.dropLast := by
    have distinct : ((rest.map Prod.fst).reverse ++ [node]).Nodup := split ▸ explored.distinct
    rw [dropped]
    exact (List.nodup_append.mp distinct).2.2 node |> fun apart member => apart member node List.mem_cons_self rfl
  constructor
  · exact explored.found
  · exact explored.real
  · exact dropped
  · intro other
    change paint color node .done other = .onStack ↔ other ∈ path.dropLast
    by_cases same : other = node
    · rw [same, paint_self]
      exact ⟨fun impossible => (by cases impossible), fun member => absurd member fresh⟩
    · rw [paint_of_ne color .done same, explored.onStack other]
      change other ∈ path ↔ other ∈ path.dropLast
      rw [dropped, split, List.mem_append, List.mem_singleton, or_iff_left same]
  · exact explored.distinct.sublist (List.dropLast_sublist path)
  · exact explored.chain.dropLast
  · intro nothing other done
    change paint color node .done other = .done at done
    by_cases same : other = node
    · subst same
      refine Acc.intro other fun neighbor edge => explored.settles nothing neighbor ?_
      have taken? : neighbor ∈ (next other).take taken := by
        rw [List.take_of_length_le exhausted]
        exact edge
      exact ((explored.awaits nothing).1 neighbor taken?).resolve_right nofun
    · rw [paint_of_ne color .done same] at done
      exact explored.settles nothing other done
  · intro nothing
    have grows : ∀ other, color other = .done -> paint color node .done other = .done := by
      intro other done
      by_cases same : other = node
      · rw [same, paint_self]
      · rw [paint_of_ne color .done same, done]
    have later := (explored.awaits nothing).2.mono grows
    change Awaits next (paint color node .done) none rest
    cases rest with
    | nil => trivial
    | cons frame outer =>
      refine ⟨fun neighbor member => .inl ?_, later.2⟩
      rcases later.1 neighbor member with done | inside
      · exact done
      · cases inside
        exact paint_self color node .done

theorem Explored.enter
    {found : C} (explored : Explored next record start cycles ⟨color, (node, taken) :: rest, path, found⟩)
    (taking : (next node)[taken]? = some neighbor) (new : color neighbor = .unvisited) :
    Explored next record start cycles
      ⟨paint color neighbor .onStack, (neighbor, 0) :: (node, taken + 1) :: rest, path ++ [neighbor], found⟩ := by
  have split : path = (rest.map Prod.fst).reverse ++ [node] := explored.path.trans (List.reverse_cons ..)
  have fresh : neighbor ∉ path := by
    intro member
    exact absurd (new.symm.trans ((explored.onStack neighbor).mpr member)) (by decide)
  constructor
  · exact explored.found
  · exact explored.real
  · exact congrArg (· ++ [neighbor]) explored.path |>.trans (List.reverse_cons ..).symm
  · intro other
    change paint color neighbor .onStack other = .onStack ↔ other ∈ path ++ [neighbor]
    rw [List.mem_append, List.mem_singleton]
    by_cases same : other = neighbor
    · rw [same, paint_self]
      exact ⟨fun _ => .inr rfl, fun _ => rfl⟩
    · rw [paint_of_ne color .onStack same, or_iff_left same]
      exact explored.onStack other
  · exact List.nodup_append.mpr ⟨explored.distinct, List.nodup_singleton neighbor, fun one member other single same =>
      fresh (List.mem_singleton.mp single ▸ same ▸ member)⟩
  · refine List.isChain_append.mpr ⟨explored.chain, List.isChain_singleton _, ?_⟩
    intro last isLast first isFirst
    cases isFirst
    change last ∈ path.getLast? at isLast
    rw [split, List.getLast?_concat] at isLast
    cases isLast
    exact List.mem_of_getElem? taking
  · intro nothing other done
    change paint color neighbor .onStack other = .done at done
    by_cases same : other = neighbor
    · rw [same, paint_self] at done
      cases done
    · rw [paint_of_ne color .onStack same] at done
      exact explored.settles nothing other done
  · intro nothing
    have grows : ∀ other, color other = .done -> paint color neighbor .onStack other = .done := by
      intro other done
      have apart : other ≠ neighbor := by
        rintro rfl
        exact absurd (done.symm.trans new) (by decide)
      rw [paint_of_ne color .onStack apart, done]
    have later := (explored.awaits nothing).mono grows
    refine ⟨fun other member => ?_, fun other member => ?_, later.2⟩
    · cases member
    · rcases (mem_take_succ taking).mp member with early | last
      · exact .inl ((later.1 other early).resolve_right nofun)
      · exact .inr (congrArg some last.symm)

theorem Explored.close
    {found : C} (explored : Explored next record start cycles ⟨color, (node, taken) :: rest, path, found⟩)
    (taking : (next node)[taken]? = some neighbor) (standing : color neighbor = .onStack) :
    Explored next record start (cycles ++ [path.drop (path.idxOf neighbor)])
      ⟨color, (node, taken + 1) :: rest, path, record found (path.drop (path.idxOf neighbor))⟩ := by
  have split : path = (rest.map Prod.fst).reverse ++ [node] := explored.path.trans (List.reverse_cons ..)
  have something : cycles ++ [path.drop (path.idxOf neighbor)] ≠ [] := List.append_ne_nil_of_right_ne_nil _
    (List.cons_ne_nil _ _)
  constructor
  · rw [List.foldl_append, ← explored.found]
    rfl
  · intro cycle member
    rcases List.mem_append.mp member with early | last
    · exact explored.real cycle early
    · rw [List.mem_singleton.mp last]
      refine isCycle_drop explored.chain ?_ (List.mem_of_getElem? taking) ((explored.onStack neighbor).mp standing)
      rw [split]
      exact List.getLast?_concat
  · exact explored.path
  · exact explored.onStack
  · exact explored.distinct
  · exact explored.chain
  · exact fun nothing => absurd nothing something
  · exact fun nothing => absurd nothing something

omit [DecidableEq N] in
theorem Explored.skip
    {found : C} (explored : Explored next record start cycles ⟨color, (node, taken) :: rest, path, found⟩)
    (taking : (next node)[taken]? = some neighbor) (old : color neighbor = .done) :
    Explored next record start cycles ⟨color, (node, taken + 1) :: rest, path, found⟩ where
  found := explored.found
  real := explored.real
  path := explored.path
  onStack := explored.onStack
  distinct := explored.distinct
  chain := explored.chain
  settles := explored.settles
  awaits := by
    intro nothing
    refine ⟨fun other member => .inl ?_, (explored.awaits nothing).2⟩
    rcases (mem_take_succ taking).mp member with early | last
    · exact ((explored.awaits nothing).1 other early).resolve_right nofun
    · exact last ▸ old

/-- One turn keeps what is known, and records at most one cycle. -/
theorem Moves.explored {search later : Search N C} (moves : Moves next record search later)
    (explored : Explored next record start cycles search) :
    ∃ more : List (List N), Explored next record start (cycles ++ more) later := by
  cases moves with
  | leave exhausted =>
    refine ⟨[], ?_⟩
    rw [List.append_nil]
    exact explored.leave exhausted
  | enter taking new =>
    refine ⟨[], ?_⟩
    rw [List.append_nil]
    exact explored.enter taking new
  | close taking standing => exact ⟨_, explored.close taking standing⟩
  | skip taking old =>
    refine ⟨[], ?_⟩
    rw [List.append_nil]
    exact explored.skip taking old

/-! ## The search ends -/

/-- What the frames still cost. -/
def pending (next : N -> List N) : List (N × Nat) -> Nat
  | [] => 0
  | (node, taken) :: rest => (next node).length - taken + 1 + pending next rest

/-- What the search still costs. -/
def remaining (next : N -> List N) (nodes : List N) (search : Search N C) : Nat :=
  weight next search.color nodes + pending next search.frames

theorem weight_paint (next : N -> List N) (color : N -> Color) (painted : N) {new : Color} (seen : new ≠ .unvisited)
    (nodes : List N) : weight next (paint color painted new) nodes ≤ weight next color nodes := by
  induction nodes with
  | nil => exact Nat.le_refl 0
  | cons node rest ih =>
    refine Nat.add_le_add ?_ ih
    by_cases same : node = painted
    · rw [same, paint_self, if_neg seen]
      exact Nat.zero_le _
    · rw [paint_of_ne color new same]

omit [DecidableEq N] in
theorem weight_le_enough (next : N -> List N) (color : N -> Color) (nodes : List N) :
    weight next color nodes ≤ enough next nodes := by
  induction nodes with
  | nil => exact Nat.le_refl 0
  | cons node rest ih =>
    refine Nat.add_le_add ?_ ih
    rw [if_pos rfl]
    split
    · exact Nat.le_refl _
    · exact Nat.zero_le _

variable {nodes : List N}

/-- A node that is met for the first time pays for its frame. -/
theorem weight_enter (next : N -> List N) (color : N -> Color) {entered : N} (new : color entered = .unvisited)
    (member : entered ∈ nodes) :
    weight next (paint color entered .onStack) nodes + ((next entered).length + 1) ≤ weight next color nodes := by
  induction nodes with
  | nil => cases member
  | cons node rest ih =>
    have later := weight_paint next color entered Color.onStack_ne rest
    unfold weight
    by_cases same : node = entered
    · rw [same, paint_self, if_neg (by decide), if_pos new]
      omega
    · rw [paint_of_ne color .onStack same]
      have earlier := ih ((List.mem_cons.mp member).resolve_left fun equal => same equal.symm)
      omega

theorem Moves.remaining {search later : Search N C} (moves : Moves next record search later)
    (closed : ∀ node neighbor, Edge next node neighbor -> neighbor ∈ nodes) :
    remaining next nodes later + 1 ≤ remaining next nodes search := by
  unfold DepthFirst.remaining
  cases moves with
  | @leave color node taken rest path found exhausted =>
    have seen := weight_paint next color node Color.done_ne nodes
    simp only [pending]
    omega
  | @enter color node neighbor taken rest path found taking new =>
    have paid := weight_enter next color new (closed node neighbor (List.mem_of_getElem? taking))
    have short := (List.getElem?_eq_some_iff.mp taking).1
    simp only [pending]
    omega
  | @close color node neighbor taken rest path found taking standing =>
    have short := (List.getElem?_eq_some_iff.mp taking).1
    simp only [pending]
    omega
  | @skip color node neighbor taken rest path found taking old =>
    have short := (List.getElem?_eq_some_iff.mp taking).1
    simp only [pending]
    omega

/-- With as much fuel as the search still costs, the loop ends. -/
theorem run_explored {fuel : Nat} (closed : ∀ node neighbor, Edge next node neighbor -> neighbor ∈ nodes)
    (fueled : remaining next nodes search ≤ fuel) (explored : Explored next record start cycles search) :
    ∃ final : Search N C, run next record fuel search = some final ∧ final.frames = [] ∧
      (∀ node, search.color node = .done -> final.color node = .done) ∧
      (∀ node, final.color node = .unvisited -> search.color node = .unvisited) ∧
      ∃ more : List (List N), Explored next record start (cycles ++ more) final := by
  induction fuel generalizing search cycles with
  | zero =>
    have empty : search.frames = [] := by
      cases frames : search.frames with
      | nil => rfl
      | cons frame rest =>
        rw [remaining, frames, pending] at fueled
        omega
    refine ⟨search, ?_, empty, fun _ done => done, fun _ new => new, [], ?_⟩
    · rw [run, empty]
      rfl
    · rw [List.append_nil]
      exact explored
  | succ fuel ih =>
    cases stepped : step next record search with
    | none =>
      refine ⟨search, ?_, step_eq_none_iff.mp stepped, fun _ done => done, fun _ new => new, [], ?_⟩
      · rw [run, stepped]
      · rw [List.append_nil]
        exact explored
    | some later =>
      have moves := moves_of_step stepped
      rcases moves.explored explored with ⟨more, next⟩
      have cheaper := moves.remaining closed
      rcases ih (by omega) next with ⟨final, ran, empty, done, new, rest, last⟩
      refine ⟨final, ?_, empty, fun node was => done node (moves.done explored was), ?_, more ++ rest, ?_⟩
      · rw [run, stepped]
        exact ran
      · exact fun node unvisited => moves.unvisited (new node unvisited)
      · rw [← List.append_assoc]
        exact last

omit [DecidableEq N] in
theorem Explored.done_of_visited (explored : Explored next record start cycles search)
    (empty : search.frames = []) {node : N} (visited : search.color node ≠ .unvisited) : search.color node = .done := by
  cases color : search.color node with
  | unvisited => exact absurd color visited
  | done => rfl
  | onStack =>
    have member := (explored.onStack node).mp color
    rw [explored.path, empty] at member
    cases member

theorem visit_explored {fuel : Nat} (closed : ∀ node neighbor, Edge next node neighbor -> neighbor ∈ nodes)
    (fueled : enough next nodes ≤ fuel) (empty : search.frames = [])
    (explored : Explored next record start cycles search) {root : N} (member : root ∈ nodes) :
    ∃ final : Search N C, visit next record fuel search root = some final ∧ final.frames = [] ∧
      final.color root = .done ∧ (∀ node, search.color node = .done -> final.color node = .done) ∧
      ∃ more : List (List N), Explored next record start (cycles ++ more) final := by
  unfold visit
  by_cases new : search.color root = .unvisited
  · rw [if_pos new]
    have settled : ∀ node, search.color node = .done -> node ≠ root := by
      rintro node done rfl
      exact absurd (done.symm.trans new) (by decide)
    have opened : Explored next record start cycles
        { search with color := paint search.color root .onStack, frames := [(root, 0)], path := [root] } := by
      constructor
      · exact explored.found
      · exact explored.real
      · rfl
      · intro node
        change paint search.color root .onStack node = .onStack ↔ node ∈ [root]
        rw [List.mem_singleton]
        by_cases same : node = root
        · rw [same, paint_self]
          exact ⟨fun _ => rfl, fun _ => rfl⟩
        · rw [paint_of_ne search.color .onStack same, explored.onStack node, explored.path, empty]
          exact ⟨fun impossible => (by cases impossible), fun equal => absurd equal same⟩
      · exact List.nodup_singleton root
      · exact List.isChain_singleton root
      · intro nothing node done
        change paint search.color root .onStack node = .done at done
        by_cases same : node = root
        · rw [same, paint_self] at done
          cases done
        · rw [paint_of_ne search.color .onStack same] at done
          exact explored.settles nothing node done
      · exact fun _ => ⟨fun _ impossible => (by cases impossible), trivial⟩
    have cost : remaining next nodes
        { search with color := paint search.color root .onStack, frames := [(root, 0)], path := [root] } ≤ fuel := by
      have paid := weight_enter next search.color new member
      have bound := weight_le_enough next search.color nodes
      simp only [remaining, pending]
      omega
    rcases run_explored closed cost opened with ⟨final, ran, ended, done, unvisited, more, last⟩
    refine ⟨final, ran, ended, last.done_of_visited ended ?_, ?_, more, last⟩
    · intro impossible
      exact Color.onStack_ne ((paint_self search.color root .onStack).symm.trans (unvisited root impossible))
    · intro node was
      refine done node ?_
      change paint search.color root .onStack node = .done
      rw [paint_of_ne search.color .onStack (settled node was), was]
  · rw [if_neg new]
    refine ⟨search, rfl, empty, explored.done_of_visited empty new, fun _ was => was, [], ?_⟩
    rw [List.append_nil]
    exact explored

theorem foldlM_visit_explored {fuel : Nat}
    (closed : ∀ node neighbor, Edge next node neighbor -> neighbor ∈ nodes) (fueled : enough next nodes ≤ fuel)
    {roots : List N} (members : ∀ root ∈ roots, root ∈ nodes)
    (empty : search.frames = []) (explored : Explored next record start cycles search) :
    ∃ final : Search N C, roots.foldlM (visit next record fuel) search = some final ∧
      (∀ node, search.color node = .done ∨ node ∈ roots -> final.color node = .done) ∧
      ∃ more : List (List N), Explored next record start (cycles ++ more) final := by
  induction roots generalizing search cycles with
  | nil =>
    refine ⟨search, rfl, fun node either => either.resolve_right List.not_mem_nil, [], ?_⟩
    rw [List.append_nil]
    exact explored
  | cons root rest ih =>
    rcases visit_explored closed fueled empty explored (members root List.mem_cons_self) with
      ⟨middle, visited, ended, own, kept, more, known⟩
    rcases ih (fun other member => members other (List.mem_cons_of_mem root member)) ended known with
      ⟨final, folded, done, others, last⟩
    refine ⟨final, ?_, ?_, more ++ others, ?_⟩
    · rw [List.foldlM_cons, visited]
      exact folded
    · rintro node (was | member)
      · exact done node (.inl (kept node was))
      · rcases List.mem_cons.mp member with rfl | later
        · exact done node (.inl own)
        · exact done node (.inr later)
    · rw [← List.append_assoc]
      exact last

omit [DecidableEq N] in
theorem explored_blank (next : N -> List N) (record : C -> List N -> C) (start : C) :
    Explored next record start [] (blank start) where
  found := rfl
  real := nofun
  path := rfl
  onStack := fun _ => ⟨fun impossible => (by cases impossible), fun impossible => (by cases impossible)⟩
  distinct := List.nodup_nil
  chain := List.isChain_nil
  settles := nofun
  awaits := fun _ => trivial

/-- The search ends.  What it recorded are cycles of the graph, one after the other, and where it recorded none
every walk from a root ends. -/
theorem searchAll_finds (next : N -> List N) (record : C -> List N -> C) (start : C) {fuel : Nat} {nodes roots : List N}
    (closed : ∀ node neighbor, Edge next node neighbor -> neighbor ∈ nodes) (fueled : enough next nodes ≤ fuel)
    (members : ∀ root ∈ roots, root ∈ nodes) :
    ∃ final : Search N C, searchAll next record fuel roots start = some final ∧
      ∃ cycles : List (List N), final.found = cycles.foldl record start ∧
        (∀ cycle ∈ cycles, IsCycle next cycle) ∧
        (cycles = [] -> ∀ root ∈ roots, Settles next root) := by
  rcases foldlM_visit_explored closed fueled members rfl (explored_blank next record start) with
    ⟨final, folded, done, cycles, explored⟩
  refine ⟨final, folded, cycles, explored.found, explored.real, ?_⟩
  exact fun nothing root member => explored.settles nothing root (done root (.inr member))

end

end DepthFirst
end Library
end AgUi
