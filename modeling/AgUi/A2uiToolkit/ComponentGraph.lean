import AgUi.A2uiToolkit.Validate
import AgUi.Library.Attempts

namespace AgUi
namespace A2uiToolkit

open Library Protocol

/-!
# The graph of component references

The validator reports a cycle exactly where the references have one.  A list
without any error is one whose references all resolve and whose tree, unfolded
from the root, is finite.
-/

variable {components : List Json} {catalog : Option Catalog}

/-- The component with the id refers to a component id. -/
def Refers (components : List Json) (catalog : Option Catalog) (id ref : String) : Prop :=
  ∃ comp : Json, comp ∈ components ∧ textMember? comp "id" = some id ∧
    ∃ schema : Json, schemaOf catalog comp = some schema ∧ ref ∈ refsOf comp schema

/-! ## The adjacency -/

theorem mem_idsOf {id : String} :
    id ∈ idsOf components ↔ ∃ comp : Json, comp ∈ components ∧ textMember? comp "id" = some id :=
  List.mem_filterMap

theorem idsOf_cons (comp : Json) (rest : List Json) :
    idsOf (comp :: rest) = (textMember? comp "id").toList ++ idsOf rest := by
  unfold idsOf
  rw [List.filterMap_cons]
  cases textMember? comp "id" <;> rfl

/-- An id has the references of its component, and those it had before where no component has it. -/
theorem get?_foldlM_adjoin {adj final : OrderedMap String (List String)}
    (folded : components.foldlM (adjoin catalog) adj = some final) (distinct : (idsOf components).Nodup) (id : String) :
    (∀ comp ∈ components, textMember? comp "id" = some id ->
      ∃ schema : Json, schemaOf catalog comp = some schema ∧ final.get? id = some (refsOf comp schema)) ∧
      (id ∉ idsOf components -> final.get? id = adj.get? id) := by
  induction components generalizing adj with
  | nil =>
    cases folded
    exact ⟨fun _ impossible => absurd impossible List.not_mem_nil, fun _ => rfl⟩
  | cons comp rest ih =>
    rw [List.foldlM_cons, Option.bind_eq_bind, Option.bind_eq_some_iff] at folded
    rcases folded with ⟨middle, first, later⟩
    rw [idsOf_cons] at distinct
    have tail := (List.nodup_append.mp distinct).2.1
    rcases ih later tail with ⟨own, others⟩
    unfold adjoin at first
    cases named : textMember? comp "id" with
    | none =>
      rw [named] at first
      cases first
      constructor
      · intro other member has
        rcases List.mem_cons.mp member with rfl | after
        · rw [named] at has
          cases has
        · exact own other after has
      · intro absent
        rw [idsOf_cons, named] at absent
        exact others absent
    | some name =>
      rw [named] at first distinct
      dsimp only at first
      rw [Option.map_eq_some_iff] at first
      rcases first with ⟨schema, described, rfl⟩
      have fresh : name ∉ idsOf rest := (List.nodup_cons.mp distinct).1
      constructor
      · intro other member has
        rcases List.mem_cons.mp member with rfl | after
        · rw [named] at has
          cases has
          exact ⟨schema, described, (others fresh).trans (adj.get?_set_self _ _)⟩
        · exact own other after has
      · intro absent
        rw [idsOf_cons, named] at absent
        have apart : id ≠ name := fun same => absent (same ▸ List.mem_cons_self)
        rw [others fun member => absent (List.mem_append_right _ member)]
        exact adj.get?_set_of_ne _ apart

theorem edge_neighbors_iff {adj : OrderedMap String (List String)}
    (adjacent : childAdjacency components catalog = some adj)
    (distinct : (idsOf components).Nodup) (id ref : String) :
    DepthFirst.Edge (neighbors adj) id ref ↔ Refers components catalog id ref := by
  rcases get?_foldlM_adjoin adjacent distinct id with ⟨own, others⟩
  unfold DepthFirst.Edge neighbors
  constructor
  · intro edge
    by_cases present : id ∈ idsOf components
    · rcases mem_idsOf.mp present with ⟨comp, member, named⟩
      rcases own comp member named with ⟨schema, described, found⟩
      rw [found] at edge
      exact ⟨comp, member, named, schema, described, edge⟩
    · rw [others present] at edge
      cases edge
  · rintro ⟨comp, member, named, schema, described, edge⟩
    rcases own comp member named with ⟨other, same, found⟩
    rw [described] at same
    cases same
    rw [found]
    exact edge

/-! ## The search -/

theorem smallestFrom_lt (nodes : List String) {best place : Nat} (least : String) (early : best < place) :
    smallestFrom best least place nodes < place + nodes.length := by
  induction nodes generalizing best place least with
  | nil => exact early
  | cons node rest ih =>
    rw [smallestFrom, List.length_cons]
    split
    · have bound : smallestFrom place node (place + 1) rest < place + 1 + rest.length :=
        ih node (Nat.lt_succ_self place)
      omega
    · have bound : smallestFrom best least (place + 1) rest < place + 1 + rest.length :=
        ih least (Nat.lt_succ_of_lt early)
      omega

theorem smallest_lt {nodes : List String} (nonempty : nodes ≠ []) : smallest nodes < nodes.length := by
  cases nodes with
  | nil => exact absurd rfl nonempty
  | cons node rest =>
    have bound : smallestFrom 0 node 1 rest < 1 + rest.length := smallestFrom_lt rest node (Nat.lt_succ_self 0)
    rw [smallest, List.length_cons]
    omega

theorem isCycle_canonical {next : String -> List String} {cycle : List String}
    (isCycle : DepthFirst.IsCycle next cycle) : DepthFirst.IsCycle next (canonical cycle) :=
  isCycle.rotate (smallest_lt isCycle.1)

theorem has_recordCycle (cycles : OrderedMap String (List String)) (path : List String) :
    (recordCycle cycles path).entries ≠ [] := by
  have nonempty : ∀ (map : OrderedMap String (List String)) (key : String),
      map.has key = true -> map.entries ≠ [] := by
    intro map key has empty
    rw [OrderedMap.has, OrderedMap.get?, empty] at has
    cases has
  unfold recordCycle
  dsimp only
  split
  · rename_i has
    exact nonempty _ _ has
  · refine nonempty _ (" ".intercalate (canonical path)) ?_
    rw [OrderedMap.has, OrderedMap.get?_set_self]
    rfl

theorem mem_recordCycle {cycles : OrderedMap String (List String)} {path value : List String} {key : String}
    (found : (recordCycle cycles path).get? key = some value) :
    cycles.get? key = some value ∨ value = canonical path := by
  unfold recordCycle at found
  dsimp only at found
  split at found
  · exact .inl found
  · by_cases same : key = " ".intercalate (canonical path)
    · rw [same, OrderedMap.get?_set_self] at found
      exact .inr (Option.some.inj found).symm
    · rw [OrderedMap.get?_set_of_ne _ _ same] at found
      exact .inl found

/-- What is reported of some cycles: each of them turned, and something where there is one. -/
theorem foldl_recordCycle (paths : List (List String)) (start : OrderedMap String (List String)) :
    (∀ key value, (paths.foldl recordCycle start).get? key = some value ->
      start.get? key = some value ∨ ∃ path ∈ paths, value = canonical path) ∧
      ((paths.foldl recordCycle start).entries = [] -> start.entries = [] ∧ paths = []) := by
  induction paths generalizing start with
  | nil => exact ⟨fun _ _ found => .inl found, fun empty => ⟨empty, rfl⟩⟩
  | cons path rest ih =>
    rcases ih (recordCycle start path) with ⟨sources, nothing⟩
    constructor
    · intro key value found
      rcases sources key value found with early | ⟨other, member, same⟩
      · exact (mem_recordCycle early).imp_right fun same => ⟨path, List.mem_cons_self, same⟩
      · exact .inr ⟨other, List.mem_cons_of_mem path member, same⟩
    · intro empty
      exact absurd (nothing empty).1 (has_recordCycle start path)

theorem mem_nodesOf_of_edge {adj : OrderedMap String (List String)} {id ref : String}
    (edge : DepthFirst.Edge (neighbors adj) id ref) : id ∈ adj.keys ∧ ref ∈ nodesOf adj := by
  unfold DepthFirst.Edge neighbors at edge
  cases found : adj.get? id with
  | none =>
    rw [found] at edge
    cases edge
  | some refs =>
    rw [found] at edge
    have entry := (adj.mem_entries_iff id refs).mpr found
    exact ⟨List.mem_map.mpr ⟨(id, refs), entry, rfl⟩,
      List.mem_append_right _ (List.mem_flatMap.mpr ⟨(id, refs), entry, edge⟩)⟩

/-- The search ends on every graph.  Its reports are cycles, and where there is none every walk ends. -/
theorem searchCycles_finds (adj : OrderedMap String (List String)) :
    ∃ cycles : List (List String), searchCycles adj = some cycles ∧
      (∀ cycle ∈ cycles, DepthFirst.IsCycle (neighbors adj) cycle) ∧
      (cycles = [] -> ∀ id, DepthFirst.Settles (neighbors adj) id) := by
  rcases DepthFirst.searchAll_finds (neighbors adj) recordCycle .empty
    (fun _ _ edge => (mem_nodesOf_of_edge edge).2) (Nat.le_refl _)
    (fun root (member : root ∈ adj.keys) => List.mem_append_left (adj.entries.flatMap Prod.snd) member) with
    ⟨final, searched, paths, found, real, settles⟩
  rcases foldl_recordCycle paths .empty with ⟨sources, nothing⟩
  rw [← found] at sources nothing
  refine ⟨final.found.entries.map Prod.snd, ?_, ?_, ?_⟩
  · unfold searchCycles
    rw [searched]
    rfl
  · intro cycle member
    rcases List.mem_map.mp member with ⟨⟨key, value⟩, entry, rfl⟩
    rcases sources key value ((final.found.mem_entries_iff key value).mp entry) with impossible | ⟨path, listed, rfl⟩
    · cases impossible
    · exact isCycle_canonical (real path listed)
  · intro empty id
    have noPath := (nothing (List.map_eq_nil_iff.mp empty)).2
    by_cases listed : id ∈ adj.keys
    · exact settles noPath id listed
    · refine Acc.intro id fun ref edge => ?_
      exact absurd (mem_nodesOf_of_edge edge).1 listed

/-! ## The errors -/

section

variable {int : String -> Option Int} {str : Json -> String} {data : Option (List (String × Json))}
  {validateBindings : Bool} {errors : List A2UIValidationError}

/-- No error is about a cycle. -/
def NoCycleError (errors : List A2UIValidationError) : Prop :=
  ∀ error ∈ errors, error.code ≠ "child_cycle"

theorem NoCycleError.nil : NoCycleError [] :=
  fun _ impossible => absurd impossible List.not_mem_nil

theorem NoCycleError.single {error : A2UIValidationError} (other : error.code ≠ "child_cycle") :
    NoCycleError [error] := by
  intro found member
  rw [List.mem_singleton.mp member]
  exact other

theorem NoCycleError.append {more : List A2UIValidationError} (first : NoCycleError errors)
    (second : NoCycleError more) :
    NoCycleError (errors ++ more) :=
  fun error member => (List.mem_append.mp member).elim (first error) (second error)

theorem NoCycleError.ite {condition : Prop} [Decidable condition] {more : List A2UIValidationError}
    (first : NoCycleError errors) (second : NoCycleError more) : NoCycleError (if condition then errors else more) := by
  split
  · exact first
  · exact second

theorem NoCycleError.map {A : Type} {items : List A} {error : A -> A2UIValidationError}
    (others : ∀ item, (error item).code ≠ "child_cycle") : NoCycleError (items.map error) := by
  intro found member
  rcases List.mem_map.mp member with ⟨item, _, rfl⟩
  exact others item

theorem NoCycleError.flatten {all : List (List A2UIValidationError)}
    (each : ∀ errors ∈ all, NoCycleError errors) : NoCycleError all.flatten := by
  intro error member
  rcases List.mem_flatten.mp member with ⟨errors, listed, inside⟩
  exact each errors listed error inside

theorem noCycleError_schemaErrors {i : Nat} {ctype : String} {comp schema : Json}
    (found : schemaErrors str i ctype comp schema = some errors) : NoCycleError errors := by
  unfold schemaErrors at found
  split at found
  · cases found
    exact .single (by decide : "unknown_component" ≠ "child_cycle")
  · simp only [Option.bind_eq_bind, Option.bind_eq_some_iff, Option.some.injEq] at found
    rcases found with ⟨required, _, reqs, _, each, mapped, rfl⟩
    refine .flatten fun errors listed => ?_
    have missing : ∀ req, NoCycleError [missingRequiredProp i ctype req] := fun req =>
      .single (by decide : "missing_required_prop" ≠ "child_cycle")
    rcases exists_of_mem_results mapped listed with ⟨req, _, gives⟩
    unfold requiredErrors at gives
    split at gives
    · cases gives
    · cases gives
    · cases gives
      exact .ite .nil (missing _)
    · cases gives
      exact missing _

variable {comp : Json}

theorem noCycleError_catalogErrors {i : Nat} (found : catalogErrors str catalog i comp = some errors) :
    NoCycleError errors := by
  unfold catalogErrors at found
  split at found
  · cases found
    exact .nil
  · split at found
    · cases found
      exact .nil
    · rcases Option.bind_eq_some_iff.mp found with ⟨schema, _, gives⟩
      exact noCycleError_schemaErrors gives

theorem componentErrors_eq_some {ids : List String} {i : Nat}
    (found : componentErrors int str ids data catalog validateBindings i comp = some errors) :
    ∃ ofCatalog : List A2UIValidationError, ∃ schema : Json,
      catalogErrors str catalog i comp = some ofCatalog ∧ schemaOf catalog comp = some schema ∧
        errors = identityErrors i comp ++ ofCatalog ++ (if comp.isObject then refErrors ids i comp schema else []) ++
          if comp.isObject && validateBindings then bindingErrors int (.object (data.getD [])) i comp else [] := by
  unfold componentErrors at found
  simp only [Option.bind_eq_bind, Option.bind_eq_some_iff, Option.some.injEq] at found
  rcases found with ⟨ofCatalog, gives, schema, described, rfl⟩
  exact ⟨ofCatalog, schema, gives, described, rfl⟩

theorem noCycleError_componentErrors {ids : List String} {i : Nat}
    (found : componentErrors int str ids data catalog validateBindings i comp = some errors) : NoCycleError errors := by
  rcases componentErrors_eq_some found with ⟨ofCatalog, schema, gives, _, rfl⟩
  have identity : NoCycleError (identityErrors i comp) :=
    .append (.ite (.single (by decide : "missing_id" ≠ "child_cycle")) .nil)
      (.ite (.single (by decide : "missing_component_type" ≠ "child_cycle")) .nil)
  have refs : NoCycleError (refErrors ids i comp schema) :=
    .map fun edge => (by decide : "unresolved_child" ≠ "child_cycle")
  have bindings : NoCycleError (bindingErrors int (.object (data.getD [])) i comp) :=
    .map fun path => (by decide : "unresolved_binding" ≠ "child_cycle")
  exact ((identity.append (noCycleError_catalogErrors gives)).append (.ite refs .nil)).append (.ite bindings .nil)

theorem noCycleError_duplicateErrors (seen ids : List String) : NoCycleError (duplicateErrors seen ids) := by
  induction ids generalizing seen with
  | nil => exact .nil
  | cons cid rest ih =>
    exact .append (.ite (.single (by decide : "duplicate_id" ≠ "child_cycle")) .nil) (ih _)

theorem validateComponents_eq_some
    (found : validateComponents int str components data catalog validateBindings = some errors) :
    ∃ ofComponents : List (List A2UIValidationError), ∃ cycles : List (List String),
      (components.zipIdx.mapM fun entry =>
        componentErrors int str (idsOf components) data catalog validateBindings entry.2 entry.1) = some ofComponents ∧
        findChildCycles components catalog = some cycles ∧
        errors = duplicateErrors [] (idsOf components) ++ ofComponents.flatten ++ cycles.map childCycle ++
          if "root" ∈ idsOf components then [] else [noRoot] := by
  unfold validateComponents at found
  simp only [Option.bind_eq_bind, Option.bind_eq_some_iff, Option.some.injEq] at found
  rcases found with ⟨ofComponents, mapped, cycles, searched, rfl⟩
  exact ⟨ofComponents, cycles, mapped, searched, rfl⟩

/-- The errors about cycles are the reports of the search. -/
theorem mem_errors_iff {ofComponents : List (List A2UIValidationError)} {cycles : List (List String)}
    (mapped : (components.zipIdx.mapM fun entry =>
      componentErrors int str (idsOf components) data catalog validateBindings entry.2 entry.1) = some ofComponents)
    {error : A2UIValidationError} (about : error.code = "child_cycle") :
    (error ∈ duplicateErrors [] (idsOf components) ++ ofComponents.flatten ++ cycles.map childCycle ++
      if "root" ∈ idsOf components then [] else [noRoot]) ↔ error ∈ cycles.map childCycle := by
  have before : NoCycleError (duplicateErrors [] (idsOf components) ++ ofComponents.flatten) := by
    refine (noCycleError_duplicateErrors [] _).append (.flatten fun errors listed => ?_)
    rcases exists_of_mem_results mapped listed with ⟨entry, _, gives⟩
    exact noCycleError_componentErrors gives
  have after : NoCycleError (if "root" ∈ idsOf components then [] else [noRoot]) :=
    .ite .nil (.single (by decide : "no_root" ≠ "child_cycle"))
  rw [List.mem_append, List.mem_append]
  constructor
  · rintro ((early | own) | late)
    · exact absurd about (before error early)
    · exact own
    · exact absurd about (after error late)
  · exact fun own => .inl (.inr own)

/-! ## Unfolding the tree -/

inductive Tree where
  | node (id : String) (children : List Tree)

/-- The tree under an id, with a bound on its depth; nothing where a reference does not resolve. -/
def expand (components : List Json) (catalog : Option Catalog) : Nat -> String -> Option Tree
  | 0, _ => none
  | fuel + 1, id =>
    (components.find? fun comp => textMember? comp "id" == some id).bind fun comp =>
      (schemaOf catalog comp).bind fun schema =>
        ((refsOf comp schema).mapM (expand components catalog fuel)).map (Tree.node id)

theorem expand_mono {fuel more : Nat} {id : String} {tree : Tree}
    (found : expand components catalog fuel id = some tree)
    (deeper : fuel ≤ more) : expand components catalog more id = some tree := by
  induction fuel generalizing more id tree with
  | zero => cases found
  | succ fuel ih =>
    cases more with
    | zero => omega
    | succ more =>
      rw [expand] at found ⊢
      rcases Option.bind_eq_some_iff.mp found with ⟨comp, listed, rest⟩
      rcases Option.bind_eq_some_iff.mp rest with ⟨schema, described, grown⟩
      rcases Option.map_eq_some_iff.mp grown with ⟨children, mapped, rfl⟩
      rw [listed, Option.bind_some, described, Option.bind_some]
      refine Option.map_eq_some_iff.mpr ⟨children, mapM_mono (fun ref subtree own => ?_) mapped, rfl⟩
      exact ih own (by omega)

/-- One bound serves several references. -/
theorem exists_common_fuel {refs : List String}
    (each : ∀ ref ∈ refs, ∃ fuel tree, expand components catalog fuel ref = some tree) :
    ∃ fuel, ∀ ref ∈ refs, (expand components catalog fuel ref).isSome = true := by
  induction refs with
  | nil => exact ⟨0, fun _ impossible => absurd impossible List.not_mem_nil⟩
  | cons ref rest ih =>
    rcases each ref List.mem_cons_self with ⟨own, tree, grown⟩
    rcases ih (fun other member => each other (List.mem_cons_of_mem ref member)) with ⟨fuel, others⟩
    refine ⟨max own fuel, fun other member => ?_⟩
    rcases List.mem_cons.mp member with rfl | later
    · exact Option.isSome_iff_exists.mpr ⟨tree, expand_mono grown (Nat.le_max_left own fuel)⟩
    · rcases Option.isSome_iff_exists.mp (others other later) with ⟨subtree, found⟩
      exact Option.isSome_iff_exists.mpr ⟨subtree, expand_mono found (Nat.le_max_right own fuel)⟩

/-- Under an id from which every walk ends, a tree whose references resolve is finite. -/
theorem exists_expand {adj : OrderedMap String (List String)} (adjacent : childAdjacency components catalog = some adj)
    (distinct : (idsOf components).Nodup)
    (resolved : ∀ id ref, Refers components catalog id ref -> ref ∈ idsOf components)
    {id : String} (settles : DepthFirst.Settles (neighbors adj) id) (present : id ∈ idsOf components) :
    ∃ fuel tree, expand components catalog fuel id = some tree := by
  induction settles with
  | intro id _ ih =>
    have listed : (components.find? fun comp => textMember? comp "id" == some id).isSome = true := by
      rcases mem_idsOf.mp present with ⟨comp, member, named⟩
      exact List.find?_isSome.mpr ⟨comp, member, beq_iff_eq.mpr named⟩
    rcases Option.isSome_iff_exists.mp listed with ⟨comp, found⟩
    have member := List.mem_of_find?_eq_some found
    have named : textMember? comp "id" = some id := by
      have matching := List.find?_some found
      exact eq_of_beq matching
    rcases (get?_foldlM_adjoin adjacent distinct id).1 comp member named with ⟨schema, described, _⟩
    have children : ∀ ref ∈ refsOf comp schema,
        ∃ fuel tree, expand components catalog fuel ref = some tree := by
      intro ref referred
      have refers : Refers components catalog id ref := ⟨comp, member, named, schema, described, referred⟩
      exact ih ref ((edge_neighbors_iff adjacent distinct id ref).mpr refers) (resolved id ref refers)
    rcases exists_common_fuel children with ⟨fuel, each⟩
    rcases Option.isSome_iff_exists.mp ((isSome_mapM _ _).mpr each) with ⟨subtrees, mapped⟩
    refine ⟨fuel + 1, .node id subtrees, ?_⟩
    rw [expand, found, Option.bind_some, described, Option.bind_some, mapped]
    rfl

/-! ## What a clean list is -/

theorem findChildCycles_eq_some {cycles : List (List String)}
    (found : findChildCycles components catalog = some cycles) :
    ∃ adj : OrderedMap String (List String), childAdjacency components catalog = some adj ∧
      searchCycles adj = some cycles :=
  Option.bind_eq_some_iff.mp found

theorem isObject_of_textMember {value : Json} {key text : String} (found : textMember? value key = some text) :
    value.isObject = true := by
  cases value <;> first | rfl | cases found

/-- Where a component has no error, it is an object and its references resolve. -/
theorem resolved_of_no_errors {ids : List String} {i : Nat}
    (clean : componentErrors int str ids data catalog validateBindings i comp = some []) {schema : Json}
    (described : schemaOf catalog comp = some schema) :
    ∀ edge ∈ collectComponentRefEdges comp schema, edge.2 ∈ ids := by
  rcases componentErrors_eq_some clean with ⟨ofCatalog, same, _, other, nothing⟩
  rw [described] at other
  cases other
  have parts := List.append_eq_nil_iff.mp nothing.symm
  have front := List.append_eq_nil_iff.mp parts.1
  have identity := (List.append_eq_nil_iff.mp (List.append_eq_nil_iff.mp front.1).1).1
  have isObject : comp.isObject = true := by
    cases named : textMember? comp "id" with
    | none =>
      rw [named] at identity
      cases identity
    | some id => exact isObject_of_textMember named
  have refs := front.2
  rw [if_pos isObject] at refs
  intro edge member
  by_cases known : edge.2 ∈ ids
  · exact known
  · have nothing := List.filter_eq_nil_iff.mp (List.map_eq_nil_iff.mp refs) edge member
    exact absurd (decide_eq_true known) nothing

/-! ## The catalog as it is meant -/

/-- A dictionary of component schemas, each with a list of required names or without one. -/
def WellFormedCatalog (catalog : Option Catalog) : Prop :=
  ∃ schemas : List (String × Json), catalogComponents catalog = .object schemas ∧
    ∀ entry ∈ schemas, entry.2.isObject = true ∧
      (memberOrNone entry.2 "required" = .null ∨
        ∃ names : List String, memberOrNone entry.2 "required" = .array (names.map .string))

theorem get_eq_some {value : Json} (isObject : value.isObject = true) (key : String) :
    get value key = some (memberOrNone value key) := by
  cases value with
  | object members => rfl
  | _ => cases isObject

theorem exists_schemaOf (wellFormed : WellFormedCatalog catalog) (comp : Json) :
    ∃ schema : Json, schemaOf catalog comp = some schema := by
  rcases wellFormed with ⟨schemas, described, _⟩
  unfold schemaOf
  rw [described]
  cases textMember? comp "component" with
  | none => exact ⟨_, rfl⟩
  | some ctype => exact ⟨_, rfl⟩

theorem exists_schemaErrors (i : Nat) (ctype : String) (comp : Json) {schema : Json}
    (describes : schema.isNull = true ∨ schema.isObject = true ∧
      (memberOrNone schema "required" = .null ∨
        ∃ names : List String, memberOrNone schema "required" = .array (names.map .string))) :
    (schemaErrors str i ctype comp schema).isSome = true := by
  unfold schemaErrors
  rcases describes with isNull | ⟨isObject, required⟩
  · rw [if_pos isNull]
    rfl
  · split
    · rfl
    · rw [get_eq_some isObject]
      rcases required with nothing | ⟨names, listed⟩
      · rw [nothing]
        rfl
      · rw [listed]
        have each : ((names.map Json.string).mapM (requiredErrors str i ctype comp)).isSome = true := by
          refine (isSome_mapM _ _).mpr fun req member => ?_
          rcases List.mem_map.mp member with ⟨name, _, rfl⟩
          rfl
        rcases Option.isSome_iff_exists.mp each with ⟨results, mapped⟩
        simp only [Option.bind_eq_bind, Option.bind_some, iterate, mapped]
        rfl

theorem exists_catalogErrors (wellFormed : WellFormedCatalog catalog) (i : Nat) (comp : Json) :
    (catalogErrors str catalog i comp).isSome = true := by
  rcases wellFormed with ⟨schemas, described, each⟩
  unfold catalogErrors
  cases typed : textMember? comp "component" with
  | none => rfl
  | some ctype =>
    dsimp only
    split
    · rfl
    · have schema : schemaOf catalog comp = some ((schemas.lookup ctype).getD .null) := by
        unfold schemaOf
        rw [typed, described]
        rfl
      rw [schema, Option.bind_some]
      apply exists_schemaErrors
      cases found : schemas.lookup ctype with
      | none => exact .inl rfl
      | some entry => exact .inr (each (ctype, entry) (OrderedMap.mem_of_lookup_eq_some found))

theorem exists_childAdjacency (wellFormed : WellFormedCatalog catalog) (components : List Json)
    (adj : OrderedMap String (List String)) : (components.foldlM (adjoin catalog) adj).isSome = true := by
  induction components generalizing adj with
  | nil => rfl
  | cons comp rest ih =>
    have first : ∃ later, adjoin catalog adj comp = some later := by
      unfold adjoin
      cases textMember? comp "id" with
      | none => exact ⟨adj, rfl⟩
      | some id =>
        rcases exists_schemaOf wellFormed comp with ⟨schema, described⟩
        exact ⟨adj.set id (refsOf comp schema), by rw [described]; rfl⟩
    rcases first with ⟨later, gives⟩
    rw [List.foldlM_cons, gives]
    exact ih later

/-- With a catalog as it is meant, nothing raises. -/
theorem exists_validateComponents (wellFormed : WellFormedCatalog catalog) :
    (validateComponents int str components data catalog validateBindings).isSome = true := by
  have ofComponents : (components.zipIdx.mapM fun entry =>
      componentErrors int str (idsOf components) data catalog validateBindings entry.2 entry.1).isSome = true := by
    refine (isSome_mapM _ _).mpr fun entry _ => ?_
    rcases Option.isSome_iff_exists.mp (exists_catalogErrors wellFormed entry.2 entry.1) with ⟨ofCatalog, gives⟩
    rcases exists_schemaOf wellFormed entry.1 with ⟨schema, described⟩
    unfold componentErrors
    rw [gives, described]
    rfl
  rcases Option.isSome_iff_exists.mp ofComponents with ⟨errors, mapped⟩
  rcases Option.isSome_iff_exists.mp (exists_childAdjacency wellFormed components .empty) with ⟨adj, adjacent⟩
  rcases searchCycles_finds adj with ⟨cycles, searched, _⟩
  have found : findChildCycles components catalog = some cycles :=
    Option.bind_eq_some_iff.mpr ⟨adj, adjacent, searched⟩
  unfold validateComponents
  dsimp only
  rw [mapped, found]
  rfl

/-! ## The verdict on the graph -/

/-- What the errors of a list of components say of its references. -/
structure JudgesGraph (components : List Json) (catalog : Option Catalog) (errors : List A2UIValidationError) :
    Prop where
  cycle_iff : (∃ error ∈ errors, error.code = "child_cycle") ↔
    ∃ id, Relation.TransGen (Refers components catalog) id id
  reported : ∀ error ∈ errors, error.code = "child_cycle" -> ∃ cycle : List String,
    error = childCycle cycle ∧ cycle ≠ [] ∧ (cycle ++ cycle.head?.toList).IsChain (Refers components catalog)
  resolved : errors = [] -> ∀ comp ∈ components, ∀ schema, schemaOf catalog comp = some schema ->
    ∀ edge ∈ collectComponentRefEdges comp schema,
      ∃ other ∈ components, textMember? other "id" = some edge.2
  expands : errors = [] -> ∃ fuel tree, expand components catalog fuel "root" = some tree

theorem judgesGraph_validateComponents (distinct : (idsOf components).Nodup)
    (found : validateComponents int str components data catalog validateBindings = some errors) :
    JudgesGraph components catalog errors := by
  rcases validateComponents_eq_some found with ⟨ofComponents, cycles, mapped, searched, rfl⟩
  rcases findChildCycles_eq_some searched with ⟨adj, adjacent, same⟩
  rcases searchCycles_finds adj with ⟨reports, searching, real, settles⟩
  rw [same] at searching
  cases searching
  have edges : DepthFirst.Edge (neighbors adj) = Refers components catalog := by
    funext id ref
    exact propext (edge_neighbors_iff adjacent distinct id ref)
  have resolves : (duplicateErrors [] (idsOf components) ++ ofComponents.flatten ++ cycles.map childCycle ++
      if "root" ∈ idsOf components then [] else [noRoot]) = [] ->
      ∀ comp ∈ components, ∀ schema, schemaOf catalog comp = some schema ->
        ∀ edge ∈ collectComponentRefEdges comp schema, edge.2 ∈ idsOf components := by
    intro clean comp member schema described
    have flat := (List.append_eq_nil_iff.mp (List.append_eq_nil_iff.mp (List.append_eq_nil_iff.mp clean).1).1).2
    rcases List.mem_iff_getElem?.mp member with ⟨i, place⟩
    rcases exists_mem_results mapped (List.mk_mem_zipIdx_iff_getElem?.mpr place) with ⟨own, listed, gives⟩
    rw [List.flatten_eq_nil_iff.mp flat own listed] at gives
    exact resolved_of_no_errors gives described
  constructor
  · constructor
    · rintro ⟨error, member, about⟩
      rcases List.mem_map.mp ((mem_errors_iff mapped about).mp member) with ⟨cycle, listed, _⟩
      rcases (real cycle listed).cyclic with ⟨id, loop⟩
      exact ⟨id, edges ▸ loop⟩
    · rintro ⟨id, loop⟩
      cases reports : cycles with
      | nil => exact absurd (edges ▸ loop) (settles reports id).not_cyclic
      | cons cycle rest =>
        refine ⟨childCycle cycle, ?_, rfl⟩
        rw [← reports]
        refine (mem_errors_iff mapped rfl).mpr (List.mem_map.mpr ⟨cycle, ?_, rfl⟩)
        rw [reports]
        exact List.mem_cons_self
  · intro error member about
    rcases List.mem_map.mp ((mem_errors_iff mapped about).mp member) with ⟨cycle, listed, rfl⟩
    rcases real cycle listed with ⟨nonempty, chain⟩
    exact ⟨cycle, rfl, nonempty, edges ▸ chain⟩
  · intro clean comp member schema described edge inside
    exact mem_idsOf.mp (resolves clean comp member schema described edge inside)
  · intro clean
    have parts := List.append_eq_nil_iff.mp clean
    have reports := List.map_eq_nil_iff.mp (List.append_eq_nil_iff.mp parts.1).2
    have root : "root" ∈ idsOf components := by
      by_cases present : "root" ∈ idsOf components
      · exact present
      · have missing := parts.2
        rw [if_neg present] at missing
        cases missing
    refine exists_expand adjacent distinct ?_ (settles reports "root") root
    rintro id ref ⟨comp, member, _, schema, described, referred⟩
    rcases List.mem_map.mp referred with ⟨edge, inside, rfl⟩
    exact resolves clean comp member schema described edge inside

/-- The search for cycles ends on every graph.  What the validator answers is a right verdict on the references, and
with a catalog as it is meant it does answer. -/
theorem validateA2UIComponents_judges (int : String -> Option Int) (str : Json -> String) {components : List Json}
    (distinct : (idsOf components).Nodup) (data : Option (List (String × Json))) (catalog : Option Catalog)
    (validateBindings : Bool) :
    (∀ adj, (searchCycles adj).isSome = true) ∧
      (∀ result, validateA2UIComponents int str (.array components) data catalog validateBindings = some result ->
        JudgesGraph components catalog result.errors) ∧
      (WellFormedCatalog catalog ->
        (validateA2UIComponents int str (.array components) data catalog validateBindings).isSome = true) := by
  refine ⟨fun adj => ?_, fun result found => ?_, fun wellFormed => ?_⟩
  · rcases searchCycles_finds adj with ⟨cycles, searched, _⟩
    rw [searched]
    rfl
  · cases components with
    | nil =>
      cases found
      have noEdge : ∀ id ref, ¬ Refers [] catalog id ref := by
        rintro id ref ⟨comp, member, _⟩
        cases member
      constructor
      · constructor
        · rintro ⟨error, member, about⟩
          rw [List.mem_singleton.mp member] at about
          exact absurd about (by decide)
        · rintro ⟨id, loop⟩
          rcases Relation.TransGen.head'_iff.mp loop with ⟨ref, edge, _⟩
          exact absurd edge (noEdge id ref)
      · intro error member about
        rw [List.mem_singleton.mp member] at about
        exact absurd about (by decide)
      · exact fun clean => absurd clean (List.cons_ne_nil _ _)
      · exact fun clean => absurd clean (List.cons_ne_nil _ _)
    | cons comp rest =>
      rcases Option.map_eq_some_iff.mp found with ⟨errors, validated, rfl⟩
      exact judgesGraph_validateComponents distinct validated
  · cases components with
    | nil => rfl
    | cons comp rest =>
      have validated : (validateComponents int str (comp :: rest) data catalog validateBindings).isSome = true :=
        exists_validateComponents wellFormed
      exact Option.isSome_map.trans validated

end

def card (id : String) (fields : List (String × Json)) : Json :=
  .object (("id", .string id) :: ("component", .string "Card") :: fields)

/-- Two cards, each the child of the other. -/
def loopingCards : List Json :=
  [card "root" [("children", .array [.string "side"])], card "side" [("child", .string "root")]]

example : findChildCycles loopingCards none = some [["root", "side"]] := by decide

theorem validateA2UIComponents_judges_loopingCards :
    ∃ result : ValidateA2UIResult,
      validateA2UIComponents (fun _ => none) (fun _ => "") (.array loopingCards) none none true = some result ∧
        JudgesGraph loopingCards none result.errors := by
  have judged := validateA2UIComponents_judges (fun _ => none) (fun _ => "") (by decide : (idsOf loopingCards).Nodup)
    none none true
  have answers := judged.2.2 ⟨[], rfl, fun _ impossible => absurd impossible List.not_mem_nil⟩
  rcases Option.isSome_iff_exists.mp answers with ⟨result, found⟩
  exact ⟨result, found, judged.2.1 result found⟩

end A2uiToolkit
end AgUi
