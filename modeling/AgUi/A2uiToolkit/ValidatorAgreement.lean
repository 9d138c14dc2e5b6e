import AgUi.A2uiToolkit.ComponentGraph
import AgUi.A2uiToolkit.DotnetValidator

namespace AgUi
namespace A2uiToolkit

open Library Protocol A2UIComponentValidator

/-!
# Where the two validators agree

The Python and the .NET validator are to give one verdict, with the same error
codes in the same order.  They read a single reference differently when it is
a list, treat the empty id differently, and read an index, a name in
`required` and the order of texts each in the way of its own language.  On
every input that avoids these the two agree.
-/

/-! ## Conditions -/

/-- Python goes through a list where it looks for one reference; .NET does not. -/
def SingleReference : Json -> Prop
  | .array items => items.flatMap pushRef = []
  | _ => True

/-- The values a component has where one reference is looked for, each with its path. -/
def references (comp schema : Json) : List (String × Json) :=
  placesOfComponent (fun path value => [(path, value)]) comp schema

/-- The names a schema requires are a list of texts, or there are none. -/
def RequiresTexts (schema : Json) : Prop :=
  schema.isNull = true ∨ schema.isObject = true ∧
    (iterate (memberOrNone schema "required") = some [] ∨
      ∃ names : List String, memberOrNone schema "required" = .array (names.map .string))

/-- Along a path the two name the same place, or none, of every array it comes to. -/
def WalksAlike (int tryParse : String -> Option Int) : List String -> Json -> Prop
  | [], _ => True
  | segment :: rest, cursor =>
    if segment = "" then WalksAlike int tryParse rest cursor
    else
      match cursor with
      | .array items =>
        ∀ (index : Nat) (item : Json), items[index]? = some item ->
          (int segment = some (index : Int) ↔ tryParse segment = some (index : Int)) ∧
            (tryParse segment = some (index : Int) -> WalksAlike int tryParse rest item)
      | .object members => ∀ value, members.lookup segment = some value -> WalksAlike int tryParse rest value
      | _ => True

/-- The chains of references that the search closes. -/
def closedChains (adjacency : OrderedMap String (List String)) : List (List String) :=
  ((DepthFirst.searchAll (neighbors adjacency) DepthFirst.collect
    (DepthFirst.enough (neighbors adjacency) (nodesOf adjacency)) adjacency.keys []).map fun search =>
      search.found).getD []

/-- The texts two chains of ids are told apart by. -/
def pythonKey (path : List String) : String :=
  " ".intercalate (canonical path)

def dotnetKey (path : List String) : String :=
  " ".intercalate (canonicalize path)

/-- What the two validators read alike. -/
structure ReadAlike (int tryParse : String -> Option Int) (components : List Json)
    (data : Option (List (String × Json))) (catalog : Option Components) (validateBindings : Bool) : Prop where
  /-- At most one id is empty, and then no reference is. -/
  emptyIds : (idsOf components).count "" ≤ 1
  emptyRefs : "" ∈ idsOf components -> ∀ comp ∈ components,
    ∀ edge ∈ A2UIComponentValidator.collectComponentRefEdges comp (componentSchema catalog comp),
      edge.2 ≠ ""
  /-- No list stands where one reference is looked for, unless it holds none. -/
  single : ∀ comp ∈ components,
    ∀ reference ∈ references comp (componentSchema catalog comp), SingleReference reference.2
  /-- The schemas in use require texts. -/
  required : ∀ schemas, catalog = some schemas -> ∀ comp ∈ components,
    ∀ ctype, textMember? comp "component" = some ctype -> RequiresTexts ((schemas.lookup ctype).getD .null)
  /-- The bound paths lead both to the same places of the data model. -/
  indexes : validateBindings = true -> ∀ comp ∈ components, comp.isObject = true ->
    ∀ path ∈ collectAbsoluteBindingPaths comp, WalksAlike int tryParse (path.splitOn "/") (.object (data.getD []))
  /-- Two chains of references that are closed are one to Python where they are one to .NET. -/
  chains : ∀ first ∈ closedChains (buildChildAdjacency components catalog),
    ∀ second ∈ closedChains (buildChildAdjacency components catalog),
      (pythonKey first = pythonKey second ↔ dotnetKey first = dotnetKey second)

/-- The codes of the findings, in order. -/
def codes (result : ValidateA2UIResult) : List String :=
  result.errors.map A2UIValidationError.code

/-- Both answer, with one verdict and the same codes in the same order. -/
def SameFindings (python dotnet : Option ValidateA2UIResult) : Prop :=
  ∃ left : ValidateA2UIResult, ∃ right : ValidateA2UIResult,
    python = some left ∧ dotnet = some right ∧ left.valid = right.valid ∧ codes left = codes right

/-- The catalog as Python has it. -/
def asDictionary (catalog : Option Components) : Option Catalog :=
  catalog.map fun schemas => [("components", .object schemas)]

/-! ## References -/

theorem pushSingle_eq_addSingle (path : String) {value : Json} (single : SingleReference value) :
    pushSingle path value = addSingle path value := by
  unfold pushSingle addSingle
  congr 1
  cases value with
  | array items => exact single
  | _ => rfl

/-! Python collects from the same places. -/

theorem pushList_eq (field : String) (value : Json) : pushList field value = placesOfList pushSingle field value := by
  cases value <;> rfl

theorem markedEdges_eq (field : String) (schema value : Json) :
    markedEdges field schema value = placesMarked pushSingle field schema value := by
  unfold markedEdges placesMarked
  rw [pushList_eq]

theorem itemEdges_eq (field : String) (itemProps : List (String × Json)) (k : Nat) (item : Json) :
    itemEdges field itemProps k item = placesOfElement pushSingle field itemProps k item := by
  unfold itemEdges placesOfElement
  simp only [markedEdges_eq]

theorem arrayEdges_eq (field : String) (propSchema value : Json) :
    arrayEdges field propSchema value = placesOfElements pushSingle field propSchema value := by
  have each : placesOfElement pushSingle = itemEdges := by
    funext name itemProps k item
    exact (itemEdges_eq name itemProps k item).symm
  unfold placesOfElements
  rw [each]
  rfl

theorem propEdges_eq (comp : Json) (field : String) (propSchema : Json) :
    propEdges comp field propSchema = placesOfProperty pushSingle comp field propSchema := by
  unfold propEdges placesOfProperty
  rw [markedEdges_eq, arrayEdges_eq]

theorem collectComponentRefEdges_eq (comp schema : Json) :
    collectComponentRefEdges comp schema = placesOfComponent pushSingle comp schema := by
  have each : placesOfProperty pushSingle = propEdges := by
    funext comp field propSchema
    exact (propEdges_eq comp field propSchema).symm
  unfold placesOfComponent
  rw [← pushList_eq, each]
  rfl

/-! What is made of the places is made of each value by itself. -/

section Places

variable {A : Type} (single : String -> Json -> List A)

theorem placesOfList_eq (path : String) (value : Json) :
    placesOfList single path value =
      (placesOfList (fun path value => [(path, value)]) path value).flatMap fun place => single place.1 place.2 := by
  cases value with
  | array items => simp only [placesOfList, List.flatMap_assoc, List.flatMap_singleton]
  | _ => exact (List.append_nil _).symm

theorem placesMarked_eq (path : String) (schema value : Json) :
    placesMarked single path schema value =
      (placesMarked (fun path value => [(path, value)]) path schema value).flatMap fun place =>
        single place.1 place.2 := by
  unfold placesMarked
  split
  · exact (List.append_nil _).symm
  · split
    · exact placesOfList_eq single path value
    · rfl

theorem placesOfElement_eq (name : String) (itemProperties : List (String × Json)) (k : Nat) (element : Json) :
    placesOfElement single name itemProperties k element =
      (placesOfElement (fun path value => [(path, value)]) name itemProperties k element).flatMap fun place =>
        single place.1 place.2 := by
  unfold placesOfElement
  split
  · rw [List.flatMap_assoc]
    congr 1
    funext entry
    split
    · exact placesMarked_eq single _ _ _
    · rfl
  · rfl

theorem placesOfElements_eq (name : String) (propertySchema value : Json) :
    placesOfElements single name propertySchema value =
      (placesOfElements (fun path value => [(path, value)]) name propertySchema value).flatMap fun place =>
        single place.1 place.2 := by
  unfold placesOfElements
  cases memberOrNone (memberOrNone propertySchema "items") "properties" with
  | object itemProperties =>
    cases value with
    | array elements =>
      dsimp only
      rw [List.flatMap_assoc]
      congr 1
      funext entry
      exact placesOfElement_eq single _ _ _ _
    | _ => rfl
  | _ => rfl

theorem placesOfProperty_eq (component : Json) (name : String) (propertySchema : Json) :
    placesOfProperty single component name propertySchema =
      (placesOfProperty (fun path value => [(path, value)]) component name propertySchema).flatMap fun place =>
        single place.1 place.2 := by
  unfold placesOfProperty
  split
  · rfl
  · split
    · exact placesMarked_eq single _ _ _
    · split
      · exact placesOfElements_eq single _ _ _
      · rfl

theorem placesOfComponent_eq (component schema : Json) :
    placesOfComponent single component schema =
      (references component schema).flatMap fun place => single place.1 place.2 := by
  unfold references placesOfComponent
  rw [List.flatMap_append, List.flatMap_append, List.flatMap_singleton, placesOfList_eq]
  congr 1
  cases memberOrNone schema "properties" with
  | object properties =>
    dsimp only
    rw [List.flatMap_assoc]
    congr 1
    funext entry
    exact placesOfProperty_eq single _ _ _
  | _ => rfl

end Places

/-- Where no list stands for one reference the two collect the same. -/
theorem collectComponentRefEdges_agree {comp schema : Json}
    (single : ∀ reference ∈ references comp schema, SingleReference reference.2) :
    collectComponentRefEdges comp schema = A2UIComponentValidator.collectComponentRefEdges comp schema := by
  rw [collectComponentRefEdges_eq, A2UIComponentValidator.collectComponentRefEdges, placesOfComponent_eq pushSingle,
    placesOfComponent_eq addSingle]
  apply List.flatMap_congr
  exact fun place member => pushSingle_eq_addSingle place.1 (single place member)

/-! ## Indexes -/

/-- The item a parsed segment names. -/
def itemAt (items : List Json) (parsed : Option Int) : Option Json :=
  parsed.bind fun index => if index < 0 then none else items[index.toNat]?

theorem itemAt_eq_some_iff {items : List Json} {parsed : Option Int} {value : Json} :
    itemAt items parsed = some value ↔
      ∃ index : Nat, index < items.length ∧ parsed = some (index : Int) ∧ items[index]? = some value := by
  unfold itemAt
  rw [Option.bind_eq_some_iff]
  constructor
  · rintro ⟨index, named, found⟩
    by_cases negative : index < 0
    · rw [if_pos negative] at found
      cases found
    · rw [if_neg negative] at found
      refine ⟨index.toNat, (List.getElem?_eq_some_iff.mp found).1, ?_, found⟩
      rw [named, Int.toNat_of_nonneg (Int.not_lt.mp negative)]
  · rintro ⟨index, _, named, found⟩
    refine ⟨index, named, ?_⟩
    rw [if_neg (Int.not_lt.mpr (Int.natCast_nonneg index)), Int.toNat_natCast]
    exact found

theorem itemAt_congr {items : List Json} {left right : Option Int}
    (same : ∀ index, index < items.length -> (left = some (index : Int) ↔ right = some (index : Int))) :
    itemAt items left = itemAt items right := by
  apply Option.ext
  intro value
  rw [itemAt_eq_some_iff, itemAt_eq_some_iff]
  constructor
  · rintro ⟨index, inside, named, found⟩
    exact ⟨index, inside, (same index inside).mp named, found⟩
  · rintro ⟨index, inside, named, found⟩
    exact ⟨index, inside, (same index inside).mpr named, found⟩

theorem segmentsResolve_array (int : String -> Option Int) (segment : String) (rest : List String) (items : List Json) :
    segmentsResolve int (segment :: rest) (.array items) =
      (itemAt items (int segment)).any (segmentsResolve int rest) := by
  unfold segmentsResolve itemAt
  cases int segment with
  | none => rfl
  | some index =>
    dsimp only [Option.bind_some]
    split
    · rfl
    · cases items[index.toNat]? <;> rfl

theorem pathResolves_array (tryParse : String -> Option Int) {segment : String} (named : segment ≠ "")
    (rest : List String)
    (items : List Json) :
    pathResolves tryParse (segment :: rest) (.array items) =
      (itemAt items (tryParse segment)).any (pathResolves tryParse rest) := by
  unfold pathResolves itemAt
  rw [if_neg named]
  dsimp only
  cases tryParse segment with
  | none => rfl
  | some index =>
    dsimp only [Option.bind_some]
    split
    · rfl
    · cases items[index.toNat]? <;> rfl

/-- A path resolves alike where the two walk alike. -/
theorem segmentsResolve_eq {int tryParse : String -> Option Int} {cursor : Json} {segments : List String}
    (alike : WalksAlike int tryParse segments cursor) :
    segmentsResolve int (segments.filter fun segment => segment ≠ "") cursor =
      pathResolves tryParse segments cursor := by
  induction segments generalizing cursor with
  | nil => cases cursor <;> rfl
  | cons segment rest ih =>
    unfold WalksAlike at alike
    rw [List.filter_cons]
    by_cases empty : segment = ""
    · have passed : ¬ decide (segment ≠ "") = true := fun named => absurd empty (of_decide_eq_true named)
      rw [if_neg passed]
      unfold pathResolves
      rw [if_pos empty] at alike ⊢
      exact ih alike
    · rw [if_neg empty] at alike
      rw [if_pos (decide_eq_true empty)]
      cases cursor with
      | object members =>
        unfold pathResolves segmentsResolve
        rw [if_neg empty]
        dsimp only
        cases found : members.lookup segment with
        | none => rfl
        | some value => exact ih (alike value found)
      | array items =>
        rw [segmentsResolve_array, pathResolves_array tryParse empty,
          itemAt_congr fun index inside => (alike index _ (List.getElem?_eq_getElem inside)).1]
        cases found : itemAt items (tryParse segment) with
        | none => rfl
        | some value =>
          rcases itemAt_eq_some_iff.mp found with ⟨index, _, named, place⟩
          exact ih ((alike index value place).2 named)
      | _ =>
        unfold pathResolves
        rw [if_neg empty]
        rfl

theorem absolutePathResolves_eq {int tryParse : String -> Option Int} {data : Option (List (String × Json))}
    {path : String} (alike : WalksAlike int tryParse (path.splitOn "/") (.object (data.getD []))) :
    absolutePathResolves int path (.object (data.getD [])) =
      A2UIComponentValidator.absolutePathResolves tryParse path data := by
  unfold absolutePathResolves A2UIComponentValidator.absolutePathResolves
  rw [segmentsResolve_eq alike]
  cases data with
  | some members => rfl
  | none =>
    -- without a data model .NET starts from nothing and Python from an empty dictionary
    change pathResolves tryParse (path.splitOn "/") (.object []) = pathResolves tryParse (path.splitOn "/") .null
    induction path.splitOn "/" with
    | nil => rfl
    | cons segment rest ih =>
      unfold pathResolves
      by_cases empty : segment = ""
      · rw [if_pos empty, if_pos empty]
        exact ih
      · rw [if_neg empty, if_neg empty]
        rfl

/-! ## Checks of one component -/

variable {int tryParse : String -> Option Int} {str : Json -> String} {components : List Json}
  {data : Option (List (String × Json))} {catalog : Option Components} {validateBindings : Bool}

variable {comp : Json}

/-- What Python looks up is what .NET finds, where the schemas in use require texts. -/
theorem schemaOf_eq (required : ∀ schemas, catalog = some schemas ->
      ∀ ctype, textMember? comp "component" = some ctype -> RequiresTexts ((schemas.lookup ctype).getD .null)) :
    schemaOf (asDictionary catalog) comp = some (componentSchema catalog comp) := by
  unfold schemaOf componentSchema
  cases typed : textMember? comp "component" with
  | none => cases catalog <;> rfl
  | some ctype =>
    cases catalog with
    | none => rfl
    | some schemas =>
      change some ((schemas.lookup ctype).getD .null) = some (((schemas.lookup ctype).filter Json.isObject).getD .null)
      have texts := required schemas rfl ctype typed
      cases found : schemas.lookup ctype with
      | none => rfl
      | some schema =>
        rw [found] at texts
        cases schema with
        | null => rfl
        | object members => rfl
        | _ => rcases texts with impossible | ⟨impossible, _⟩ <;> cases impossible

theorem mapM_requiredErrors (str : Json -> String) (i : Nat) (ctype : String) (comp : Json) (names : List String) :
    (names.map Json.string).mapM (requiredErrors str i ctype comp) =
      some (names.map fun name =>
        if (comp.member? name).isSome then [] else [missingRequiredProp i ctype name]) := by
  induction names with
  | nil => rfl
  | cons name rest ih =>
    rw [List.map_cons, List.mapM_cons, ih]
    rfl

/-- The names a schema requires, read by the one and by the other. -/
theorem schemaErrors_eq {i : Nat} {ctype : String} {members : List (String × Json)}
    (texts : iterate (memberOrNone (.object members) "required") = some [] ∨
      ∃ names : List String, memberOrNone (.object members) "required" = .array (names.map .string)) :
    schemaErrors str i ctype comp (.object members) =
      some (A2UIComponentValidator.requiredErrors i ctype comp (memberOrNone (.object members) "required")) := by
  have gives : schemaErrors str i ctype comp (.object members) =
      (iterate (memberOrNone (.object members) "required")).bind fun reqs =>
        (reqs.mapM (requiredErrors str i ctype comp)).bind fun errors => some errors.flatten := rfl
  rw [gives]
  rcases texts with nothing | ⟨names, listed⟩
  · rw [nothing]
    cases read : memberOrNone (.object members) "required" with
    | array items =>
      rw [read] at nothing
      cases nothing
      rfl
    | _ => rfl
  · rw [listed]
    change ((names.map Json.string).mapM (requiredErrors str i ctype comp)).bind _ = _
    rw [mapM_requiredErrors, Option.bind_some]
    unfold A2UIComponentValidator.requiredErrors
    dsimp only
    rw [List.filterMap_map, List.flatMap_def]
    have all : names.filterMap (Json.asString? ∘ Json.string) = names := List.filterMap_some
    rw [all]

theorem catalogErrors_eq {i : Nat} (required : ∀ schemas, catalog = some schemas ->
      ∀ ctype, textMember? comp "component" = some ctype -> RequiresTexts ((schemas.lookup ctype).getD .null)) :
    catalogErrors str (asDictionary catalog) i comp = some (A2UIComponentValidator.catalogErrors catalog i comp) := by
  have described := schemaOf_eq required
  unfold catalogErrors A2UIComponentValidator.catalogErrors
  cases typed : textMember? comp "component" with
  | none => cases catalog <;> rfl
  | some ctype =>
    cases catalog with
    | none => rfl
    | some schemas =>
      dsimp only
      rw [described]
      change schemaErrors str i ctype comp (componentSchema (some schemas) comp) = _
      have texts := required schemas rfl ctype typed
      have looked : componentSchema (some schemas) comp =
          ((schemas.lookup ctype).filter Json.isObject).getD .null := by
        unfold componentSchema
        rw [typed]
      rw [looked]
      cases found : schemas.lookup ctype with
      | none => rfl
      | some schema =>
        rw [found] at texts
        rcases texts with isNull | ⟨isObject, texts⟩
        · cases schema with
          | null => rfl
          | _ => cases isNull
        · cases schema with
          | object members => exact schemaErrors_eq texts
          | _ => cases isObject

/-! ## The lists of components -/

theorem duplicateErrors_filter {seen ids : List String} (few : ids.count "" ≤ 1) (fresh : "" ∈ seen -> "" ∉ ids) :
    duplicateErrors seen ids = duplicateErrors (seen.filter fun id => id ≠ "") (ids.filter fun id => id ≠ "") := by
  induction ids generalizing seen with
  | nil => rfl
  | cons cid rest ih =>
    rw [List.filter_cons]
    by_cases empty : cid = ""
    · have passed : ¬ decide (cid ≠ "") = true := fun named => absurd empty (of_decide_eq_true named)
      rw [if_neg passed, duplicateErrors]
      have unseen : cid ∉ seen := fun member => fresh (empty ▸ member) (empty ▸ List.mem_cons_self)
      have none : "" ∉ rest := by
        rw [empty, List.count_cons_self] at few
        exact List.count_eq_zero.mp (by omega)
      have later := @ih (cid :: seen) (by rw [List.count_eq_zero.mpr none]; omega) fun _ => none
      rw [if_neg unseen, List.nil_append, later, List.filter_cons, if_neg passed]
    · have named : decide (cid ≠ "") = true := decide_eq_true empty
      rw [if_pos named, duplicateErrors, duplicateErrors]
      have same : (cid ∈ seen) = (cid ∈ seen.filter fun id => id ≠ "") := by
        rw [List.mem_filter, decide_eq_true_eq]
        exact propext ⟨fun member => ⟨member, empty⟩, fun both => both.1⟩
      have fewer : rest.count "" ≤ 1 := by
        rw [List.count_cons_of_ne empty] at few
        exact few
      have later := @ih (cid :: seen) fewer fun member absent => by
        rcases List.mem_cons.mp member with equal | before
        · exact empty equal.symm
        · exact fresh before (List.mem_cons_of_mem _ absent)
      rw [later, List.filter_cons, if_pos named]
      congr 1
      by_cases member : cid ∈ seen
      · rw [if_pos member, if_pos (same ▸ member)]
      · rw [if_neg member, if_neg (same ▸ member)]

theorem duplicateErrors_eq (few : (idsOf components).count "" ≤ 1) :
    duplicateErrors [] (idsOf components) = duplicateErrors [] (usableIds components) :=
  duplicateErrors_filter few fun impossible => absurd impossible List.not_mem_nil

theorem componentErrors_eq (alike : ReadAlike int tryParse components data catalog validateBindings) (i : Nat)
    (member : comp ∈ components) :
    componentErrors int str (idsOf components) data (asDictionary catalog) validateBindings i comp =
      some (A2UIComponentValidator.componentErrors tryParse (usableIds components) data catalog
        validateBindings i comp) := by
  have required : ∀ schemas, catalog = some schemas -> ∀ ctype, textMember? comp "component" = some ctype ->
      RequiresTexts ((schemas.lookup ctype).getD .null) :=
    fun schemas given ctype typed => alike.required schemas given comp member ctype typed
  have refs : refErrors (idsOf components) i comp (componentSchema catalog comp) =
      A2UIComponentValidator.refErrors catalog (usableIds components) i comp := by
    unfold refErrors A2UIComponentValidator.refErrors
    rw [collectComponentRefEdges_agree (alike.single comp member)]
    congr 1
    apply List.filter_congr
    intro edge collected
    apply decide_eq_decide.mpr
    unfold usableIds
    rw [List.mem_filter, decide_eq_true_eq, not_and_not_right]
    constructor
    · exact fun absent present => absurd present absent
    · intro empty present
      have nothing := empty present
      exact alike.emptyRefs (nothing ▸ present) comp member edge collected nothing
  have bindings :
      (if comp.isObject && validateBindings then bindingErrors int (.object (data.getD [])) i comp else []) =
      if comp.isObject && validateBindings then A2UIComponentValidator.bindingErrors tryParse data i comp else [] := by
    by_cases checked : (comp.isObject && validateBindings) = true
    · rw [if_pos checked, if_pos checked]
      unfold bindingErrors A2UIComponentValidator.bindingErrors
      congr 1
      apply List.filter_congr
      intro path collected
      rw [absolutePathResolves_eq (alike.indexes (Bool.and_eq_true_iff.mp checked).2 comp member
        (Bool.and_eq_true_iff.mp checked).1 path collected)]
    · rw [if_neg checked, if_neg checked]
  unfold componentErrors
  rw [catalogErrors_eq required, schemaOf_eq required]
  unfold A2UIComponentValidator.componentErrors
  rw [← refs, ← bindings]
  rfl

/-! ## Cycles -/

/-- One turn of the loop over the components. -/
def recordEdges (catalog : Option Components) (adjacency : OrderedMap String (List String)) (component : Json) :
    OrderedMap String (List String) :=
  match textMember? component "id" with
  | some id =>
    adjacency.set id
      ((A2UIComponentValidator.collectComponentRefEdges component (componentSchema catalog component)).map Prod.snd)
  | none => adjacency

/-- The two keep one graph. -/
theorem childAdjacency_eq (alike : ReadAlike int tryParse components data catalog validateBindings) :
    childAdjacency components (asDictionary catalog) = some (buildChildAdjacency components catalog) := by
  have folded : ∀ listed : List Json, (∀ comp ∈ listed, comp ∈ components) -> ∀ adj,
      listed.foldlM (adjoin (asDictionary catalog)) adj = some (listed.foldl (recordEdges catalog) adj) := by
    intro listed
    induction listed with
    | nil => exact fun _ _ => rfl
    | cons comp rest ih =>
      intro members adj
      have member := members comp List.mem_cons_self
      have described := schemaOf_eq fun schemas given ctype typed =>
        alike.required schemas given comp member ctype typed
      have collected := collectComponentRefEdges_agree (alike.single comp member)
      have later := ih (List.forall_mem_cons.mp members).2
      rw [List.foldlM_cons, List.foldl_cons]
      unfold adjoin recordEdges
      cases named : textMember? comp "id" with
      | none => exact later adj
      | some id =>
        dsimp only
        rw [described, Option.map_some, refsOf, collected]
        exact later _
  exact folded components (fun _ member => member) .empty

/-- Both have found as many chains, and the chains so far are told apart alike. -/
structure FoundAlike (chains : List (List String)) (python : OrderedMap String (List String)) (dotnet : Found) :
    Prop where
  count : python.entries.length = dotnet.cycles.length
  seen : ∀ chain ∈ chains, (python.has (pythonKey chain) = dotnet.seenKeys.has (dotnetKey chain))

theorem foundAlike_record {chains : List (List String)} {python : OrderedMap String (List String)} {dotnet : Found}
    (alike : FoundAlike chains python dotnet) {chain : List String} (listed : chain ∈ chains)
    (apart : ∀ other ∈ chains, (pythonKey other = pythonKey chain ↔ dotnetKey other = dotnetKey chain)) :
    FoundAlike chains (recordCycle python chain) (recordLoop dotnet chain) := by
  have same := alike.seen chain listed
  unfold recordCycle recordLoop
  dsimp only
  change FoundAlike chains (if python.has (pythonKey chain) = true then _ else python.set (pythonKey chain) _)
    (if dotnet.seenKeys.has (dotnetKey chain) = true then _ else
      { seenKeys := dotnet.seenKeys.add (dotnetKey chain), cycles := dotnet.cycles ++ [canonicalize chain] })
  by_cases known : python.has (pythonKey chain) = true
  · rw [if_pos known, if_pos (same ▸ known)]
    exact alike
  · rw [if_neg known, if_neg (same ▸ known)]
    have absent := (OrderedMap.has_eq_false_iff _ _).mp (Bool.eq_false_iff.mpr known)
    constructor
    · rw [OrderedMap.entries_set_of_absent _ _ _ absent, List.length_append, List.length_append, alike.count]
      rfl
    · intro other member
      rw [OrderedMap.has_set, OrderedSet.has_add, alike.seen other member, decide_eq_decide.mpr (apart other member)]

/-- Two searches of one graph report as many cycles. -/
theorem searches_alike {adjacency : OrderedMap String (List String)}
    (chains : ∀ first ∈ closedChains adjacency, ∀ second ∈ closedChains adjacency,
      (pythonKey first = pythonKey second ↔ dotnetKey first = dotnetKey second)) :
    ∃ python : List (List String), ∃ dotnet : List (List String),
      searchCycles adjacency = some python ∧
        (DepthFirst.sweepAll (neighbors adjacency) recordLoop
          (DepthFirst.enough (neighbors adjacency) (nodesOf adjacency)) adjacency.keys {}).map
            (fun search => search.found.cycles) = some dotnet ∧
        python.length = dotnet.length := by
  have closed : ∀ node neighbor, DepthFirst.Edge (neighbors adjacency) node neighbor -> neighbor ∈ nodesOf adjacency :=
    fun _ _ edge => (mem_nodesOf_of_edge edge).2
  have members : ∀ root ∈ adjacency.keys, root ∈ nodesOf adjacency :=
    fun root member => List.mem_append_left _ member
  rcases DepthFirst.exists_closed_paths (neighbors adjacency) closed (Nat.le_refl _) members with ⟨final, searched, -⟩
  have closes : closedChains adjacency = final.found := by
    unfold closedChains
    rw [searched]
    rfl
  rw [closes] at chains
  have found : ∀ listed : List (List String), (∀ chain ∈ listed, chain ∈ final.found) ->
      ∀ python dotnet, FoundAlike final.found python dotnet ->
        FoundAlike final.found (listed.foldl recordCycle python) (listed.foldl recordLoop dotnet) := by
    intro listed
    induction listed with
    | nil => exact fun _ _ _ alike => alike
    | cons chain rest ih =>
      intro inside python dotnet foundAlike
      have own := inside chain List.mem_cons_self
      refine ih (List.forall_mem_cons.mp inside).2 _ _ ?_
      exact foundAlike_record foundAlike own fun other member => chains other member chain own
  have both := found final.found (fun _ member => member) .empty {} ⟨rfl, fun _ _ => rfl⟩
  rcases Option.map_eq_some_iff.mp (DepthFirst.found_searchAll searched recordCycle .empty) with ⟨python, ran, same⟩
  rcases Option.map_eq_some_iff.mp (DepthFirst.found_searchAll searched recordLoop {}) with ⟨dotnet, swept, equal⟩
  refine ⟨python.found.entries.map Prod.snd, dotnet.found.cycles, congrArg _ ran, ?_, ?_⟩
  · have turns : DepthFirst.sweepAll (neighbors adjacency) recordLoop
        (DepthFirst.enough (neighbors adjacency) (nodesOf adjacency)) adjacency.keys {} = some dotnet :=
      (DepthFirst.sweepAll_eq_searchAll ({} : Found) closed (Nat.le_refl _) members).trans swept
    rw [turns]
    rfl
  · rw [List.length_map, same, equal]
    exact both.count

/-- The two report as many cycles. -/
theorem findChildCycles_alike (alike : ReadAlike int tryParse components data catalog validateBindings) :
    ∃ python : List (List String), ∃ dotnet : List (List String),
      findChildCycles components (asDictionary catalog) = some python ∧
        A2UIComponentValidator.findChildCycles components catalog = some dotnet ∧ python.length = dotnet.length := by
  rcases searches_alike alike.chains with ⟨python, dotnet, searched, swept, count⟩
  refine ⟨python, dotnet, ?_, swept, count⟩
  unfold findChildCycles
  rw [childAdjacency_eq alike, Option.bind_some, searched]

/-! ## The verdicts -/

theorem mapM_componentErrors (str : Json -> String)
    (alike : ReadAlike int tryParse components data catalog validateBindings)
    (placed : List (Json × Nat)) (members : ∀ entry ∈ placed, entry.1 ∈ components) :
    (placed.mapM fun entry =>
      componentErrors int str (idsOf components) data (asDictionary catalog) validateBindings entry.2 entry.1) =
      some (placed.map fun entry =>
        A2UIComponentValidator.componentErrors tryParse (usableIds components) data catalog validateBindings
          entry.2 entry.1) := by
  induction placed with
  | nil => rfl
  | cons entry rest ih =>
    rw [List.mapM_cons, componentErrors_eq alike entry.2 (members entry List.mem_cons_self),
      ih (List.forall_mem_cons.mp members).2]
    rfl

theorem codes_childCycle (cycles : List (List String)) :
    (cycles.map childCycle).map A2UIValidationError.code = List.replicate cycles.length "child_cycle" := by
  rw [List.map_map, List.eq_replicate_iff]
  constructor
  · exact List.length_map _
  · intro code member
    rcases List.mem_map.mp member with ⟨cycle, _, rfl⟩
    rfl

theorem isEmpty_of_codes {left right : List A2UIValidationError}
    (same : left.map A2UIValidationError.code = right.map A2UIValidationError.code) : left.isEmpty = right.isEmpty := by
  cases left with
  | nil =>
    cases right with
    | nil => rfl
    | cons error rest => cases same
  | cons error rest =>
    cases right with
    | nil => cases same
    | cons other more => rfl

/-- Where the two read alike what they are given, both answer, with one verdict and the same codes in the same
order. -/
theorem validators_agree (int tryParse : String -> Option Int) (str : Json -> String) (components : List Json)
    (data : Option (List (String × Json))) (catalog : Option Components) (validateBindings : Bool)
    (alike : ReadAlike int tryParse components data catalog validateBindings) :
    SameFindings (validateA2UIComponents int str (.array components) data (asDictionary catalog) validateBindings)
      (A2UIComponentValidator.validate tryParse components data catalog validateBindings) := by
  cases components with
  | nil => exact ⟨_, _, rfl, rfl, rfl, rfl⟩
  | cons comp rest =>
    rcases findChildCycles_alike alike with ⟨python, dotnet, searched, swept, count⟩
    have mapped := mapM_componentErrors str alike (comp :: rest).zipIdx fun entry member =>
      List.fst_mem_of_mem_zipIdx member
    have validated : validateComponents int str (comp :: rest) data (asDictionary catalog) validateBindings =
        some (duplicateErrors [] (usableIds (comp :: rest)) ++
          ((comp :: rest).zipIdx.flatMap fun entry =>
            A2UIComponentValidator.componentErrors tryParse (usableIds (comp :: rest)) data catalog validateBindings
              entry.2 entry.1) ++
          python.map childCycle ++ if "root" ∈ idsOf (comp :: rest) then [] else [noRoot]) := by
      unfold validateComponents
      dsimp only
      rw [mapped, searched, duplicateErrors_eq alike.emptyIds, List.flatMap_def]
      rfl
    have same : ∀ before after : List A2UIValidationError,
        (before ++ python.map childCycle ++ after).map A2UIValidationError.code =
          (before ++ dotnet.map childCycle ++ after).map A2UIValidationError.code := by
      intro before after
      rw [List.map_append, List.map_append, List.map_append, List.map_append, codes_childCycle, codes_childCycle, count]
    have answered : A2UIComponentValidator.validate tryParse (comp :: rest) data catalog validateBindings =
        (some dotnet).map fun cycles =>
          let errors := duplicateErrors [] (usableIds (comp :: rest)) ++
            ((comp :: rest).zipIdx.flatMap fun entry =>
              A2UIComponentValidator.componentErrors tryParse (usableIds (comp :: rest)) data catalog validateBindings
                entry.2 entry.1) ++
            cycles.map childCycle ++ if "root" ∈ idsOf (comp :: rest) then [] else [noRoot]
          { valid := errors.isEmpty, errors } := by
      rw [← swept]
      rfl
    refine ⟨_, _, congrArg (Option.map fun errors : List A2UIValidationError =>
      ValidateA2UIResult.mk errors.isEmpty errors) validated, answered, ?_, ?_⟩
    · exact isEmpty_of_codes (same _ _)
    · exact same _ _

instance : (value : Json) -> Decidable (SingleReference value)
  | .array items => inferInstanceAs (Decidable (items.flatMap pushRef = []))
  | .null => isTrue trivial
  | .bool _ => isTrue trivial
  | .number _ => isTrue trivial
  | .string _ => isTrue trivial
  | .object _ => isTrue trivial

theorem walksAlike_self (int : String -> Option Int) (segments : List String) (cursor : Json) :
    WalksAlike int int segments cursor := by
  induction segments generalizing cursor with
  | nil => trivial
  | cons segment rest ih =>
    unfold WalksAlike
    split
    · exact ih cursor
    · split
      · exact fun _ item _ => ⟨Iff.rfl, fun _ => ih item⟩
      · exact fun value _ => ih value
      · trivial

namespace Sample

def digits (text : String) : Option Int :=
  text.toNat?.map Int.ofNat

def plain : Json -> String := fun _ => ""

/-- A card with another in it, whose text is bound to the first of some items. -/
def boundCards : List Json :=
  [card "root" [("children", .array [.string "side"])],
    card "side" [("text", .object [("path", .string "/items/0")])]]

def items : List (String × Json) :=
  [("items", .array [.string "first"])]

def cardSchemas : Components :=
  [("Card", .object [("required", .array [.string "id"])])]

/-- A list where one reference is looked for. -/
def listedChild : List Json :=
  [card "root" [("child", .array [.string "lost"])]]

def emptyIds : List Json :=
  [card "root" [], card "" [], card "" []]

end Sample

open Sample in
theorem readAlike_boundCards : ReadAlike digits digits boundCards (some items) (some cardSchemas) true where
  emptyIds := by decide
  emptyRefs := fun empty => absurd empty (by decide)
  single := by decide
  required := by
    intro schemas given comp member ctype typed
    cases given
    have cards : ctype = "Card" := by
      have named : ∀ comp ∈ boundCards, textMember? comp "component" = some "Card" := by decide
      rw [named comp member] at typed
      exact (Option.some.inj typed).symm
    rw [cards]
    exact Or.inr ⟨rfl, Or.inr ⟨["id"], rfl⟩⟩
  indexes := fun _ _ _ _ path _ => walksAlike_self digits (path.splitOn "/") _
  chains := by decide +kernel

open Sample in
theorem validators_agree_boundCards :
    SameFindings (validateA2UIComponents digits plain (.array boundCards) (some items)
      (asDictionary (some cardSchemas)) true)
      (A2UIComponentValidator.validate digits boundCards (some items) (some cardSchemas) true) :=
  validators_agree digits digits plain boundCards (some items) (some cardSchemas) true readAlike_boundCards

open Sample in
/-- Python sees a dangling child where .NET sees none, and a duplicate where .NET sees two missing ids. -/
theorem validators_disagree :
    ¬ SameFindings (validateA2UIComponents digits plain (.array listedChild) none none true)
      (A2UIComponentValidator.validate digits listedChild none none true) ∧
    ¬ SameFindings (validateA2UIComponents digits plain (.array emptyIds) none none true)
      (A2UIComponentValidator.validate digits emptyIds none none true) := by
  have differ : ∀ {python dotnet : Option ValidateA2UIResult} {left right : List String},
      python.map codes = some left -> dotnet.map codes = some right -> left ≠ right ->
        ¬ SameFindings python dotnet := by
    rintro python dotnet left right one other apart ⟨first, second, rfl, rfl, _, same⟩
    exact apart (((Option.some.inj one).symm.trans same).trans (Option.some.inj other))
  constructor
  · have python : (validateA2UIComponents digits plain (.array listedChild) none none true).map codes =
        some ["unresolved_child"] := by decide +kernel
    have dotnet : (A2UIComponentValidator.validate digits listedChild none none true).map codes = some [] := by
      decide +kernel
    exact differ python dotnet (by decide)
  · have python : (validateA2UIComponents digits plain (.array emptyIds) none none true).map codes =
        some ["duplicate_id", "missing_id", "missing_id"] := by decide +kernel
    have dotnet : (A2UIComponentValidator.validate digits emptyIds none none true).map codes =
        some ["missing_id", "missing_id"] := by decide +kernel
    exact differ python dotnet (by decide)

end A2uiToolkit
end AgUi
