import AgUi.Enforce.Exactness
import AgUi.Enforce.Schema

namespace AgUi
namespace Enforce

open Library Protocol Schematic

/-!
# What stripping leaves

What is left of a value is described, and stripping it again changes nothing:
a tag that an option was chosen by is a described key whose value is a text,
so it is there again and chooses the same option.
-/

variable {S : Type} [Schematic S]

mutual

/-- Every key of an object that is described and not open is a key of the description. -/
def describes : Json -> S -> Bool
  | .object members, schema =>
    match readObject schema members with
    | .members treatment => describesMembers treatment members
    | _ => true
  | .array items, schema =>
    match readArray schema with
    | some element => describesItems element items
    | none => true
  | _, _ => true

def describesMembers (treatment : String -> Treatment S) : List (String × Json) -> Bool
  | [] => true
  | (key, value) :: rest =>
    (match treatment key with
      | .keep => true
      | .remove => false
      | .strip schema _ => describes value schema) && describesMembers treatment rest

def describesItems (element : S) : List Json -> Bool
  | [] => true
  | item :: rest => describes item element && describesItems element rest

end

/-! ## The option is chosen again -/

theorem assign_of_ne {key : String} (ordinary : key ≠ "__proto__") (value : Json) (rest : List (String × Json)) :
    assign key value rest = (key, value) :: rest :=
  if_neg ordinary

/-- What a key adds to what is left, where nothing is lost. -/
inductive Left (treatment : String -> Treatment S) (key : String) (value : Json) (later : List (String × Json)) :
    List (String × Json) -> Prop where
  | kept (ordinary : key ≠ "__proto__") (treated : treatment key = .keep) :
      Left treatment key value later ((key, value) :: later)
  | stripped {schema : S} {removable : Bool} {child : Json} {inside : List Position} (ordinary : key ≠ "__proto__")
      (treated : treatment key = .strip schema removable) (trimmed : trim value schema = some (child, inside))
      (keeps : losesKey value schema = false) : Left treatment key value later ((key, child) :: later)
  | removed (treated : treatment key = .remove) : Left treatment key value later later
  | dropped {schema : S} (treated : treatment key = .strip schema true) (unrecognised : trim value schema = none) :
      Left treatment key value later later

variable {treatment : String -> Treatment S}

theorem trimMembers_cons_left {key : String} {value : Json}
    {rest kept : List (String × Json)} {removed : List Position}
    (done : trimMembers treatment ((key, value) :: rest) = some (kept, removed))
    (keeps : losesMember treatment ((key, value) :: rest) = false) :
    ∃ later reports, trimMembers treatment rest = some (later, reports) ∧
      losesMember treatment rest = false ∧ Left treatment key value later kept := by
  rcases trimMembers_cons done with ⟨later, reports, behind, taken⟩
  rw [losesMember] at keeps
  rcases Bool.or_eq_false_iff.mp keeps with ⟨own, others⟩
  refine ⟨later, reports, behind, others, ?_⟩
  cases taken with
  | kept treated =>
    rw [treated] at own
    rw [assign_of_ne (of_decide_eq_false own)]
    exact .kept (of_decide_eq_false own) treated
  | removed treated => exact .removed treated
  | stripped treated trimmed =>
    rw [treated] at own
    dsimp only at own
    rw [recognised_of_trim trimmed, Bool.true_and] at own
    rcases Bool.or_eq_false_iff.mp own with ⟨ordinary, below⟩
    rw [assign_of_ne (of_decide_eq_false ordinary)]
    exact .stripped (of_decide_eq_false ordinary) treated trimmed below
  | dropped treated unrecognised => exact .dropped treated unrecognised

/-- A key that is absent stays absent. -/
theorem lookup_trimmed_none {members kept : List (String × Json)}
    {removed : List Position} (done : trimMembers treatment members = some (kept, removed))
    (keeps : losesMember treatment members = false) {name : String} (absent : members.lookup name = none) :
    kept.lookup name = none := by
  induction members generalizing kept removed with
  | nil =>
    cases done
    rfl
  | cons member rest ih =>
    rcases member with ⟨key, value⟩
    rcases trimMembers_cons_left done keeps with ⟨later, reports, behind, others, left⟩
    rw [OrderedMap.lookup_cons_ite] at absent
    split at absent
    · cases absent
    · rename_i different
      have none := ih behind others absent
      cases left with
      | kept _ treated | stripped _ treated trimmed _ => rw [OrderedMap.lookup_cons_ite, if_neg different, none]
      | removed treated | dropped treated unrecognised => exact none

/-- A text under a described key stays as it is. -/
theorem lookup_trimmed_text {members kept : List (String × Json)}
    {removed : List Position} (done : trimMembers treatment members = some (kept, removed))
    (keeps : losesMember treatment members = false) {name text : String} {schema : S} {removable : Bool}
    (described : treatment name = .strip schema removable) (present : members.lookup name = some (.string text)) :
    kept.lookup name = some (.string text) := by
  induction members generalizing kept removed with
  | nil => cases present
  | cons member rest ih =>
    rcases member with ⟨key, value⟩
    rcases trimMembers_cons_left done keeps with ⟨later, reports, behind, others, left⟩
    rw [OrderedMap.lookup_cons_ite] at present
    split at present
    · rename_i same
      subst same
      cases present
      cases left with
      | kept _ treated =>
        rw [described] at treated
        cases treated
      | stripped _ treated trimmed _ =>
        cases trimmed
        rw [OrderedMap.lookup_cons_ite, if_pos rfl]
      | removed treated =>
        rw [described] at treated
        cases treated
      | dropped treated unrecognised => cases unrecognised
    · rename_i different
      have same := ih behind others present
      cases left with
      | kept _ treated | stripped _ treated trimmed _ => rw [OrderedMap.lookup_cons_ite, if_neg different, same]
      | removed treated | dropped treated unrecognised => exact same

theorem exists_of_literalIs {literal : Option String} {value : Json}
    (matched : literalIs literal (some value) = true) :
    ∃ text, literal = some text ∧ value = .string text := by
  cases literal with
  | none => cases matched
  | some text =>
    cases value with
    | string other => exact ⟨text, rfl, congrArg Json.string (eq_of_beq matched).symm⟩
    | _ => cases matched

/-- The tag of the option that was chosen is a described text, or absent. -/
theorem taggedOption_tag {discriminator : String} {options : List S} {members : List (String × Json)}
    {shape : List (String × S)} {specOpen : Bool}
    (chosen : taggedOption discriminator options members = some (shape, specOpen)) :
    members.lookup discriminator = none ∨
      ∃ text field, members.lookup discriminator = some (.string text) ∧
        fieldTreatment shape specOpen discriminator = .strip field (admitsUndefined field) := by
  rcases List.exists_of_findSome?_eq_some chosen with ⟨option, _, matched⟩
  cases description : unwrap option with
  | object fields isOpen =>
    rw [description] at matched
    dsimp only at matched
    split at matched
    · rename_i literal
      cases matched
      cases tag : members.lookup discriminator with
      | none => exact .inl rfl
      | some value =>
        right
        rw [tag] at literal
        rcases exists_of_literalIs literal with ⟨text, tagged, rfl⟩
        cases described : shape.lookup discriminator with
        | none =>
          rw [described] at tagged
          cases tagged
        | some field =>
          refine ⟨text, field, rfl, ?_⟩
          rw [fieldTreatment, described]
    · cases matched
  | _ =>
    rw [description] at matched
    cases matched

theorem taggedOption_congr {discriminator : String} {members others : List (String × Json)}
    (same : members.lookup discriminator = others.lookup discriminator) (options : List S) :
    taggedOption discriminator options members = taggedOption discriminator options others := by
  rw [taggedOption, taggedOption, same]

/-- What is left of an object is read as the object was. -/
theorem readObject_trimmed {schema : S} {members kept : List (String × Json)} {removed : List Position}
    (read : readObject schema members = .members treatment)
    (done : trimMembers treatment members = some (kept, removed)) (keeps : losesMember treatment members = false) :
    readObject schema kept = .members treatment := by
  unfold readObject at read ⊢
  cases description : unwrap schema with
  | discriminatedUnion discriminator options =>
    rw [description] at read
    rw [descendObject] at read ⊢
    cases chosen : taggedOption discriminator options members with
    | none =>
      rw [chosen] at read
      cases read
    | some option =>
      rcases option with ⟨shape, specOpen⟩
      have same : kept.lookup discriminator = members.lookup discriminator := by
        rw [chosen] at read
        cases read
        rcases taggedOption_tag chosen with absent | ⟨text, field, present, described⟩
        · rw [absent, lookup_trimmed_none done keeps absent]
        · rw [present, lookup_trimmed_text done keeps described present]
      rw [taggedOption_congr same]
      exact read
  | _ =>
    rw [description] at read
    exact read

/-! ## Stripping again -/

/-- What is left of a value is described and stays as it is. -/
def Settles (value : Json) : Prop :=
  ∀ (schema : S) (out : Json) (removed : List Position), trim value schema = some (out, removed) ->
    losesKey value schema = false -> trim out schema = some (out, []) ∧ describes out schema = true

theorem trimMembers_settles {members kept : List (String × Json)}
    {removed : List Position} (each : ∀ member ∈ members, Settles (S := S) member.2)
    (done : trimMembers treatment members = some (kept, removed)) (keeps : losesMember treatment members = false) :
    trimMembers treatment kept = some (kept, []) ∧ describesMembers treatment kept = true := by
  induction members generalizing kept removed with
  | nil =>
    cases done
    exact ⟨rfl, rfl⟩
  | cons member rest ih =>
    rcases member with ⟨key, value⟩
    rcases trimMembers_cons_left done keeps with ⟨later, reports, behind, others, left⟩
    rcases ih (List.forall_mem_cons.mp each).2 behind others with ⟨again, described⟩
    cases left with
    | kept ordinary treated =>
      rw [trimMembers, again, describesMembers, treated]
      exact ⟨congrArg (fun kept => some (kept, [])) (assign_of_ne ordinary value later), described⟩
    | stripped ordinary treated trimmed below =>
      rcases each _ List.mem_cons_self _ _ _ trimmed below with ⟨childAgain, childDescribed⟩
      rw [trimMembers, again, describesMembers, treated]
      dsimp only
      rw [childAgain, childDescribed]
      exact ⟨congrArg (fun kept => some (kept, [])) (assign_of_ne ordinary _ later), described⟩
    | removed treated | dropped treated unrecognised => exact ⟨again, described⟩

theorem trimItems_settles {element : S} {items : List Json} (each : ∀ item ∈ items, Settles (S := S) item)
    (keeps : losesItem element items = false) (index again : Nat) :
    trimItems element again (trimItems element index items).1 = ((trimItems element index items).1, []) ∧
      describesItems element (trimItems element index items).1 = true := by
  induction items generalizing index again with
  | nil => exact ⟨rfl, rfl⟩
  | cons item rest ih =>
    rw [losesItem] at keeps
    rcases Bool.or_eq_false_iff.mp keeps with ⟨own, others⟩
    have rests := ih (List.forall_mem_cons.mp each).2 others (index + 1)
    cases trimmed : trim item element with
    | none =>
      rw [trimItems_cons_none rest trimmed]
      exact rests again
    | some result =>
      rw [recognised_of_trim trimmed, Bool.true_and] at own
      rcases each _ List.mem_cons_self _ _ _ trimmed own with ⟨childAgain, childDescribed⟩
      rw [trimItems_cons_some rest trimmed, trimItems_cons_some _ childAgain, (rests (again + 1)).1,
        describesItems, childDescribed, (rests again).2]
      exact ⟨rfl, rfl⟩

theorem trim_settles (value : Json) : Settles (S := S) value := by
  induction value using Json.induction with
  | leaf value leaf =>
    intro schema out removed trimmed keeps
    cases trim_spec trimmed with
    | leaf _ =>
      refine ⟨trimmed, ?_⟩
      cases value with
      | array items | object members => cases leaf
      | _ => rfl
    | _ => cases leaf
  | array items each =>
    intro schema out removed trimmed keeps
    cases trim_spec trimmed with
    | leaf leaf => cases leaf
    | array read =>
      rw [describes, read]
      exact ⟨trimmed, rfl⟩
    | items read =>
      rw [losesKey, read] at keeps
      rcases trimItems_settles each keeps 0 0 with ⟨again, described⟩
      rw [trim, describes, read]
      dsimp only
      rw [again]
      exact ⟨rfl, described⟩
  | object members each =>
    intro schema out removed trimmed keeps
    cases trim_spec trimmed with
    | leaf leaf => cases leaf
    | whole read =>
      rw [describes, read]
      exact ⟨trimmed, rfl⟩
    | members read done =>
      rw [losesKey, read] at keeps
      rcases trimMembers_settles each done keeps with ⟨again, described⟩
      rw [trim, describes, readObject_trimmed read done keeps]
      dsimp only
      rw [again]
      exact ⟨rfl, described⟩

/-! ## Exact stripping -/

/-- What is left of a value is the value without the positions that are removed,
which are the topmost positions that have no counterpart in what is left. -/
structure Exact (value out : Json) (removed : List Position) : Prop where
  once : removed.Nodup
  topmost : ∀ position, position ∈ removed ↔
    (value.at? position).isSome ∧ Json.counterpart? (among removed) position = none ∧
      ∀ above, above <+: position -> above ≠ position -> Json.counterpart? (among removed) above ≠ none
  leaves : ∀ position other leaf, Json.counterpart? (among removed) position = some other ->
    value.at? position = some leaf -> leaf.isLeaf = true -> out.at? other = some leaf
  rest : out = value.without (among removed)

theorem Places.nodup {value : Json} {removed : List Position} (places : Places value removed) : removed.Nodup := by
  apply places.apart.imp
  rintro first _ apart rfl
  exact apart.1 List.prefix_rfl

theorem Places.eq_of_prefix {value : Json} {removed : List Position} (places : Places value removed)
    {above position : Position} (higher : above ∈ removed) (lower : position ∈ removed) (initial : above <+: position) :
    above = position := by
  by_contra different
  exact (places.apart.forall higher lower different).1 initial

/-- The places that are removed are the topmost without a counterpart. -/
theorem Places.topmost {value : Json} {removed : List Position} (places : Places value removed)
    (position : Position) : position ∈ removed ↔
      (value.at? position).isSome ∧ Json.counterpart? (among removed) position = none ∧
        ∀ above, above <+: position -> above ≠ position -> Json.counterpart? (among removed) above ≠ none := by
  constructor
  · intro member
    refine ⟨places.present position member, ?_, ?_⟩
    · exact (Json.counterpart?_eq_none_iff position).mpr
        ⟨position, places.below position member, decide_eq_true member, List.prefix_rfl⟩
    · intro above initial different gone
      rcases (Json.counterpart?_eq_none_iff above).mp gone with ⟨top, _, removes, higher⟩
      have same := places.eq_of_prefix (of_decide_eq_true removes) member (higher.trans initial)
      exact different (initial.eq_of_length_le (same ▸ higher).length_le)
  · rintro ⟨_, gone, topmost⟩
    rcases (Json.counterpart?_eq_none_iff position).mp gone with ⟨top, below, removes, initial⟩
    by_cases same : top = position
    · exact same ▸ of_decide_eq_true removes
    · exact absurd ((Json.counterpart?_eq_none_iff top).mpr ⟨top, below, removes, List.prefix_rfl⟩)
        (topmost top initial same)

/-- The positions that are removed of a value. -/
def removals (value : Json) (schema : S) : List Position :=
  ((trim value schema).map Prod.snd).getD []

theorem removals_of_trim {value : Json} {schema : S} {out : Json} {removed : List Position}
    (trimmed : trim value schema = some (out, removed)) : removals value schema = removed := by
  rw [removals, trimmed]
  rfl

/-- Where no key is lost, what is removed is exactly what the result is without. -/
theorem exact_of_trim {value : Json} {schema : S} {out : Json} {removed : List Position}
    (distinct : DistinctKeys value) (trimmed : trim value schema = some (out, removed))
    (keeps : losesKey value schema = false) : Exact value out (removals value schema) := by
  have places := trim_places value schema _ _ trimmed distinct
  have rest := (trim_leaves value schema _ _ trimmed distinct).1 keeps
  rw [removals_of_trim trimmed]
  refine ⟨places.nodup, places.topmost, ?_, rest⟩
  intro position other leaf left place isLeaf
  rw [rest]
  exact Json.at?_without_leaf left place isLeaf

/-- What was stripped was stripped exactly and once and for all. -/
structure StrippedExactly (value : Json) (schema : S) (out : Json) (reports : List String) : Prop where
  reported : reports = (removals value schema).map render
  exact : Exact value out (removals value schema)
  described : describes out schema = true
  again : stripUnknown out schema = some (out, [])

theorem stripUnknown_eq_trim (value : Json) (schema : S) :
    stripUnknown value schema = (trim value schema).map fun result => (result.1, result.2.map render) := by
  have texts : (fun position => "" ++ render position) = render := by
    funext position
    exact String.empty_append
  rw [stripUnknown, stripAgainst_eq_trim value schema ""]
  simp only [report, texts]

/-- Stripping is exact, leaves what is described and changes nothing a second
time, exactly if no value of a key `__proto__` is kept. -/
theorem stripUnknown_exact_iff {value : Json} {schema : S} {out : Json} {reports : List String}
    (distinct : DistinctKeys value) (stripped : stripUnknown value schema = some (out, reports)) :
    StrippedExactly value schema out reports ↔ losesKey value schema = false := by
  rw [stripUnknown_eq_trim] at stripped
  rcases Option.map_eq_some_iff.mp stripped with ⟨⟨left, removed⟩, trimmed, same⟩
  cases same
  have positions := removals_of_trim trimmed
  have leaves := trim_leaves value schema _ _ trimmed distinct
  constructor
  · intro exactly
    have rest := exactly.exact.rest
    rw [positions] at rest
    by_contra lost
    have short := leaves.2 (eq_true_of_ne_false lost)
    rw [← rest] at short
    exact Nat.lt_irrefl _ short
  · intro keeps
    rcases trim_settles value schema _ _ trimmed keeps with ⟨again, described⟩
    refine ⟨?_, exact_of_trim distinct trimmed keeps, described, ?_⟩
    · rw [positions]
    · rw [stripUnknown_eq_trim, again]
      rfl

theorem distinctKeys_leaf {value : Json} (leaf : value.isLeaf = true) : DistinctKeys value := by
  intro position members place
  cases position with
  | nil =>
    cases place
    cases leaf
  | cons step rest =>
    cases value with
    | array items | object members => cases leaf
    | _ => cases step <;> cases place

theorem distinctKeys_flat {members : List (String × Json)} (nodup : (members.map Prod.fst).Nodup)
    (leaves : (members.all fun member => member.2.isLeaf) = true) : DistinctKeys (.object members) :=
  distinctKeys_object nodup fun member inside => distinctKeys_leaf (List.all_eq_true.mp leaves member inside)

/-- Parts of two kinds, in a closed object. -/
def partsSchema : Schema :=
  .object
    [("parts",
      .array
        (.discriminatedUnion "type"
          [.object [("type", .leaf (.literal "text")), ("text", .leaf .string)] false,
           .object [("type", .leaf (.literal "data")), ("data", .leaf .any)] true])
        0)]
    false

/-- A part of a kind to come, one with a key too many, and one that is open. -/
def futureParts : Json :=
  .object
    [("parts",
      .array
        [.object [("type", .string "hologram")],
         .object [("type", .string "text"), ("text", .string "hello"), ("style", .string "bold")],
         .object [("type", .string "data"), ("data", .null), ("note", .bool true)]]),
     ("version", .number 2)]

theorem stripUnknown_exact_iff_futureParts :
    (stripUnknown futureParts partsSchema).map Prod.snd = some ["/parts/0", "/parts/1/style", "/version"] ∧
      StrippedExactly futureParts partsSchema
        (.object
          [("parts",
            .array
              [.object [("type", .string "text"), ("text", .string "hello")],
               .object [("type", .string "data"), ("data", .null), ("note", .bool true)]])])
        ["/parts/0", "/parts/1/style", "/version"] := by
  have distinct : DistinctKeys futureParts := by
    apply distinctKeys_object (by decide)
    simp only [List.forall_mem_cons]
    refine ⟨distinctKeys_array ?_, distinctKeys_leaf rfl, List.forall_mem_nil _⟩
    simp only [List.forall_mem_cons]
    exact ⟨distinctKeys_flat (by decide) rfl, distinctKeys_flat (by decide) rfl, distinctKeys_flat (by decide) rfl,
      List.forall_mem_nil _⟩
  exact ⟨rfl, (stripUnknown_exact_iff distinct rfl).mpr rfl⟩

/-- A record with one entry, under a key that every object has a setter for. -/
def protoEntry : Json :=
  .object [("__proto__", .string "x")]

def textsSchema : Schema :=
  .record (.leaf .string)

/-- The entry is gone, and no list of positions says so. -/
theorem protoEntry_lost :
    DistinctKeys protoEntry ∧ stripUnknown protoEntry textsSchema = some (.object [], []) ∧
      ¬ ∃ removed, [] = removed.map render ∧ Exact protoEntry (.object []) removed := by
  refine ⟨distinctKeys_flat (by decide) rfl, rfl, ?_⟩
  rintro ⟨removed, reported, exactly⟩
  have none : removed = [] := List.map_eq_nil_iff.mp reported.symm
  subst none
  have rest := exactly.rest
  rw [show among [] = fun _ => false from rfl, Json.without_nothing] at rest
  cases rest

end Enforce
end AgUi
