import AgUi.Enforce.Strip
import AgUi.Protocol.Position

namespace AgUi
namespace Enforce

open Library Protocol Schematic

/-!
# Stripping by positions

The stripper reports what it removes by text, and the text of a position does
not tell where it was.  Here the same recursion keeps the positions, and treats
the properties of a described object and the entries of a record alike: of a
key it only matters whether its value is kept, removed, or stripped in turn.
-/

/-- What is done with the value of a key. -/
inductive Treatment (S : Type) where
  | keep
  | remove
  /-- An unrecognisable value is removed, or else takes its object with it. -/
  | strip (schema : S) (removable : Bool)

/-- How an object is read. -/
inductive Reading (S : Type) where
  /-- Its insides are not looked at. -/
  | whole
  | unrecognised
  | members (treatment : String -> Treatment S)

variable {S : Type} [Schematic S]

def fieldTreatment (shape : List (String × S)) (specOpen : Bool) (key : String) : Treatment S :=
  match shape.lookup key with
  | none => if specOpen then .keep else .remove
  | some field => .strip field (admitsUndefined field)

def Descent.reading : Descent S -> Reading S
  | .fields shape specOpen => .members (fieldTreatment shape specOpen)
  | .entries valueType => .members fun _ => .strip valueType true
  | .unrecognised => .unrecognised
  | _ => .whole

def readObject (schema : S) (members : List (String × Json)) : Reading S :=
  (descendObject (unwrap schema) members).reading

/-- The schema of the items, where an array is read. -/
def readArray (schema : S) : Option S :=
  match descendArray (unwrap schema) with
  | .items element => some element
  | _ => none

mutual

/-- `stripAgainst`, with positions in place of texts. -/
def trim : Json -> S -> Option (Json × List Position)
  | .object members, schema =>
    match readObject schema members with
    | .members treatment =>
      (trimMembers treatment members).map fun result => (.object result.1, result.2)
    | .unrecognised => none
    | .whole => some (.object members, [])
  | .array items, schema =>
    match readArray schema with
    | some element => some (.array (trimItems element 0 items).1, (trimItems element 0 items).2)
    | none => some (.array items, [])
  | value, _ => some (value, [])

def trimMembers (treatment : String -> Treatment S) :
    List (String × Json) -> Option (List (String × Json) × List Position)
  | [] => some ([], [])
  | (key, value) :: rest =>
    match trimMembers treatment rest with
    | none => none
    | some (later, removed) =>
      match treatment key with
      | .keep => some (assign key value later, removed)
      | .remove => some (later, [.key key] :: removed)
      | .strip schema removable =>
        match trim value schema with
        | some (child, inside) => some (assign key child later, inside.map (.key key :: ·) ++ removed)
        | none => if removable then some (later, [.key key] :: removed) else none

def trimItems (element : S) (index : Nat) : List Json -> List Json × List Position
  | [] => ([], [])
  | item :: rest =>
    let later := trimItems element (index + 1) rest
    match trim item element with
    | some (child, inside) => (child :: later.1, inside.map (.index index :: ·) ++ later.2)
    | none => (later.1, [.index index] :: later.2)

end

def Step.text : Step -> String
  | .key name => name
  | .index place => toString place

/-- The text the stripper reports a position by. -/
def render : Position -> String
  | [] => ""
  | step :: rest => "/" ++ Step.text step ++ render rest

/-! ## One key and one item -/

/-- What a key adds to what the keys behind it have come to. -/
inductive Taken (treatment : String -> Treatment S) (key : String) (value : Json) (later : List (String × Json))
    (reports : List Position) : List (String × Json) -> List Position -> Prop where
  | kept (treated : treatment key = .keep) : Taken treatment key value later reports (assign key value later) reports
  | removed (treated : treatment key = .remove) : Taken treatment key value later reports later ([.key key] :: reports)
  | stripped {schema : S} {removable : Bool} {child : Json} {inside : List Position}
      (treated : treatment key = .strip schema removable) (trimmed : trim value schema = some (child, inside)) :
      Taken treatment key value later reports (assign key child later) (inside.map (.key key :: ·) ++ reports)
  | dropped {schema : S} (treated : treatment key = .strip schema true) (unrecognised : trim value schema = none) :
      Taken treatment key value later reports later ([.key key] :: reports)

theorem trimMembers_cons {treatment : String -> Treatment S} {key : String} {value : Json}
    {rest kept : List (String × Json)} {removed : List Position}
    (done : trimMembers treatment ((key, value) :: rest) = some (kept, removed)) :
    ∃ later reports, trimMembers treatment rest = some (later, reports) ∧
      Taken treatment key value later reports kept removed := by
  rw [trimMembers] at done
  cases behind : trimMembers treatment rest with
  | none =>
    rw [behind] at done
    cases done
  | some pair =>
    rcases pair with ⟨later, reports⟩
    refine ⟨later, reports, rfl, ?_⟩
    rw [behind] at done
    dsimp only at done
    cases treated : treatment key with
    | keep =>
      rw [treated] at done
      cases done
      exact .kept treated
    | remove =>
      rw [treated] at done
      cases done
      exact .removed treated
    | strip schema removable =>
      rw [treated] at done
      dsimp only at done
      cases trimmed : trim value schema with
      | some result =>
        rw [trimmed] at done
        cases done
        exact .stripped treated trimmed
      | none =>
        rw [trimmed] at done
        cases removable with
        | true =>
          cases done
          exact .dropped treated trimmed
        | false => cases done

theorem trimItems_cons_some {element : S} {index : Nat} {item child : Json} {inside : List Position}
    (rest : List Json) (trimmed : trim item element = some (child, inside)) :
    trimItems element index (item :: rest) =
      (child :: (trimItems element (index + 1) rest).1,
        inside.map (.index index :: ·) ++ (trimItems element (index + 1) rest).2) := by
  rw [trimItems, trimmed]

theorem trimItems_cons_none {element : S} {index : Nat} {item : Json} (rest : List Json)
    (unrecognised : trim item element = none) :
    trimItems element index (item :: rest) =
      ((trimItems element (index + 1) rest).1, [.index index] :: (trimItems element (index + 1) rest).2) := by
  rw [trimItems, unrecognised]

/-- How a value that is kept is trimmed. -/
inductive Trimmed (schema : S) : Json -> Json -> List Position -> Prop where
  | leaf {value : Json} (leaf : value.isLeaf = true) : Trimmed schema value value []
  | whole {members : List (String × Json)} (read : readObject schema members = .whole) :
      Trimmed schema (.object members) (.object members) []
  | members {members kept : List (String × Json)} {removed : List Position} {treatment : String -> Treatment S}
      (read : readObject schema members = .members treatment)
      (done : trimMembers treatment members = some (kept, removed)) :
      Trimmed schema (.object members) (.object kept) removed
  | array {items : List Json} (read : readArray schema = none) : Trimmed schema (.array items) (.array items) []
  | items {items : List Json} {element : S} (read : readArray schema = some element) :
      Trimmed schema (.array items) (.array (trimItems element 0 items).1) (trimItems element 0 items).2

theorem trim_spec {value out : Json} {schema : S} {removed : List Position}
    (trimmed : trim value schema = some (out, removed)) : Trimmed schema value out removed := by
  cases value with
  | object members =>
    rw [trim] at trimmed
    cases read : readObject schema members with
    | whole =>
      rw [read] at trimmed
      cases trimmed
      exact .whole read
    | unrecognised =>
      rw [read] at trimmed
      cases trimmed
    | members treatment =>
      rw [read] at trimmed
      rcases Option.map_eq_some_iff.mp trimmed with ⟨⟨kept, positions⟩, done, same⟩
      cases same
      exact .members read done
  | array items =>
    rw [trim] at trimmed
    cases read : readArray schema with
    | none =>
      rw [read] at trimmed
      cases trimmed
      exact .array read
    | some element =>
      rw [read] at trimmed
      cases trimmed
      exact .items read
  | _ =>
    cases trimmed
    exact .leaf rfl

end Enforce
end AgUi
