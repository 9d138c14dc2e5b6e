import Mathlib.Data.List.Induction

namespace AgUi
namespace Library

/-!
# What has held since

`Since opens closes past` says of a finite history that something was opened
in it and has not been closed from then on.  It is defined by splitting the
history at the opening, with no state, and computed one input at a time by
`since_snoc`.

`EverywhereOn rule inputs` is the matching way to state a rule about a stream:
the rule holds at every position, of the inputs before it and the input there.
-/

universe u

variable {A : Type u}

def Since (opens closes : A -> Prop) (past : List A) : Prop :=
  ∃ before opener after,
    past = before ++ opener :: after ∧ opens opener ∧ ∀ input ∈ after, ¬ closes input

theorem not_since_nil (opens closes : A -> Prop) : ¬ Since opens closes [] := by
  rintro ⟨before, opener, after, split, _⟩
  exact List.append_ne_nil_of_right_ne_nil before (List.cons_ne_nil opener after) split.symm

theorem since_cons (opens closes : A -> Prop) (first : A) (rest : List A) :
    Since opens closes (first :: rest) ↔
      Since opens closes rest ∨ (opens first ∧ ∀ input ∈ rest, ¬ closes input) := by
  constructor
  · rintro ⟨before, opener, after, split, opening, kept⟩
    cases before with
    | nil =>
      cases split
      exact .inr ⟨opening, kept⟩
    | cons head before =>
      cases split
      exact .inl ⟨before, opener, after, rfl, opening, kept⟩
  · rintro (⟨before, opener, after, rfl, opening, kept⟩ | ⟨opening, kept⟩)
    · exact ⟨first :: before, opener, after, rfl, opening, kept⟩
    · exact ⟨[], first, rest, rfl, opening, kept⟩

instance Since.decidable (opens closes : A -> Prop) [DecidablePred opens] [DecidablePred closes] :
    (past : List A) -> Decidable (Since opens closes past)
  | [] => isFalse (not_since_nil opens closes)
  | first :: rest =>
    have := Since.decidable opens closes rest
    decidable_of_iff _ (since_cons opens closes first rest).symm

/-- The newest input either opens, or leaves open what it does not close. -/
theorem since_snoc (opens closes : A -> Prop) (past : List A) (newest : A) :
    Since opens closes (past ++ [newest]) ↔
      opens newest ∨ (Since opens closes past ∧ ¬ closes newest) := by
  constructor
  · rintro ⟨before, opener, after, split, opening, kept⟩
    rcases List.eq_nil_or_concat after with rfl | ⟨middle, last, rfl⟩
    · have parts := List.append_inj' split rfl
      cases parts.2
      exact Or.inl opening
    · rw [List.concat_eq_append, ← List.cons_append, ← List.append_assoc] at split
      have parts := List.append_inj' split rfl
      cases parts.2
      refine Or.inr ⟨⟨before, opener, middle, parts.1, opening, ?_⟩, kept newest (by simp)⟩
      intro input member
      exact kept input (by simp [member])
  · rintro (opening | ⟨⟨before, opener, after, rfl, opening, kept⟩, open_still⟩)
    · exact ⟨past, newest, [], rfl, opening, List.forall_mem_nil _⟩
    · refine ⟨before, opener, after ++ [newest], by simp, opening, ?_⟩
      intro input member
      rcases List.mem_append.mp member with early | late
      · exact kept input early
      · cases List.mem_singleton.mp late
        exact open_still

theorem since_snoc_of_neutral {opens closes : A -> Prop} (past : List A) {newest : A}
    (notOpening : ¬ opens newest) (notClosing : ¬ closes newest) :
    Since opens closes (past ++ [newest]) ↔ Since opens closes past := by
  rw [since_snoc]
  constructor
  · rintro (opening | ⟨held, _⟩)
    · exact absurd opening notOpening
    · exact held
  · exact fun held => Or.inr ⟨held, notClosing⟩

theorem not_since_snoc_of_closes {opens closes : A -> Prop} (past : List A) {newest : A}
    (notOpening : ¬ opens newest) (closing : closes newest) :
    ¬ Since opens closes (past ++ [newest]) := by
  rw [since_snoc]
  rintro (opening | ⟨_, notClosing⟩)
  · exact notOpening opening
  · exact notClosing closing

/-- What is still open is open where less closes it. -/
theorem since_of_closes {opens closes fewer : A -> Prop} {past : List A} (held : Since opens closes past)
    (less : ∀ input, fewer input -> closes input) : Since opens fewer past := by
  rcases held with ⟨before, opener, after, split, opening, kept⟩
  exact ⟨before, opener, after, split, opening, fun input member closing => kept input member (less input closing)⟩

/-- Inputs at the end that neither open nor close. -/
theorem since_append_of_neutral {opens closes : A -> Prop} (past : List A) {late : List A}
    (neutral : ∀ input ∈ late, ¬ opens input ∧ ¬ closes input) :
    Since opens closes (past ++ late) ↔ Since opens closes past := by
  induction late using List.reverseRecOn with
  | nil => rw [List.append_nil]
  | append_singleton late newest ih =>
    have idle := neutral newest (List.mem_append_right _ List.mem_cons_self)
    rw [← List.append_assoc, since_snoc_of_neutral _ idle.1 idle.2]
    exact ih (List.forall_mem_append.mp neutral).1

/-- Inputs that neither open nor close may be left out. -/
theorem since_filter {opens closes : A -> Prop} (keep : A -> Bool)
    (neutral : ∀ input, keep input = false -> ¬ opens input ∧ ¬ closes input) (past : List A) :
    Since opens closes (past.filter keep) ↔ Since opens closes past := by
  induction past using List.reverseRecOn with
  | nil => exact Iff.rfl
  | append_singleton past newest ih =>
    rw [List.filter_append]
    cases kept : keep newest with
    | true => rw [List.filter_cons_of_pos kept, List.filter_nil, since_snoc, since_snoc, ih]
    | false =>
      have idle := neutral newest kept
      rw [List.filter_cons_of_neg (by rw [kept]; exact Bool.false_ne_true), List.filter_nil, List.append_nil,
        ih, since_snoc_of_neutral past idle.1 idle.2]

/-! ## Rules stated at every position -/

def EverywhereOn (rule : List A -> A -> Prop) (inputs : List A) : Prop :=
  ∀ past input future, inputs = past ++ input :: future -> rule past input

theorem everywhereOn_nil (rule : List A -> A -> Prop) : EverywhereOn rule [] := by
  intro past input future split
  exact absurd split.symm (List.append_ne_nil_of_right_ne_nil past (List.cons_ne_nil input future))

/-- The rule at the first position, and at the later ones seen from there. -/
theorem everywhereOn_cons (rule : List A -> A -> Prop) (input : A) (rest : List A) :
    EverywhereOn rule (input :: rest) ↔
      rule [] input ∧ EverywhereOn (fun past => rule (input :: past)) rest := by
  constructor
  · intro holds
    refine ⟨holds [] input rest rfl, ?_⟩
    intro past later future split
    exact holds (input :: past) later future (by rw [split, List.cons_append])
  · rintro ⟨first, others⟩ past later future split
    cases past with
    | nil =>
      cases split
      exact first
    | cons head past =>
      cases split
      exact others past later future rfl

/-- Along a concatenation, the later part seen from the end of the earlier. -/
theorem everywhereOn_append (rule : List A -> A -> Prop) (first second : List A) :
    EverywhereOn rule (first ++ second) ↔
      EverywhereOn rule first ∧ EverywhereOn (fun more => rule (first ++ more)) second := by
  induction first generalizing rule with
  | nil => exact ⟨fun holds => ⟨everywhereOn_nil rule, holds⟩, fun holds => holds.2⟩
  | cons input rest ih =>
    rw [List.cons_append, everywhereOn_cons, everywhereOn_cons, ih, and_assoc]
    rfl

instance EverywhereOn.decidable (rule : List A -> A -> Prop) [∀ past input, Decidable (rule past input)] :
    (inputs : List A) -> Decidable (EverywhereOn rule inputs)
  | [] => isTrue (everywhereOn_nil rule)
  | input :: rest =>
    have := EverywhereOn.decidable (fun past => rule (input :: past)) rest
    decidable_of_iff _ (everywhereOn_cons rule input rest).symm

/-- The same, for a rule that already looks back on a past. -/
theorem everywhereOn_cons_after {rule : List A -> A -> Prop} {past : List A} {input : A} {rest : List A}
    (first : rule past input) (others : EverywhereOn (fun more => rule (past ++ [input] ++ more)) rest) :
    EverywhereOn (fun more => rule (past ++ more)) (input :: rest) := by
  rw [everywhereOn_cons, List.append_nil]
  refine ⟨first, ?_⟩
  simpa only [List.append_assoc, List.singleton_append] using others

theorem everywhereOn_and (rule other : List A -> A -> Prop) (inputs : List A) :
    EverywhereOn (fun past input => rule past input ∧ other past input) inputs ↔
      EverywhereOn rule inputs ∧ EverywhereOn other inputs := by
  constructor
  · intro holds
    exact ⟨fun past input future split => (holds past input future split).1,
      fun past input future split => (holds past input future split).2⟩
  · rintro ⟨first, second⟩ past input future split
    exact ⟨first past input future split, second past input future split⟩

/-- A rule that does not look back is one about the members of the stream. -/
theorem everywhereOn_iff_forall_mem (rule : A -> Prop) (inputs : List A) :
    EverywhereOn (fun _ input => rule input) inputs ↔ ∀ input ∈ inputs, rule input := by
  constructor
  · intro holds input member
    obtain ⟨past, future, split⟩ := List.append_of_mem member
    exact holds past input future split
  · intro holds past input future split
    exact holds input (by simp [split])

/-- A rule that asks nothing of some inputs, and does not see them. -/
theorem everywhereOn_filter {rule : List A -> A -> Prop} (keep : A -> Bool)
    (asksNothing : ∀ past input, keep input = false -> rule past input)
    (unseen : ∀ past input, rule (past.filter keep) input ↔ rule past input) (inputs : List A) :
    EverywhereOn rule (inputs.filter keep) ↔ EverywhereOn rule inputs := by
  constructor
  · rintro holds past input future rfl
    cases kept : keep input with
    | false => exact asksNothing past input kept
    | true =>
      apply (unseen past input).mp
      apply holds (past.filter keep) input (future.filter keep)
      rw [List.filter_append, List.filter_cons_of_pos kept]
  · intro holds past input future split
    rcases List.filter_eq_append_iff.mp split with ⟨before, after, rfl, early, late⟩
    rcases List.filter_eq_cons_iff.mp late with ⟨skipped, rest, rfl, dropped, kept, _⟩
    have all : past = (before ++ skipped).filter keep := by
      rw [List.filter_append, early, List.filter_eq_nil_iff.mpr dropped, List.append_nil]
    rw [all]
    apply (unseen _ input).mpr
    exact holds (before ++ skipped) input rest (by rw [List.append_assoc])

/-- A state machine that admits an input exactly when the rule holds of the
inputs so far admits exactly the streams on which the rule holds everywhere. -/
theorem everywhereOn_iff_of_tracks {S : Type u} (rule : List A -> A -> Prop)
    (Tracks : List A -> S -> Prop) (next : S -> A -> S) {allows : S -> A -> Prop}
    {admits : S -> List A -> Prop}
    (admits_nil : ∀ state, admits state [])
    (admits_cons : ∀ state input rest,
      admits state (input :: rest) ↔ allows state input ∧ admits (next state input) rest)
    {inputs : List A}
    (decides : ∀ past state input, input ∈ inputs -> Tracks past state ->
      (allows state input ↔ rule past input))
    (keeps : ∀ past state input, input ∈ inputs -> Tracks past state -> allows state input ->
      Tracks (past ++ [input]) (next state input))
    {past : List A} {state : S} (tracks : Tracks past state) :
    admits state inputs ↔ EverywhereOn (fun more => rule (past ++ more)) inputs := by
  induction inputs generalizing past state with
  | nil => exact iff_of_true (admits_nil state) (everywhereOn_nil _)
  | cons input rest ih =>
    rw [admits_cons, everywhereOn_cons, List.append_nil,
      decides past state input List.mem_cons_self tracks]
    apply and_congr_right
    intro ruled
    have allowed := (decides past state input List.mem_cons_self tracks).mpr ruled
    have later := ih
      (fun past state other member => decides past state other (List.mem_cons_of_mem _ member))
      (fun past state other member => keeps past state other (List.mem_cons_of_mem _ member))
      (keeps past state input List.mem_cons_self tracks allowed)
    rw [later]
    simp only [List.append_assoc, List.singleton_append]

end Library
end AgUi
