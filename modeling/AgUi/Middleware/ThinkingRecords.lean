import AgUi.Middleware.ThinkingBrackets
import AgUi.Verify.JoinedRuns

namespace AgUi
namespace Middleware
namespace Boundary

open Library Protocol Verify

/-!
# The verifier's record of translated thinking

The record of the translated stream differs from that of the other events
only in what it keeps of minted ids: there each open bracket of the producer
is an open reasoning span or message.
-/

/-! ## The two records -/

/-- The id is none an event names or carries, of whatever kind. -/
def Unheard (id : String) (event : Event) : Prop :=
  ∀ bucket, Key.owner bucket id ∉ known event

/-- What the verifier keeps of reasoning under an id. -/
inductive KeyOf (id : String) : Key -> Prop
  | owner : KeyOf id (.owner .reasoning id)
  | opened (bracket : Bracket) (reasoning : bracket.bucket = .reasoning) : KeyOf id (.opened bracket id)

theorem untouched_of_unheard {id : String} {event : Event} (unheard : Unheard id event) (inside : isInside event = true)
    {key : Key} (own : KeyOf id key) : ¬ Touches event key := by
  have notStart := ((isInside_iff event).mp inside).2
  have named : Key.owner .reasoning id ∉ known event := unheard .reasoning
  rintro (phase | reads | writes)
  · cases own <;> cases phase
  · cases event with
    | reasoningMessageContent e | reasoningMessageEnd e | reasoningEnd e =>
      cases own with
      | owner | opened bracket reasoning =>
        rcases reads with same | ⟨_, same⟩ <;> cases same
        exact named (List.mem_append_left _ List.mem_cons_self)
    | textMessageContent e | textMessageEnd e | toolCallArgs e | toolCallEnd e =>
      cases own with
      | owner => rcases reads with same | ⟨_, same⟩ <;> cases same
      | opened bracket reasoning =>
        rcases reads with same | ⟨_, same⟩ <;> cases same
        cases reasoning
    | toolCallStart e =>
      rcases reads with ⟨parent, _, same⟩
      cases own <;> cases same
    | reasoningEncryptedValue e =>
      rcases reads with ⟨_, bucket, same⟩
      cases own <;> cases same
      cases subtype : e.subtype with
      | toolCall => exact unheard .toolCall (List.mem_append_left _ (by simp [Verify.named, subtype]))
      | message => exact unheard .message (List.mem_append_left _ (by simp [Verify.named, subtype]))
    | activityDelta e => cases own <;> cases reads.2
    | subagentStarted e =>
      rcases reads with ⟨_, _, same⟩
      cases own <;> cases same
    | runFinished e => cases inside
    | _ => exact reads
  · cases own with
    | owner => exact named (known_of_writes writes rfl notStart)
    | opened bracket reasoning =>
      cases event with
      | reasoningStart e | reasoningMessageStart e =>
        rcases writes with same | same <;> cases same
        exact named (List.mem_append_left _ List.mem_cons_self)
      | reasoningEnd e | reasoningMessageEnd e =>
        cases writes
        exact named (List.mem_append_left _ List.mem_cons_self)
      | textMessageStart e | toolCallStart e =>
        rcases writes with same | same <;> cases same
        cases reasoning
      | textMessageEnd e | toolCallEnd e =>
        cases writes
        cases reasoning
      | stepStarted e | stepFinished e | activitySnapshot e | toolCallResult e => cases writes
      | subagentStarted e | subagentFinished e | subagentError e =>
        rcases writes with ⟨_, _, same⟩
        cases same
      | messagesSnapshot e => rcases writes with ⟨message, _, same | ⟨call, _, same⟩⟩ <;> cases same
      | runStarted e => exact notStart rfl
      | runFinished e | runError e => cases inside
      | _ => exact writes

/-- How one bracket of the producer stands in the record of the translated stream. -/
inductive Follows (randomUUID : Nat -> String) (bracket : Bracket) (current : Option String) (minted : Nat)
    (record : Record) : Option Owner -> Prop
  | closed (nothing : ∀ number, record (.opened bracket (randomUUID number)) = false) :
      Follows randomUUID bracket current minted record none
  | held {owner : Owner} (number : Nat) (early : number < minted) (remembered : current = some (randomUUID number))
      (opened : ∀ other, record (.opened bracket (randomUUID other)) = decide (other = number))
      (owned : record (.owner .reasoning (randomUUID number)) = some owner) :
      Follows randomUUID bracket current minted record (some owner)

/-- What the record of the translated stream has in common with that of the other events. -/
structure Mirrors (randomUUID : Nat -> String) (state : BoundaryState) (brackets : Brackets) (record other : Record) :
    Prop where
  same : ∀ key, (∀ number, ¬ KeyOf (randomUUID number) key) -> other key = record key
  fresh : ∀ number, state.minted ≤ number -> other (.owner .reasoning (randomUUID number)) = none
  span : Follows randomUUID .reasoningSpan state.currentReasoningId state.minted other brackets.span
  message : Follows randomUUID .reasoningMessage state.currentMessageId state.minted other brackets.message

/-- The two records between and inside runs. -/
structure Accompanies (randomUUID : Nat -> String) (state : BoundaryState) (open? : Option Brackets)
    (record other : Record) : Prop where
  phase : other .phase = record .phase
  running : open?.isSome = true ↔ record .phase = .active
  inside : ∀ brackets, open? = some brackets -> Mirrors randomUUID state brackets record other

section

variable {randomUUID : Nat -> String} {state : BoundaryState} {open? : Option Brackets} {brackets : Brackets}
  {record other : Record}

theorem Follows.congr {bracket : Bracket} {current : Option String} {minted later : Nat} {owner : Option Owner}
    (follows : Follows randomUUID bracket current minted record owner) (grown : minted ≤ later)
    (opened : ∀ number, other (.opened bracket (randomUUID number)) = record (.opened bracket (randomUUID number)))
    (owned : ∀ number, number < minted ->
      other (.owner .reasoning (randomUUID number)) = record (.owner .reasoning (randomUUID number))) :
    Follows randomUUID bracket current later other owner := by
  cases follows with
  | closed nothing => exact .closed fun number => (opened number).trans (nothing number)
  | held number early remembered isOpen own =>
    exact .held number (Nat.lt_of_lt_of_le early grown) remembered (fun other => (opened other).trans (isOpen other))
      ((owned number early).trans own)

/-- An event inside a run that does not know the minted ids. -/
theorem Mirrors.inside (mirrors : Mirrors randomUUID state brackets record other) {event : Event}
    (unheard : ∀ number, Unheard (randomUUID number) event) (inside : isInside event = true)
    (allowed : Allows record event) :
    Allows other event ∧ Mirrors randomUUID state brackets (next record event) (next other event) := by
  have untouched : ∀ number key, KeyOf (randomUUID number) key -> ¬ Touches event key :=
    fun number key own => untouched_of_unheard (unheard number) inside own
  have agree : AgreeOn event record other := by
    intro key touches
    exact (mirrors.same key fun number own => untouched number key own touches).symm
  have kept : ∀ number key, KeyOf (randomUUID number) key -> next other event key = other key :=
    fun number key own => next_of_not_writes other fun writes => untouched number key own (.inr (.inr writes))
  refine ⟨allows_congr agree allowed, ?_, ?_, ?_, ?_⟩
  · intro key apart
    by_cases writes : Writes event key
    · exact (next_congr agree key writes).symm
    · rw [next_of_not_writes other writes, next_of_not_writes record writes]
      exact mirrors.same key apart
  · intro number late
    rw [kept number _ .owner]
    exact mirrors.fresh number late
  · exact mirrors.span.congr (Nat.le_refl _) (fun number => kept number _ (.opened .reasoningSpan rfl))
      fun number _ => kept number _ .owner
  · exact mirrors.message.congr (Nat.le_refl _) (fun number => kept number _ (.opened .reasoningMessage rfl))
      fun number _ => kept number _ .owner

/-- A run that may finish there may finish here too, once the brackets are closed. -/
theorem Mirrors.allClosed (mirrors : Mirrors randomUUID state {} record other) (closed : AllClosed record) :
    AllClosed other where
  steps := by
    intro owner name
    rw [mirrors.same _ fun number own => by cases own]
    exact closed.steps owner name
  entities := by
    intro bracket id
    by_cases minted : ∃ number, KeyOf (randomUUID number) (.opened bracket id)
    · rcases minted with ⟨number, own⟩
      cases own with
      | opened _ reasoning =>
        cases bracket with
        | reasoningSpan =>
          cases mirrors.span with
          | closed nothing => exact nothing number
        | reasoningMessage =>
          cases mirrors.message with
          | closed nothing => exact nothing number
        | _ => cases reasoning
    · rw [mirrors.same _ fun number own => minted ⟨number, own⟩]
      exact closed.entities bracket id
  subagents := by
    intro id
    rw [mirrors.same _ fun number own => by cases own]
    exact closed.subagents id

/-! ## One event -/

theorem type_of_readAs {type : EventType} {tag : Tag} {wire : Json} {event : Event}
    (found : readAs type tag wire = some event) : event.type = type := by
  cases type <;> simp only [readAs, Option.bind_eq_bind, Option.bind_eq_some_iff, Option.some.injEq] at found <;>
    first
    | (subst found; rfl)
    | (rcases found with ⟨_, _, rfl⟩; rfl)
    | (rcases found with ⟨_, _, _, _, rfl⟩; rfl)
    | (rcases found with ⟨_, _, _, _, _, _, rfl⟩; rfl)
    | (rcases found with ⟨_, _, _, _, _, _, _, _, rfl⟩; rfl)
    | (rcases found with ⟨_, _, _, _, _, _, _, _, _, _, rfl⟩; rfl)

/-- The type of an event that is read is the one it is spelled with. -/
theorem spelled_of_read {wire : Json} {event : Event} (found : read? wire = some event) :
    ∃ name, textField wire "type" = some name ∧ typeOf name = event.type := by
  unfold read? at found
  simp only [Option.bind_eq_bind, Option.bind_eq_some_iff] at found
  rcases found with ⟨name, spelled, tag, _, read⟩
  exact ⟨name, spelled, (type_of_readAs read).symm⟩

theorem spelled_iff {wire : Json} {event : Event} (found : read? wire = some event) (type : EventType)
    (known : typeOf type.name = type) : textField wire "type" = some type.name ↔ event.type = type := by
  rcases spelled_of_read found with ⟨name, spelled, same⟩
  rw [spelled, ← same, Option.some_inj]
  constructor
  · rintro rfl
    exact known
  · intro equal
    rcases typeOf_cases name with ⟨_, own⟩ | ⟨unknown, _⟩
    · rw [← own, equal]
    · rw [unknown] at equal
      rw [← equal]
      rfl

theorem stepBrackets_of_read (open? : Option Brackets) {wire : Json} {event : Event} (found : read? wire = some event)
    (modern : thinkingType? wire = none) :
    stepBrackets open? wire =
      if event.type = .runStarted then some {}
      else if event.type = .runFinished ∨ event.type = .runError then none
      else open? := by
  have started := spelled_iff found .runStarted (by decide)
  have finished := spelled_iff found .runFinished (by decide)
  have errored := spelled_iff found .runError (by decide)
  unfold stepBrackets
  rw [modern]
  dsimp only
  exact if_congr started rfl (if_congr (or_congr finished errored) rfl rfl)

theorem Accompanies.blank : Accompanies randomUUID {} none Record.blank Record.blank where
  phase := rfl
  running := by simp [Record.blank]
  inside := nofun

/-- A run begins with nothing open and nothing known of the minted ids. -/
theorem mirrors_runStarted (start : RunStartedEvent)
    (unheard : ∀ number, Unheard (randomUUID number) (.runStarted start)) :
    Mirrors randomUUID state {} (next record (.runStarted start)) (next other (.runStarted start)) where
  same := fun _ _ => rfl
  fresh := fun number _ => unseen_runStarted rfl (unheard number .reasoning) other
  span := .closed fun _ => Record.seedMessages_of_not_owner _ _ _ fun _ _ => Key.noConfusion
  message := .closed fun _ => Record.seedMessages_of_not_owner _ _ _ fun _ _ => Key.noConfusion

theorem Accompanies.modern (accompanies : Accompanies randomUUID state open? record other) {wire : Json} {event : Event}
    (found : read? wire = some event) (modern : thinkingType? wire = none) (obeys : Obeys open? wire)
    (unheard : ∀ number, Unheard (randomUUID number) event) (allowed : Allows record event) :
    Allows other event ∧
      Accompanies randomUUID state (stepBrackets open? wire) (next record event) (next other event) := by
  have step := stepBrackets_of_read open? found modern
  cases event with
  | runStarted start =>
    have parts := (allows_runStarted_iff record start).mp allowed
    simp only [Event.type, if_true] at step
    refine ⟨(allows_runStarted_iff other start).mpr ⟨accompanies.phase ▸ parts.1, parts.2⟩, rfl, ?_, ?_⟩
    · rw [step, phase_next]
      simp
    · intro brackets begun
      rw [step] at begun
      cases begun
      exact mirrors_runStarted start unheard
  | runFinished finish =>
    have active : record .phase = .active := allowed.phase
    rcases Option.isSome_iff_exists.mp (accompanies.running.mpr active) with ⟨brackets, open_⟩
    have nothing : brackets = {} := by
      unfold Obeys at obeys
      rw [modern] at obeys
      exact obeys ((spelled_iff found .runFinished (by decide)).mpr rfl) brackets open_
    cases nothing
    have mirrors := accompanies.inside _ open_
    simp only [Event.type, reduceCtorEq, true_or, if_false, if_true] at step
    refine ⟨⟨accompanies.phase.trans active, allowed.fields, mirrors.allClosed allowed.case⟩, ?_, ?_, ?_⟩
    · rw [phase_next, phase_next]
    · rw [step, phase_next]
      simp
    · intro brackets impossible
      rw [step] at impossible
      cases impossible
  | runError error =>
    have alive : record .phase ≠ .errored := allowed.phase
    simp only [Event.type, reduceCtorEq, or_true, if_false, if_true] at step
    refine ⟨⟨accompanies.phase ▸ alive, allowed.fields, trivial⟩, ?_, ?_, ?_⟩
    · rw [phase_next, phase_next]
    · rw [step, phase_next]
      simp
    · intro brackets impossible
      rw [step] at impossible
      cases impossible
  | _ =>
    have active := (phaseAllows_inside (by exact EventType.noConfusion) (by exact EventType.noConfusion)).mp
      allowed.phase
    rcases Option.isSome_iff_exists.mp (accompanies.running.mpr active) with ⟨brackets, open_⟩
    rcases (accompanies.inside brackets open_).inside unheard rfl allowed with ⟨admitted, mirrors⟩
    simp only [Event.type, reduceCtorEq, or_self, if_false] at step
    refine ⟨admitted, ?_, ?_, ?_⟩
    · rw [phase_next, phase_next]
      exact accompanies.phase
    · rw [step, phase_next]
      exact accompanies.running
    · intro others same
      rw [step, open_] at same
      cases same
      exact mirrors

/-! ## One retired event -/

theorem keyOf_of_opening {bracket : Bracket} (reasoning : bracket.bucket = .reasoning) {id : String} {key : Key}
    (opening : OpeningKey bracket id key) : KeyOf id key := by
  rcases opening with rfl | rfl
  · exact .opened bracket reasoning
  · rw [reasoning]
    exact .owner

variable {minted : Nat}

/-- The bracket itself, once it is opened under a new id. -/
theorem Follows.opening (distinct : Function.Injective randomUUID) {bracket : Bracket}
    (reasoning : bracket.bucket = .reasoning) {current : Option String} (owner : Owner)
    (follows : Follows randomUUID bracket current minted record none)
    (unseen : record (.owner .reasoning (randomUUID minted)) = none) :
    Follows randomUUID bracket (some (randomUUID minted)) (minted + 1)
      (openNext record bracket owner (randomUUID minted)) (some owner) := by
  cases follows with
  | closed nothing =>
    refine .held minted (Nat.lt_succ_self minted) rfl (fun number => ?_) ?_
    · unfold openNext
      rw [Record.claim_of_ne _ _ _ _ Key.noConfusion, Record.put_opened, nothing number]
      by_cases same : number = minted
      · rw [if_pos ⟨rfl, congrArg randomUUID same⟩, decide_eq_true same]
      · rw [if_neg fun both => same (distinct both.2), decide_eq_false same]
    · unfold openNext
      rw [reasoning, Record.claim_self, Record.put_of_ne _ _ Key.noConfusion, unseen]
      rfl

/-- The other bracket, when one is opened under a new id. -/
theorem Follows.beside (distinct : Function.Injective randomUUID) {bracket opened : Bracket} (apart : bracket ≠ opened)
    {current : Option String} {held : Option Owner}
    (owner : Owner) (follows : Follows randomUUID bracket current minted record held) :
    Follows randomUUID bracket current (minted + 1) (openNext record opened owner (randomUUID minted)) held := by
  refine follows.congr (Nat.le_succ minted) (fun number => ?_) fun number early => ?_
  · refine openNext_of_ne record opened owner _ ?_
    rintro (same | same)
    · exact apart (Key.opened.inj same).1
    · cases same
  · refine openNext_of_ne record opened owner _ ?_
    rintro (same | same)
    · cases same
    · exact absurd (distinct (Key.owner.inj same).2) (Nat.ne_of_lt early)

theorem Follows.openAllowed {bracket : Bracket} (reasoning : bracket.bucket = .reasoning) {current : Option String}
    (follows : Follows randomUUID bracket current minted record none)
    (unseen : record (.owner .reasoning (randomUUID minted)) = none) (tag : Option String) :
    OpenAllowed record bracket tag (randomUUID minted) := by
  cases follows with
  | closed nothing =>
    refine ⟨nothing minted, ?_⟩
    rw [reasoning, unseen]
    exact none_tagAgrees tag

/-- An open bracket is remembered under the id it is open under. -/
theorem Follows.exists_held {bracket : Bracket} (reasoning : bracket.bucket = .reasoning) {current : Option String}
    {owner : Owner} (follows : Follows randomUUID bracket current minted record (some owner)) :
    ∃ number, current = some (randomUUID number) ∧
      (∀ other, record (.opened bracket (randomUUID other)) = decide (other = number)) ∧
      ∀ tag, TagAgrees (some owner) tag -> ContinueAllowed record bracket tag (randomUUID number) := by
  cases follows with
  | held number early remembered opened owned =>
    refine ⟨number, remembered, opened, fun tag agrees => ⟨?_, ?_⟩⟩
    · rw [opened number]
      exact decide_eq_true rfl
    · rw [reasoning, owned]
      exact agrees

/-- A bracket is closed under the id it is open under. -/
theorem Follows.closing {bracket : Bracket} (later : Option String) (minted : Nat) {number : Nat}
    (opened : ∀ other, record (.opened bracket (randomUUID other)) = decide (other = number)) :
    Follows randomUUID bracket later minted (closeNext record bracket (randomUUID number)) none := by
  refine .closed fun another => ?_
  unfold closeNext
  rw [Record.put_opened]
  split
  · rfl
  · rename_i apart
    rw [opened another]
    exact decide_eq_false fun same => apart ⟨rfl, congrArg randomUUID same⟩

theorem Follows.besideClosing {bracket closed : Bracket} (apart : bracket ≠ closed) {current : Option String}
    {held : Option Owner} (id : String) (follows : Follows randomUUID bracket current minted record held) :
    Follows randomUUID bracket current minted (closeNext record closed id) held := by
  refine follows.congr (Nat.le_refl _) (fun number => ?_) fun number _ => Record.put_of_ne _ _ Key.noConfusion
  refine Record.put_of_ne _ _ ?_
  intro same
  cases same
  exact apart rfl

section

variable (mirrors : Mirrors randomUUID state brackets record other)

include mirrors

theorem Mirrors.same_opening {bracket : Bracket}
    (reasoning : bracket.bucket = .reasoning) (owner : Owner) (number : Nat) {key : Key}
    (apart : ∀ number, ¬ KeyOf (randomUUID number) key) :
    openNext other bracket owner (randomUUID number) key = record key :=
  (openNext_of_ne other bracket owner _ fun opening => apart number (keyOf_of_opening reasoning opening)).trans
    (mirrors.same key apart)

theorem Mirrors.fresh_opening (distinct : Function.Injective randomUUID) (bracket : Bracket) (owner : Owner)
    {number : Nat}
    (late : state.minted + 1 ≤ number) :
    openNext other bracket owner (randomUUID state.minted) (.owner .reasoning (randomUUID number)) = none := by
  refine (openNext_of_ne other bracket owner _ ?_).trans (mirrors.fresh number (Nat.le_of_succ_le late))
  rintro (same | same)
  · cases same
  · exact absurd (distinct (Key.owner.inj same).2) (Nat.ne_of_gt late)

theorem Mirrors.same_closing {bracket : Bracket}
    (reasoning : bracket.bucket = .reasoning) (number : Nat) {key : Key}
    (apart : ∀ number, ¬ KeyOf (randomUUID number) key) :
    closeNext other bracket (randomUUID number) key = record key := by
  refine (Record.put_of_ne _ _ ?_).trans (mirrors.same key apart)
  rintro rfl
  exact apart number (.opened bracket reasoning)

theorem Mirrors.fresh_closing (bracket : Bracket) (id : String) {number : Nat} (late : state.minted ≤ number) :
    closeNext other bracket id (.owner .reasoning (randomUUID number)) = none :=
  (Record.put_of_ne other _ Key.noConfusion).trans (mirrors.fresh number late)

end

theorem translate_content {id : String} (remembered : state.currentMessageId = some id) {wire : Json} :
    (translate randomUUID state wire .textMessageContent).1 = state := by
  rcases state with ⟨reasoning, message, minted⟩
  cases remembered
  rfl

theorem translate_textMessageEnd {id : String} (remembered : state.currentMessageId = some id) {wire : Json} :
    (translate randomUUID state wire .textMessageEnd).1 = { state with currentMessageId := none } := by
  rcases state with ⟨reasoning, message, minted⟩
  cases remembered
  rfl

theorem translate_finish {id : String} (remembered : state.currentReasoningId = some id) {wire : Json} :
    (translate randomUUID state wire .finish).1 = { state with currentReasoningId := none } := by
  rcases state with ⟨reasoning, message, minted⟩
  cases remembered
  rfl

/-- The tag of an event that goes on with a bracket agrees with the owner on record. -/
theorem tagAgrees_of_continues {wire : Json} {owner : Owner} {tag : Tag} (tagged : readTag wire = some tag)
    (agrees : ownerOf wire = none ∨ ownerOf wire = owner) : TagAgrees (some owner) tag.toOption := by
  have own : ownerOf wire = tag.toOption := by
    rw [ownerOf, tagged]
    rfl
  rw [← own]
  intro known same name named
  cases same
  rcases agrees with nobody | same
  · rw [nobody] at named
    cases named
  · exact same.symm.trans named

/-- A retired event inside its bracket, translated. -/
theorem Accompanies.thinking (accompanies : Accompanies randomUUID state open? record other)
    (distinct : Function.Injective randomUUID) {wire : Json} {thinking : ThinkingType}
    (retired : thinkingType? wire = some thinking) (obeys : Obeys open? wire) :
    ∃ event, read? (transformEvent randomUUID state wire).2 = some event ∧ Allows other event ∧
      Accompanies randomUUID (transformEvent randomUUID state wire).1 (stepBrackets open? wire) record
        (next other event) := by
  unfold Obeys at obeys
  rw [retired] at obeys
  rcases obeys with ⟨brackets, rfl, allow⟩
  have mirrors := accompanies.inside brackets rfl
  have active : record .phase = .active := accompanies.running.mp rfl
  have alsoActive : other .phase = .active := accompanies.phase.trans active
  have after : stepBrackets (some brackets) wire = some (brackets.after wire thinking) := by
    rw [stepBrackets, retired]
    rfl
  have tagged : ∃ tag, readTag wire = some tag := by
    cases thinking with
    | start | textMessageStart => exact Option.isSome_iff_exists.mp allow.2
    | textMessageContent => exact Option.isSome_iff_exists.mp allow.1.choose_spec.2.1
    | textMessageEnd | finish => exact Option.isSome_iff_exists.mp allow.choose_spec.2.1
  rcases tagged with ⟨tag, tagged⟩
  have own : ownerOf wire = tag.toOption := by
    rw [ownerOf, tagged]
    rfl
  have content : ∃ delta, thinking = .textMessageContent -> textField wire "delta" = some delta := by
    cases thinking with
    | textMessageContent =>
      rcases Option.isSome_iff_exists.mp allow.2 with ⟨delta, given⟩
      exact ⟨delta, fun _ => given⟩
    | _ => exact ⟨"", nofun⟩
  rcases content with ⟨delta, content⟩
  refine ⟨_, read?_translate randomUUID state retired tagged content, ?_⟩
  have translated : (transformEvent randomUUID state wire).1 =
    (translate randomUUID state (cleaned wire) thinking).1 := by
    rw [transformEvent_eq, retired]
  rw [translated, after]
  cases thinking with
  | start =>
    have unseen := mirrors.fresh state.minted (Nat.le_refl _)
    have closed := mirrors.span
    rw [allow.1] at closed
    refine ⟨⟨alsoActive, rfl, closed.openAllowed rfl unseen _⟩, ?_, iff_of_true rfl active, ?_⟩
    · rw [phase_next]
      exact accompanies.phase
    · rintro others same
      cases same
      have spanned : (brackets.after wire .start).span = some tag.toOption := congrArg some own
      exact {
        same := fun key apart => mirrors.same_opening rfl _ _ apart
        fresh := fun number late => mirrors.fresh_opening distinct _ _ late
        span := by
          rw [spanned]
          exact closed.opening distinct rfl tag.toOption unseen
        message := mirrors.message.beside distinct Verify.Bracket.noConfusion _ }
  | textMessageStart =>
    have unseen := mirrors.fresh state.minted (Nat.le_refl _)
    have closed := mirrors.message
    rw [allow.1] at closed
    refine ⟨⟨alsoActive, rfl, closed.openAllowed rfl unseen _⟩, ?_, iff_of_true rfl active, ?_⟩
    · rw [phase_next]
      exact accompanies.phase
    · rintro others same
      cases same
      have spanned : (brackets.after wire .textMessageStart).message = some tag.toOption := congrArg some own
      exact {
        same := fun key apart => mirrors.same_opening rfl _ _ apart
        fresh := fun number late => mirrors.fresh_opening distinct _ _ late
        span := mirrors.span.beside distinct Verify.Bracket.noConfusion _
        message := by
          rw [spanned]
          exact closed.opening distinct rfl tag.toOption unseen }
  | textMessageContent =>
    rcases allow with ⟨⟨owner, held, _, agrees⟩, _⟩
    have isOpen := mirrors.message
    rw [held] at isOpen
    rcases isOpen.exists_held rfl with ⟨number, remembered, opened, allowed⟩
    have id : namedId randomUUID state .textMessageContent = randomUUID number := by
      rw [namedId, remembered]
      rfl
    rw [id, translate_content remembered]
    refine ⟨⟨alsoActive, rfl, allowed _ (tagAgrees_of_continues tagged agrees)⟩, ?_, iff_of_true rfl active, ?_⟩
    · exact accompanies.phase
    · rintro others same
      cases same
      exact mirrors
  | textMessageEnd =>
    rcases allow with ⟨owner, held, _, agrees⟩
    have isOpen := mirrors.message
    rw [held] at isOpen
    rcases isOpen.exists_held rfl with ⟨number, remembered, opened, allowed⟩
    have id : namedId randomUUID state .textMessageEnd = randomUUID number := by
      rw [namedId, remembered]
      rfl
    rw [id, translate_textMessageEnd remembered]
    refine ⟨⟨alsoActive, rfl, allowed _ (tagAgrees_of_continues tagged agrees)⟩, ?_, iff_of_true rfl active, ?_⟩
    · rw [phase_next]
      exact accompanies.phase
    · rintro others same
      cases same
      exact {
        same := fun key apart => mirrors.same_closing rfl number apart
        fresh := fun number late => mirrors.fresh_closing _ _ late
        span := mirrors.span.besideClosing Verify.Bracket.noConfusion _
        message := Follows.closing _ _ opened }
  | finish =>
    rcases allow with ⟨owner, held, _, agrees⟩
    have isOpen := mirrors.span
    rw [held] at isOpen
    rcases isOpen.exists_held rfl with ⟨number, remembered, opened, allowed⟩
    have id : namedId randomUUID state .finish = randomUUID number := by
      rw [namedId, remembered]
      rfl
    rw [id, translate_finish remembered]
    refine ⟨⟨alsoActive, rfl, allowed _ (tagAgrees_of_continues tagged agrees)⟩, ?_, iff_of_true rfl active, ?_⟩
    · rw [phase_next]
      exact accompanies.phase
    · rintro others same
      cases same
      exact {
        same := fun key apart => mirrors.same_closing rfl number apart
        fresh := fun number late => mirrors.fresh_closing _ _ late
        span := Follows.closing _ _ opened
        message := mirrors.message.besideClosing Verify.Bracket.noConfusion _ }

/-- The translated stream is read and admitted, in step with the other events. -/
theorem accompanies_transform (distinct : Function.Injective randomUUID) {past : List Json}
    (brackets : WellBracketed past) {events : List Event} (found : (past.filter isModern).mapM read? = some events)
    (admitted : Admits Record.blank events)
    (unheard : ∀ event ∈ events, ∀ number, Unheard (randomUUID number) event) :
    ∃ shown, (transform randomUUID {} past).mapM read? = some shown ∧ Admits Record.blank shown ∧
      Accompanies randomUUID (stateAfter randomUUID past) (bracketsAfter past) (advance Record.blank events)
        (advance Record.blank shown) := by
  induction past using List.reverseRecOn generalizing events with
  | nil =>
    cases found
    exact ⟨[], rfl, trivial, Accompanies.blank⟩
  | append_singleton past wire ih =>
    rw [List.filter_append] at found
    rw [transform_snoc, stateAfter_snoc, bracketsAfter_snoc]
    cases retired : thinkingType? wire with
    | some thinking =>
      have skipped : [wire].filter isModern = [] := by
        rw [List.filter_cons_of_neg (by simp [isModern, retired]), List.filter_nil]
      rw [skipped, List.append_nil] at found
      rcases ih brackets.before found admitted unheard with ⟨shown, read, valid, accompanies⟩
      rcases accompanies.thinking distinct retired brackets.last with ⟨event, reads, allowed, later⟩
      refine ⟨shown ++ [event], mapM_snoc.mpr ⟨shown, event, read, reads, rfl⟩, ?_, ?_⟩
      · exact (admits_append _ _ _).mpr ⟨valid, allowed, trivial⟩
      · rw [advance_snoc]
        exact later
    | none =>
      have taken : [wire].filter isModern = [wire] := by
        rw [List.filter_cons_of_pos (by simp [isModern, retired]), List.filter_nil]
      rw [taken] at found
      rcases mapM_snoc.mp found with ⟨before, event, earlier, last, rfl⟩
      rcases (admits_append _ _ _).mp admitted with ⟨beforeAdmitted, allowed, _⟩
      rcases ih brackets.before earlier beforeAdmitted
        (List.forall_mem_append.mp unheard).1 with ⟨shown, read, valid, accompanies⟩
      rcases accompanies.modern last retired brackets.last
        (unheard event (List.mem_append_right _ List.mem_cons_self)) allowed with ⟨alsoAllowed, later⟩
      have same : (transformEvent randomUUID (stateAfter randomUUID past) wire).1 = stateAfter randomUUID past := by
        rw [transformEvent_eq, retired]
      refine ⟨shown ++ [event], mapM_snoc.mpr ⟨shown, event, read, ?_, rfl⟩, ?_, ?_⟩
      · rw [read?_transformEvent _ _ retired]
        exact last
      · exact (admits_append _ _ _).mpr ⟨valid, alsoAllowed, trivial⟩
      · rw [advance_snoc, advance_snoc, same]
        exact later

end

end Boundary
end Middleware
end AgUi
