import AgUi.Compact.Schedule
import AgUi.Verify.Refinement

namespace AgUi
namespace Compact

open Library Protocol Apply

/-!
# The order of what is not merged

A foreign event is one that compaction never merges with another: it belongs
to no text message, no streamed tool call and no state.  Compaction writes
every foreign event out once.  While a message or a call is open it holds
foreign events back, in a list of its own, so two lists may release them in
another order than they came in, and a run event is never held back at all.
The events keep their order exactly when neither happens.
-/

/-- Neither text nor a streamed tool call nor state. -/
def isForeign (event : Event) : Bool :=
  match part event with
  | .boundary => true
  | .other => true
  | _ => false

/-- The foreign ones among numbered events. -/
def foreign (items : List Numbered) : List Numbered :=
  items.filter fun item => isForeign item.1

/-- What waits behind the streams. -/
def Buffers.others (buffers : Buffers) : List Numbered :=
  buffers.entries.flatMap fun entry => entry.2.others

/-- The first of two numbered events came first. -/
def Earlier (first second : Numbered) : Prop :=
  first.2 < second.2

namespace Waiting

/-- The foreign events held back, in the order they would be written out at
the end of the list. -/
def held (waiting : Waiting) : List Numbered :=
  waiting.texts.others ++ waiting.calls.others

/-- An event that closes a message or a call releases nothing that came after
something that another one still holds, and a run event finds nothing held. -/
def ReleasesInTurn (waiting : Waiting) (item : Numbered) : Prop :=
  match part item.1 with
  | .closing lane id =>
    ∀ released ∈ ((waiting.lane lane).buffer id).others,
      ∀ kept ∈ (waiting.withLane lane ((waiting.lane lane).erase id)).held, Earlier released kept
  | .boundary => waiting.held = []
  | _ => True

end Waiting

/-- Every step releases in turn, and so does the end of the list. -/
def InTurnFrom (waiting : Waiting) : List Numbered -> Prop
  | [] => waiting.held.Pairwise Earlier
  | item :: rest => waiting.ReleasesInTurn item ∧ InTurnFrom (waiting.step item).1 rest

/-- Whatever is held back is released in turn, at every step and at the end. -/
def InTurn (events : List Event) : Prop :=
  InTurnFrom {} events.zipIdx

theorem foreign_append (first second : List Numbered) :
    foreign (first ++ second) = foreign first ++ foreign second :=
  List.filter_append first second

/-! ## What waits is well sorted -/

/-- A buffer keeps its own stream and what it holds apart, holds something only
while its stream is open, and holds it in the order it came in. -/
structure Buffer.Orderly (next : Nat) (buffer : Buffer) : Prop where
  stream : foreign buffer.stream = []
  others : foreign buffer.others = buffer.others
  opened : buffer.isBetween = false -> buffer.others = []
  sorted : buffer.others.Pairwise Earlier
  earlier : ∀ item ∈ buffer.others, item.2 < next

/-- Every buffer is orderly, and nothing foreign waits with the state. -/
structure Waiting.Orderly (next : Nat) (waiting : Waiting) : Prop where
  buffers : ∀ lane id buffer, (waiting.lane lane).get? id = some buffer -> buffer.Orderly next
  state : foreign waiting.state = []

theorem Buffer.Orderly.later {next later : Nat} {buffer : Buffer} (orderly : buffer.Orderly next)
    (passed : next ≤ later) : buffer.Orderly later where
  stream := orderly.stream
  others := orderly.others
  opened := orderly.opened
  sorted := orderly.sorted
  earlier := fun item member => Nat.lt_of_lt_of_le (orderly.earlier item member) passed

theorem Buffer.orderly_empty (next : Nat) : Buffer.Orderly next {} where
  stream := rfl
  others := rfl
  opened := fun _ => rfl
  sorted := .nil
  earlier := fun _ impossible => absurd impossible List.not_mem_nil

theorem Buffer.Orderly.addStream {next : Nat} {buffer : Buffer} (orderly : buffer.Orderly next) (event : Event)
    (own : isForeign event = false) : (buffer.addStream (event, next)).Orderly (next + 1) where
  stream := by
    change foreign (buffer.stream ++ [(event, next)]) = []
    rw [foreign_append, orderly.stream]
    simp [foreign, own]
  others := orderly.others
  opened := by
    intro closed
    apply orderly.opened
    change (buffer.stream ++ [(event, next)]).any (fun item => isOpening item.1) = false at closed
    rw [List.any_append, Bool.or_eq_false_iff] at closed
    exact closed.1
  sorted := orderly.sorted
  earlier := fun item member => Nat.lt_succ_of_lt (orderly.earlier item member)

theorem Buffer.Orderly.addOther {next : Nat} {buffer : Buffer} (orderly : buffer.Orderly next) (event : Event)
    (other : isForeign event = true) (between : buffer.isBetween = true) :
    (buffer.addOther (event, next)).Orderly (next + 1) where
  stream := orderly.stream
  others := by
    change foreign (buffer.others ++ [(event, next)]) = buffer.others ++ [(event, next)]
    rw [foreign_append, orderly.others]
    simp [foreign, other]
  opened := fun closed => absurd between (Bool.eq_false_iff.mp closed)
  sorted := by
    refine List.pairwise_append.mpr ⟨orderly.sorted, List.pairwise_singleton _ _, ?_⟩
    intro item member newest last
    rw [List.mem_singleton.mp last]
    exact orderly.earlier item member
  earlier := by
    intro item member
    rcases List.mem_append.mp member with before | newest
    · exact Nat.lt_succ_of_lt (orderly.earlier item before)
    · rw [List.mem_singleton.mp newest]
      exact Nat.lt_succ_self next

theorem Buffers.mem_others {buffers : Buffers} {item : Numbered} :
    item ∈ buffers.others ↔ ∃ id buffer,
      buffers.get? id = some buffer ∧ item ∈ buffer.others := by
  unfold others
  rw [List.mem_flatMap]
  constructor
  · rintro ⟨⟨id, buffer⟩, entry, member⟩
    exact ⟨id, buffer, (buffers.mem_entries_iff id buffer).mp entry, member⟩
  · rintro ⟨id, buffer, found, member⟩
    exact ⟨(id, buffer), (buffers.mem_entries_iff id buffer).mpr found, member⟩

namespace Waiting

theorem lane_withLane (waiting : Waiting) (lane other : Lane) (buffers : Buffers) :
    (waiting.withLane lane buffers).lane other = if other = lane then buffers else waiting.lane other := by
  cases lane <;> cases other <;> rfl

theorem mem_held {waiting : Waiting} {item : Numbered} :
    item ∈ waiting.held ↔ ∃ lane id buffer,
      (waiting.lane lane).get? id = some buffer ∧ item ∈ buffer.others := by
  unfold held
  rw [List.mem_append, Buffers.mem_others, Buffers.mem_others]
  constructor
  · rintro (text | call)
    · exact ⟨.text, text⟩
    · exact ⟨.call, call⟩
  · rintro ⟨lane, found⟩
    cases lane
    · exact Or.inl found
    · exact Or.inr found

variable {waiting : Waiting} {next : Nat}

section

variable (orderly : waiting.Orderly next)

include orderly

theorem Orderly.buffer (lane : Lane) (id : String) : ((waiting.lane lane).buffer id).Orderly next := by
  unfold Buffers.buffer
  cases found : (waiting.lane lane).get? id with
  | none => exact Buffer.orderly_empty next
  | some buffer => exact orderly.buffers lane id buffer found

theorem Orderly.held_earlier {item : Numbered} (member : item ∈ waiting.held) : item.2 < next := by
  rcases mem_held.mp member with ⟨lane, id, buffer, found, inside⟩
  exact (orderly.buffers lane id buffer found).earlier item inside

/-- Apart from what is held, nothing foreign waits. -/
theorem Orderly.foreign_contents : foreign waiting.contents = waiting.held := by
  have lane : ∀ lane, foreign (waiting.lane lane).contents = (waiting.lane lane).others := by
    intro lane
    unfold Buffers.contents Buffers.others foreign
    rw [List.filter_flatMap]
    apply List.flatMap_congr
    rintro ⟨id, buffer⟩ entry
    have kept := orderly.buffers lane id buffer ((OrderedMap.mem_entries_iff _ id buffer).mp entry)
    change foreign (buffer.stream ++ buffer.others) = buffer.others
    rw [foreign_append, kept.stream, kept.others]
    rfl
  unfold contents held
  rw [foreign_append, foreign_append, orderly.state, List.append_nil]
  exact congrArg₂ _ (lane .text) (lane .call)

theorem Orderly.keep {lane : Lane} {id : String} {change : Buffer -> Buffer}
    (changed : (change ((waiting.lane lane).buffer id)).Orderly (next + 1)) :
    (waiting.keep lane id change).Orderly (next + 1) where
  buffers := by
    intro other name buffer found
    unfold Waiting.keep at found
    rw [lane_withLane] at found
    split at found
    · rw [OrderedMap.get?_set] at found
      split at found
      · cases found
        exact changed
      · exact (orderly.buffers lane name buffer found).later (Nat.le_succ next)
    · exact (orderly.buffers other name buffer found).later (Nat.le_succ next)
  state := by
    have kept : (waiting.keep lane id change).state = waiting.state := by cases lane <;> rfl
    rw [kept]
    exact orderly.state

theorem Orderly.erase (lane : Lane) (id : String) :
    (waiting.withLane lane ((waiting.lane lane).erase id)).Orderly (next + 1) where
  buffers := by
    intro other name buffer found
    rw [lane_withLane] at found
    split at found
    · exact (orderly.buffers lane name buffer (OrderedMap.get?_of_erase _ found)).later (Nat.le_succ next)
    · exact (orderly.buffers other name buffer found).later (Nat.le_succ next)
  state := by
    have kept : (waiting.withLane lane ((waiting.lane lane).erase id)).state = waiting.state := by cases lane <;> rfl
    rw [kept]
    exact orderly.state

end

/-- A stream is chosen to hold an event only while it is open. -/
theorem between_of_host {lane : Lane} {id : String} (chosen : waiting.host = some (lane, id)) :
    ((waiting.lane lane).buffer id).isBetween = true := by
  have open_of_between : ∀ buffers : Buffers, buffers.between = some id ->
      (buffers.buffer id).isBetween = true := by
    intro buffers between
    rcases Option.map_eq_some_iff.mp between with ⟨⟨name, buffer⟩, found, rfl⟩
    have present := (buffers.mem_entries_iff name buffer).mp (List.mem_of_find?_eq_some found)
    rw [Buffers.buffer, present]
    exact (List.find?_eq_some_iff_append.mp found).1
  unfold host at chosen
  cases text : waiting.texts.between with
  | some name =>
    rw [text] at chosen
    cases chosen
    exact open_of_between waiting.texts text
  | none =>
    rw [text] at chosen
    rcases Option.map_eq_some_iff.mp chosen with ⟨name, call, same⟩
    cases same
    exact open_of_between waiting.calls call

theorem Orderly.held_of_no_host (orderly : waiting.Orderly next) (none : waiting.host = none) :
    waiting.held = [] := by
  have closed : ∀ lane, (waiting.lane lane).between = Option.none := by
    unfold host at none
    cases text : waiting.texts.between with
    | some name =>
      rw [text] at none
      cases none
    | none =>
      rw [text] at none
      intro lane
      cases lane
      · exact text
      · exact Option.map_eq_none_iff.mp none
  apply List.eq_nil_iff_forall_not_mem.mpr
  intro item member
  rcases mem_held.mp member with ⟨lane, id, buffer, found, inside⟩
  have missed := List.find?_eq_none.mp (Option.map_eq_none_iff.mp (closed lane)) (id, buffer)
    ((OrderedMap.mem_entries_iff _ id buffer).mpr found)
  rw [(orderly.buffers lane id buffer found).opened (Bool.eq_false_iff.mpr missed)] at inside
  cases inside

/-- What one event does to an orderly schedule. -/
structure StepsInTurn (waiting : Waiting) (next : Nat) (event : Event) (effect : Waiting × List Numbered) : Prop where
  orderly : effect.1.Orderly (next + 1)
  sorted : (foreign effect.2).Pairwise Earlier
  passed : ∀ released ∈ foreign effect.2, released.2 ≤ next
  inTurn : (∀ released ∈ foreign effect.2, ∀ kept ∈ effect.1.held,
    Earlier released kept) ↔ waiting.ReleasesInTurn (event, next)

/-- An event that is only put away releases nothing. -/
theorem stepsInTurn_quiet {event : Event} {after : Waiting} (orderly : after.Orderly (next + 1))
    (inTurn : waiting.ReleasesInTurn (event, next)) : StepsInTurn waiting next event (after, []) where
  orderly := orderly
  sorted := .nil
  passed := fun _ impossible => absurd impossible List.not_mem_nil
  inTurn := iff_of_true (fun _ impossible => absurd impossible List.not_mem_nil) inTurn

theorem Orderly.keepState (orderly : waiting.Orderly next) {state : List Numbered} (sound : foreign state = []) :
    ({ waiting with state := state } : Waiting).Orderly (next + 1) where
  buffers := by
    intro lane id buffer found
    refine (orderly.buffers lane id buffer ?_).later (Nat.le_succ next)
    cases lane <;> exact found
  state := sound

theorem Orderly.step (orderly : waiting.Orderly next) (event : Event) :
    StepsInTurn waiting next event (waiting.step (event, next)) := by
  unfold Waiting.step
  cases plays : part event with
  | opening lane id | delta lane id =>
    refine stepsInTurn_quiet (orderly.keep ?_) (by unfold ReleasesInTurn; rw [plays]; trivial)
    exact (orderly.buffer lane id).addStream event (by unfold isForeign; rw [plays])
  | closing lane id =>
    have closed := (orderly.buffer lane id).addStream event (by unfold isForeign; rw [plays])
    have written : foreign (((waiting.lane lane).buffer id).addStream (event, next)).contents =
        ((waiting.lane lane).buffer id).others := by
      unfold Buffer.contents
      rw [foreign_append, closed.stream, closed.others]
      rfl
    constructor
    · exact orderly.erase lane id
    · change (foreign (((waiting.lane lane).buffer id).addStream (event, next)).contents).Pairwise Earlier
      rw [written]
      exact (orderly.buffer lane id).sorted
    · intro released member
      change released ∈ foreign (((waiting.lane lane).buffer id).addStream (event, next)).contents at member
      rw [written] at member
      exact Nat.le_of_lt ((orderly.buffer lane id).earlier released member)
    · unfold ReleasesInTurn
      simp only [plays, written]
  | boundary =>
    have written : foreign (waiting.state ++ [(event, next)]) = [(event, next)] := by
      rw [foreign_append, orderly.state]
      simp [foreign, isForeign, plays]
    constructor
    · exact orderly.keepState rfl
    · change (foreign (waiting.state ++ [(event, next)])).Pairwise Earlier
      rw [written]
      exact List.pairwise_singleton _ _
    · intro released member
      change released ∈ foreign (waiting.state ++ [(event, next)]) at member
      rw [written, List.mem_singleton] at member
      rw [member]
    · unfold ReleasesInTurn
      simp only [plays, written, List.mem_singleton, forall_eq]
      constructor
      · intro ahead
        apply List.eq_nil_iff_forall_not_mem.mpr
        intro kept member
        exact absurd (orderly.held_earlier member) (Nat.lt_asymm (ahead kept member))
      · intro none kept member
        change kept ∈ waiting.held at member
        rw [none] at member
        cases member
  | state =>
    refine stepsInTurn_quiet (orderly.keepState ?_) (by unfold ReleasesInTurn; rw [plays]; trivial)
    rw [foreign_append, orderly.state]
    simp [foreign, isForeign, plays]
  | other =>
    have foreigner : isForeign event = true := by unfold isForeign; rw [plays]
    have inTurn : waiting.ReleasesInTurn (event, next) := by unfold ReleasesInTurn; rw [plays]; trivial
    cases chosen : waiting.host with
    | some place =>
      rcases place with ⟨lane, id⟩
      refine stepsInTurn_quiet (orderly.keep ?_) inTurn
      exact (orderly.buffer lane id).addOther event foreigner (between_of_host chosen)
    | none =>
      have written : foreign [(event, next)] = [(event, next)] := by simp [foreign, foreigner]
      constructor
      · exact orderly.keepState orderly.state
      · change (foreign [(event, next)]).Pairwise Earlier
        rw [written]
        exact List.pairwise_singleton _ _
      · intro released member
        change released ∈ foreign [(event, next)] at member
        rw [written, List.mem_singleton] at member
        rw [member]
      · refine iff_of_true ?_ inTurn
        intro released _ kept member
        change kept ∈ waiting.held at member
        rw [orderly.held_of_no_host chosen] at member
        cases member

end Waiting

/-! ## A whole list -/

/-- The foreign events come out in the order they went in exactly if every
step releases in turn. -/
theorem emissionFrom_sorted_iff {waiting : Waiting} {next : Nat} (orderly : waiting.Orderly next)
    (events : List Event) :
    (foreign (emissionFrom waiting (events.zipIdx next))).Pairwise Earlier ↔
      InTurnFrom waiting (events.zipIdx next) := by
  induction events generalizing waiting next with
  | nil =>
    rw [List.zipIdx_nil]
    change (foreign waiting.contents).Pairwise Earlier ↔ waiting.held.Pairwise Earlier
    rw [orderly.foreign_contents]
  | cons event rest ih =>
    have steps := orderly.step event
    have tail := ih steps.orderly
    rw [List.zipIdx_cons, emissionFrom, InTurnFrom, foreign_append, List.pairwise_append, tail]
    have inside := (emissionFrom_perm (waiting.step (event, next)).1 (rest.zipIdx (next + 1))).filter
      fun item => isForeign item.1
    have members : ∀ item, item ∈ foreign (emissionFrom (waiting.step (event, next)).1 (rest.zipIdx (next + 1))) ↔
        item ∈ (waiting.step (event, next)).1.held ∨ item ∈ foreign (rest.zipIdx (next + 1)) := by
      intro item
      rw [← steps.orderly.foreign_contents, ← List.mem_append, ← foreign_append]
      exact inside.mem_iff
    have crossing : (∀ released ∈ foreign (waiting.step (event, next)).2,
          ∀ kept ∈ foreign (emissionFrom (waiting.step (event, next)).1 (rest.zipIdx (next + 1))),
            Earlier released kept) ↔ waiting.ReleasesInTurn (event, next) := by
      rw [← steps.inTurn]
      constructor
      · intro all released member kept held
        exact all released member kept ((members kept).mpr (Or.inl held))
      · intro all released member kept either
        rcases (members kept).mp either with held | later
        · exact all released member kept held
        · have place := List.le_snd_of_mem_zipIdx (List.mem_filter.mp later).1
          exact Nat.lt_of_lt_of_le (Nat.lt_succ_of_le (steps.passed released member)) place
    rw [crossing]
    exact ⟨fun all => ⟨all.2.2, all.2.1⟩, fun all => ⟨steps.sorted, all.2, all.1⟩⟩

theorem orderly_initial : Waiting.Orderly 0 {} where
  buffers := by
    intro lane id buffer found
    cases lane <;> cases found
  state := rfl

theorem emission_inOrder_iff (events : List Event) :
    foreign (emission events) = foreign events.zipIdx ↔ InTurn events := by
  have sorted : (foreign events.zipIdx).Pairwise Earlier := (zipIdx_increasing events 0).filter _
  rw [InTurn, ← emissionFrom_sorted_iff orderly_initial]
  constructor
  · intro same
    change (foreign (emission events)).Pairwise Earlier
    rw [same]
    exact sorted
  · intro inOrder
    refine List.Perm.eq_of_pairwise ?_ inOrder sorted ((emission_perm events).filter _)
    intro first second _ _ before after
    exact absurd before (Nat.lt_asymm after)

/-! ## The code -/

section Code

variable {Start Delta End : Type} {lane : Lane} {kind : StreamKind Start Delta End}

/-- A buffer of the code holds back what its counterpart in the schedule does. -/
structure Tracks (pending : Pending Start Delta End) (buffer : Buffer) : Prop where
  others : pending.otherEvents = buffer.others.map Prod.fst
  begun : pending.start.isSome = buffer.isBetween
  unended : pending.ended = none

theorem Tracks.isBetween {pending : Pending Start Delta End} {buffer : Buffer} (tracks : Tracks pending buffer) :
    pending.isBetween = buffer.isBetween := by
  unfold Pending.isBetween
  rw [tracks.begun, tracks.unended]
  exact Bool.and_true _

theorem isBetween_addStream (buffer : Buffer) (item : Numbered) :
    (buffer.addStream item).isBetween = (buffer.isBetween || isOpening item.1) := by
  unfold Buffer.isBetween Buffer.addStream
  rw [List.any_append, List.any_cons, List.any_nil, Bool.or_false]

theorem Tracks.addStart {pending : Pending Start Delta End} {buffer : Buffer} (tracks : Tracks pending buffer)
    (plays : PlaysIn lane kind) (event : Start) (place : Nat) :
    Tracks (pending.addStart kind event) (buffer.addStream (kind.ofStart event, place)) := by
  have opens : isOpening (kind.ofStart event) = true := by
    rcases plays.start event with ⟨id, opening⟩
    unfold isOpening
    rw [opening]
  unfold Pending.addStart
  split
  · exact ⟨tracks.others, by rw [isBetween_addStream, opens, Bool.or_true]; rfl, tracks.unended⟩
  · exact ⟨tracks.others, by rw [isBetween_addStream, opens, Bool.or_true]; rfl, tracks.unended⟩

theorem Tracks.addDelta {pending : Pending Start Delta End} {buffer : Buffer} (tracks : Tracks pending buffer)
    (plays : PlaysIn lane kind) (event : Delta) (place : Nat) :
    Tracks (pending.addDelta kind event) (buffer.addStream (kind.ofDelta event, place)) := by
  have continues : isOpening (kind.ofDelta event) = false := by
    rcases plays.delta event with ⟨id, delta⟩
    unfold isOpening
    rw [delta]
  exact ⟨tracks.others, by rw [isBetween_addStream, continues, Bool.or_false]; exact tracks.begun, tracks.unended⟩

theorem Tracks.addOther {pending : Pending Start Delta End} {buffer : Buffer} (tracks : Tracks pending buffer)
    (event : Event) (place : Nat) : Tracks (pending.addOther event) (buffer.addOther (event, place)) where
  others := by
    change pending.otherEvents ++ [event] = (buffer.others ++ [(event, place)]).map Prod.fst
    rw [tracks.others, List.map_append]
    rfl
  begun := tracks.begun
  unended := tracks.unended

theorem filter_foreign (items : List Numbered) :
    (items.map Prod.fst).filter isForeign = (foreign items).map Prod.fst := by
  unfold foreign
  rw [List.filter_map]
  rfl

theorem filter_flush (plays : PlaysIn lane kind) (id : String) (pending : Pending Start Delta End) :
    (pending.flush kind id).filter isForeign = pending.otherEvents.filter isForeign := by
  rcases flush_eq_append plays id pending with ⟨stream, written, streaming⟩
  have own : stream.filter isForeign = [] := by
    apply List.filter_eq_nil_iff.mpr
    intro event member
    rcases streaming event member with ⟨name, part⟩
    unfold isForeign
    rcases part with part | part | part <;>
    · rw [part]
      exact Bool.false_ne_true
  rw [written, List.filter_append, own, List.nil_append]

/-- Two lanes of buffers, the code's and the schedule's. -/
abbrev InLane (pendings : OrderedMap String (Pending Start Delta End)) (buffers : Buffers) : Prop :=
  OrderedMap.Matches (fun _ => Tracks) pendings buffers

variable {pendings : OrderedMap String (Pending Start Delta End)} {buffers : Buffers}

section

variable (inLane : InLane pendings buffers)

include inLane

theorem InLane.current (id : String) : Tracks ((pendings.get? id).getD {}) (buffers.buffer id) := by
  rw [Buffers.buffer]
  rcases OrderedMap.Matches.get? inLane id with ⟨absent, missing⟩ | ⟨pending, buffer, held, found, tracks⟩
  · rw [absent, missing]
    exact ⟨rfl, rfl, rfl⟩
  · rw [held, found]
    exact tracks

theorem InLane.between : firstBetween pendings = buffers.between :=
  OrderedMap.Matches.find? inLane _ _ fun _ _ _ tracks => tracks.isBetween

theorem InLane.withPending (id : String)
    {change : Pending Start Delta End -> Pending Start Delta End} {mirrored : Buffer -> Buffer}
    (tracks : ∀ pending buffer, Tracks pending buffer -> Tracks (change pending) (mirrored buffer)) :
    InLane (withPending pendings id change) (buffers.set id (mirrored (buffers.buffer id))) :=
  OrderedMap.Matches.set inLane (tracks _ _ (inLane.current id))

theorem InLane.filter_flush (plays : PlaysIn lane kind) :
    (pendings.entries.flatMap fun entry => entry.2.flush kind entry.1).filter isForeign =
      (foreign buffers.others).map Prod.fst := by
  rw [← filter_foreign]
  unfold Buffers.others
  rcases pendings with ⟨entries, nodup⟩
  rcases buffers with ⟨others, distinct⟩
  simp only [InLane, OrderedMap.Matches] at inLane ⊢
  clear nodup distinct
  induction inLane with
  | nil => rfl
  | @cons entry other rest later same _ ih =>
    rw [List.flatMap_cons, List.flatMap_cons, List.filter_append, List.map_append, List.filter_append,
      ih, Compact.filter_flush plays, same.2.others]

end

/-- The state of the code and the state of the schedule. -/
structure Accompanies (state : CompactState) (waiting : Waiting) : Prop where
  texts : InLane state.pendingTextMessages waiting.texts
  calls : InLane state.pendingToolCalls waiting.calls

theorem filter_flushState (applyPatch : ApplyPatch) (window : List StateEvent) :
    (flushState applyPatch window).filter isForeign = [] := by
  unfold flushState
  split
  · rfl
  · apply List.filter_eq_nil_iff.mpr
    intro event member
    rcases List.mem_map.mp member with ⟨source, -, rfl⟩
    cases source <;> exact Bool.false_ne_true

/-- What one step writes out, and the states after it, on both sides. -/
structure StepsTogether (code : CompactState × List Event) (schedule : Waiting × List Numbered) : Prop where
  accompanies : Accompanies code.1 schedule.1
  written : code.2.filter isForeign = (foreign schedule.2).map Prod.fst

variable {state : CompactState} {waiting : Waiting}

theorem Accompanies.closing {next : Nat} {buffer : Buffer} (orderly : buffer.Orderly next)
    {pending : Pending Start Delta End} (tracks : Tracks pending buffer) (plays : PlaysIn lane kind) (id : String)
    (ended : End) :
    (Pending.flush kind id { pending with ended := some ended }).filter isForeign =
      (foreign ((buffer.addStream (kind.ofEnd ended, next)).contents)).map Prod.fst := by
  have own : isForeign (kind.ofEnd ended) = false := by
    rcases plays.ended ended with ⟨name, closing⟩
    unfold isForeign
    rw [closing]
  have closed := orderly.addStream (kind.ofEnd ended) own
  unfold Buffer.contents
  rw [filter_flush plays, foreign_append, closed.stream, List.nil_append, ← filter_foreign]
  exact congrArg _ tracks.others

section

variable (accompanies : Accompanies state waiting)

include accompanies

theorem Accompanies.holdOther {event : Event} (plays : part event = .other) (place : Nat) :
    StepsTogether (state.holdOther event) (waiting.step (event, place)) := by
  rw [Waiting.step, plays, CompactState.holdOther, accompanies.texts.between, accompanies.calls.between]
  unfold Waiting.host
  cases text : waiting.texts.between with
  | some id =>
    refine ⟨⟨?_, accompanies.calls⟩, rfl⟩
    exact accompanies.texts.withPending id fun _ _ tracks => tracks.addOther event place
  | none =>
    cases call : waiting.calls.between with
    | some id =>
      refine ⟨⟨accompanies.texts, ?_⟩, rfl⟩
      exact accompanies.calls.withPending id fun _ _ tracks => tracks.addOther event place
    | none => exact ⟨accompanies, filter_foreign [(event, place)]⟩

theorem Accompanies.boundary {next : Nat} (orderly : waiting.Orderly next)
    {event : Event} (applyPatch : ApplyPatch) (plays : part event = .boundary) :
    StepsTogether ({ state with stateEvents := [] }, flushState applyPatch state.stateEvents ++ [event])
      (waiting.step (event, next)) := by
  rw [Waiting.step, plays]
  refine ⟨⟨accompanies.texts, accompanies.calls⟩, ?_⟩
  change (flushState applyPatch state.stateEvents ++ [event]).filter isForeign =
    (foreign (waiting.state ++ [(event, next)])).map Prod.fst
  rw [List.filter_append, filter_flushState, foreign_append, orderly.state]
  exact filter_foreign [(event, next)]

theorem Accompanies.step {next : Nat} (orderly : waiting.Orderly next)
    (applyPatch : ApplyPatch) (event : Event) :
    StepsTogether (state.step applyPatch event) (waiting.step (event, next)) := by
  cases event with
  | textMessageStart e =>
    refine ⟨⟨?_, accompanies.calls⟩, rfl⟩
    exact accompanies.texts.withPending e.messageId fun _ _ tracks => tracks.addStart textMessages_playIn e next
  | textMessageContent e =>
    refine ⟨⟨?_, accompanies.calls⟩, rfl⟩
    exact accompanies.texts.withPending e.messageId fun _ _ tracks => tracks.addDelta textMessages_playIn e next
  | textMessageEnd e =>
    refine ⟨⟨OrderedMap.Matches.erase accompanies.texts e.messageId, accompanies.calls⟩, ?_⟩
    exact Accompanies.closing (orderly.buffer .text e.messageId) (accompanies.texts.current e.messageId)
      textMessages_playIn e.messageId e
  | toolCallStart e =>
    refine ⟨⟨accompanies.texts, ?_⟩, rfl⟩
    exact accompanies.calls.withPending e.toolCallId fun _ _ tracks => tracks.addStart toolCalls_playIn e next
  | toolCallArgs e =>
    refine ⟨⟨accompanies.texts, ?_⟩, rfl⟩
    exact accompanies.calls.withPending e.toolCallId fun _ _ tracks => tracks.addDelta toolCalls_playIn e next
  | toolCallEnd e =>
    refine ⟨⟨accompanies.texts, OrderedMap.Matches.erase accompanies.calls e.toolCallId⟩, ?_⟩
    exact Accompanies.closing (orderly.buffer .call e.toolCallId) (accompanies.calls.current e.toolCallId)
      toolCalls_playIn e.toolCallId e
  | runStarted e | runFinished e | runError e => exact accompanies.boundary orderly applyPatch rfl
  | stateSnapshot e | stateDelta e => exact ⟨⟨accompanies.texts, accompanies.calls⟩, rfl⟩
  | _ => exact accompanies.holdOther rfl next

theorem compactFrom_foreign {next : Nat} (orderly : waiting.Orderly next)
    (applyPatch : ApplyPatch) (events : List Event) : (compactFrom applyPatch state events).filter isForeign =
      (foreign (emissionFrom waiting (events.zipIdx next))).map Prod.fst := by
  induction events generalizing state waiting next with
  | nil =>
    have allForeign : foreign waiting.held = waiting.held := by
      rw [← orderly.foreign_contents]
      exact List.filter_eq_self.mpr fun item member => (List.mem_filter.mp member).2
    rw [List.zipIdx_nil, compactFrom, emissionFrom, orderly.foreign_contents, ← allForeign]
    unfold CompactState.flush flushTextMessage flushToolCall Waiting.held
    rw [List.filter_append, List.filter_append, accompanies.texts.filter_flush textMessages_playIn,
      accompanies.calls.filter_flush toolCalls_playIn, filter_flushState, List.append_nil, ← List.map_append,
      ← foreign_append]
  | cons event rest ih =>
    have together := accompanies.step orderly applyPatch event
    rw [List.zipIdx_cons, compactFrom, emissionFrom, List.filter_append, foreign_append, List.map_append,
      together.written, ih together.accompanies (orderly.step event).orderly]

end

/-- Compaction writes every foreign event out once, and their order is that of
the list exactly if every step of it releases in turn. -/
theorem compactEvents_foreign (applyPatch : ApplyPatch) (events : List Event) :
    ((compactEvents applyPatch events).filter isForeign).Perm (events.filter isForeign) ∧
      (compactEvents applyPatch events).filter isForeign = (foreign (emission events)).map Prod.fst ∧
      (foreign (emission events) = foreign events.zipIdx ↔ InTurn events) ∧
      (InTurn events -> (compactEvents applyPatch events).filter isForeign = events.filter isForeign) := by
  have written : (compactEvents applyPatch events).filter isForeign = (foreign (emission events)).map Prod.fst :=
    compactFrom_foreign ⟨OrderedMap.matches_empty, OrderedMap.matches_empty⟩ orderly_initial applyPatch events
  have original : (foreign events.zipIdx).map Prod.fst = events.filter isForeign := by
    rw [← filter_foreign, List.zipIdx_map_fst]
  refine ⟨?_, written, emission_inOrder_iff events, ?_⟩
  · rw [written, ← original]
    exact ((emission_perm events).filter _).map Prod.fst
  · intro inTurn
    rw [written, (emission_inOrder_iff events).mpr inTurn, original]

end Code

/-- A call inside a text message, with a step around it. -/
def stepInMessage : List Event :=
  [.runStarted { threadId := "t", runId := "r" },
    .textMessageStart { messageId := "m" },
    .stepStarted { stepName := "a" },
    .toolCallStart { toolCallId := "c", toolCallName := "f", parentMessageId := some "m" },
    .stepFinished { stepName := "a" },
    .toolCallEnd { toolCallId := "c" },
    .textMessageEnd { messageId := "m" },
    .runFinished { threadId := "t", runId := "r" }]

/-- A step within a message. -/
theorem compactEvents_foreign_stepInMessage :
    (compactEvents (fun _ _ => none) stepInMessage).filter isForeign = stepInMessage.filter isForeign := by
  apply (compactEvents_foreign (fun _ _ => none) stepInMessage).2.2.2
  apply (compactEvents_foreign (fun _ _ => none) stepInMessage).2.2.1.mp
  rfl

/-- A step that an open message holds when the run fails. -/
def stepOverError : List Event :=
  [.runStarted { threadId := "t", runId := "r" },
    .textMessageStart { messageId := "m" },
    .stepStarted { stepName := "a" },
    .runError { message := "failed" }]

/-- The end of a step waits for a shorter stream than its beginning. -/
def stepTurnedRound : List Event :=
  [.runStarted { threadId := "t", runId := "r" },
    .toolCallStart { toolCallId := "c", toolCallName := "f" },
    .stepStarted { stepName := "a" },
    .textMessageStart { messageId := "m" },
    .stepFinished { stepName := "a" },
    .textMessageEnd { messageId := "m" },
    .toolCallEnd { toolCallId := "c" },
    .runFinished { threadId := "t", runId := "r" }]

/-- Two streams that overlap without nesting turn two events round, and a run
event passes what is held. -/
theorem compactEvents_turnsRound :
    (Verify.accepted stepTurnedRound = true ∧
      (compactEvents (fun _ _ => none) stepTurnedRound).filter isForeign ≠ stepTurnedRound.filter isForeign) ∧
    Verify.accepted stepOverError = true ∧
      (compactEvents (fun _ _ => none) stepOverError).filter isForeign ≠ stepOverError.filter isForeign := by
  have typesDiffer : ∀ events : List Event,
      ((compactEvents (fun _ _ => none) events).filter isForeign).map Event.type ≠
        (events.filter isForeign).map Event.type ->
      (compactEvents (fun _ _ => none) events).filter isForeign ≠ events.filter isForeign :=
    fun _ different same => different (congrArg _ same)
  exact ⟨⟨by decide, typesDiffer _ (by decide)⟩, by decide, typesDiffer _ (by decide)⟩

end Compact
end AgUi
