import AgUi.Compact.Compaction
import AgUi.Verify.Refinement

namespace AgUi
namespace Compact

open Library Protocol Apply

/-!
# The order compaction puts events in

Compaction does two things at once: it changes the order of the events, and
it merges neighbours.  Here the two are taken apart.  `emission` numbers the
events of a stream and moves them about exactly as `compactEvents` does, but
merges nothing.  It emits every event once, and on an accepted stream that
holds nothing back over a run event the compacted stream is the emission with
some neighbours merged.
-/

/-! ## Where an event waits -/

/-- The two kinds of streams that are merged, kept apart from each other. -/
inductive Lane where
  | text
  | call
deriving DecidableEq

/-- The part an event plays in compaction. -/
inductive Part where
  | opening (lane : Lane) (id : String)
  | delta (lane : Lane) (id : String)
  | closing (lane : Lane) (id : String)
  | boundary
  | state
  | other

/-- The part an event has in the compaction. -/
def part : Event -> Part
  | .textMessageStart e => .opening .text e.messageId
  | .textMessageContent e => .delta .text e.messageId
  | .textMessageEnd e => .closing .text e.messageId
  | .toolCallStart e => .opening .call e.toolCallId
  | .toolCallArgs e => .delta .call e.toolCallId
  | .toolCallEnd e => .closing .call e.toolCallId
  | .runStarted _ => .boundary
  | .runFinished _ => .boundary
  | .runError _ => .boundary
  | .stateSnapshot _ => .state
  | .stateDelta _ => .state
  | _ => .other

def isOpening (event : Event) : Bool :=
  match part event with
  | .opening _ _ => true
  | _ => false

/-- The events a kind of stream is made of play their parts in one lane. -/
structure PlaysIn {Start Delta End : Type} (lane : Lane) (kind : StreamKind Start Delta End) : Prop where
  start : ∀ event, ∃ id, part (kind.ofStart event) = .opening lane id
  delta : ∀ event, ∃ id, part (kind.ofDelta event) = .delta lane id
  ended : ∀ event, ∃ id, part (kind.ofEnd event) = .closing lane id

theorem textMessages_playIn : PlaysIn .text textMessages where
  start event := ⟨event.messageId, rfl⟩
  delta event := ⟨event.messageId, rfl⟩
  ended event := ⟨event.messageId, rfl⟩

theorem toolCalls_playIn : PlaysIn .call toolCalls where
  start event := ⟨event.toolCallId, rfl⟩
  delta event := ⟨event.toolCallId, rfl⟩
  ended event := ⟨event.toolCallId, rfl⟩

/-- What a buffer is written out as: events of its own stream, then the others. -/
theorem flush_eq_append {Start Delta End : Type} {lane : Lane} {kind : StreamKind Start Delta End}
    (plays : PlaysIn lane kind) (id : String) (pending : Pending Start Delta End) :
    ∃ stream : List Event, pending.flush kind id = stream ++ pending.otherEvents ∧
      ∀ event ∈ stream, ∃ name,
        part event = .opening lane name ∨ part event = .delta lane name ∨ part event = .closing lane name := by
  refine ⟨_, rfl, ?_⟩
  intro event member
  simp only [List.mem_append, List.mem_map] at member
  rcases member with (⟨start, -, rfl⟩ | ⟨delta, -, rfl⟩) | ⟨ended, -, rfl⟩
  · rcases plays.start start with ⟨name, opening⟩
    exact ⟨name, Or.inl opening⟩
  · rcases plays.delta delta with ⟨name, continuing⟩
    exact ⟨name, Or.inr (Or.inl continuing)⟩
  · rcases plays.ended ended with ⟨name, closing⟩
    exact ⟨name, Or.inr (Or.inr closing)⟩

/-- An event and its place in the stream it came from. -/
abbrev Numbered := Event × Nat

/-- What waits for the end of one stream. -/
structure Buffer where
  stream : List Numbered := []
  others : List Numbered := []

namespace Buffer

def contents (buffer : Buffer) : List Numbered :=
  buffer.stream ++ buffer.others

def addStream (buffer : Buffer) (item : Numbered) : Buffer :=
  { buffer with stream := buffer.stream ++ [item] }

def addOther (buffer : Buffer) (item : Numbered) : Buffer :=
  { buffer with others := buffer.others ++ [item] }

/-- A start has been seen. -/
def isBetween (buffer : Buffer) : Bool :=
  buffer.stream.any fun item => isOpening item.1

end Buffer

abbrev Buffers := OrderedMap String Buffer

namespace Buffers

/-- The buffer of an id, which is a new one if there is none. -/
def buffer (buffers : Buffers) (id : String) : Buffer :=
  (buffers.get? id).getD {}

/-- The stream that takes in what is no part of a stream, if one is open. -/
def between (buffers : Buffers) : Option String :=
  (buffers.entries.find? fun entry => entry.2.isBetween).map Prod.fst

def contents (buffers : Buffers) : List Numbered :=
  buffers.entries.flatMap fun entry => entry.2.contents

end Buffers

/-- What has arrived and is not written yet, by place and not by content. -/
structure Waiting where
  texts : Buffers := OrderedMap.empty
  calls : Buffers := OrderedMap.empty
  state : List Numbered := []

namespace Waiting

def lane (waiting : Waiting) : Lane -> Buffers
  | .text => waiting.texts
  | .call => waiting.calls

def withLane (waiting : Waiting) (lane : Lane) (buffers : Buffers) : Waiting :=
  match lane with
  | .text => { waiting with texts := buffers }
  | .call => { waiting with calls := buffers }

/-- The stream an event in between waits for: a text message if one is open,
else a tool call. -/
def host (waiting : Waiting) : Option (Lane × String) :=
  match waiting.texts.between with
  | some id => some (.text, id)
  | none => waiting.calls.between.map fun id => (.call, id)

def keep (waiting : Waiting) (lane : Lane) (id : String) (change : Buffer -> Buffer) : Waiting :=
  waiting.withLane lane ((waiting.lane lane).set id (change ((waiting.lane lane).buffer id)))

/-- One event: what waits after it, and what is emitted. -/
def step (waiting : Waiting) (item : Numbered) : Waiting × List Numbered :=
  match part item.1 with
  | .opening lane id => (waiting.keep lane id fun buffer => buffer.addStream item, [])
  | .delta lane id => (waiting.keep lane id fun buffer => buffer.addStream item, [])
  | .closing lane id =>
    (waiting.withLane lane ((waiting.lane lane).erase id),
      (((waiting.lane lane).buffer id).addStream item).contents)
  | .boundary => ({ waiting with state := [] }, waiting.state ++ [item])
  | .state => ({ waiting with state := waiting.state ++ [item] }, [])
  | .other =>
    match waiting.host with
    | some (lane, id) => (waiting.keep lane id fun buffer => buffer.addOther item, [])
    | none => (waiting, [item])

def contents (waiting : Waiting) : List Numbered :=
  waiting.texts.contents ++ waiting.calls.contents ++ waiting.state

end Waiting

/-- The places of a history in the order they are written. -/
def emissionFrom (waiting : Waiting) : List Numbered -> List Numbered
  | [] => waiting.contents
  | item :: rest => (waiting.step item).2 ++ emissionFrom (waiting.step item).1 rest

/-- The events of a stream in the order compaction writes them out. -/
def emission (events : List Event) : List Numbered :=
  emissionFrom {} events.zipIdx

/-! ## Nothing is lost -/

namespace Buffers

theorem contents_set_perm (buffers : Buffers) (id : String) (buffer : Buffer) :
    (contents (buffers.set id buffer)).Perm (buffer.contents ++ contents (buffers.erase id)) :=
  OrderedMap.flatMap_entries_set_perm (fun entry => Buffer.contents entry.2) buffers id buffer

theorem contents_perm (buffers : Buffers) (id : String) :
    (contents buffers).Perm ((buffers.buffer id).contents ++ contents (buffers.erase id)) := by
  unfold buffer
  cases found : buffers.get? id with
  | none => rw [OrderedMap.erase_of_absent _ found]; exact List.Perm.refl _
  | some present =>
    exact OrderedMap.flatMap_entries_perm (fun entry => Buffer.contents entry.2) buffers found

/-- A buffer that takes one more event holds one more event. -/
theorem contents_keep_perm (buffers : Buffers) (id : String) (item : Numbered) (change : Buffer -> Buffer)
    (adds : (change (buffers.buffer id)).contents.Perm (item :: (buffers.buffer id).contents)) :
    (contents (buffers.set id (change (buffers.buffer id)))).Perm (item :: contents buffers) :=
  calc
    (contents (buffers.set id (change (buffers.buffer id)))).Perm
        ((change (buffers.buffer id)).contents ++ contents (buffers.erase id)) :=
      contents_set_perm _ _ _
    List.Perm _ ((item :: (buffers.buffer id).contents) ++ contents (buffers.erase id)) :=
      adds.append_right _
    List.Perm _ (item :: contents buffers) := ((contents_perm buffers id).symm).cons item

end Buffers

theorem Buffer.addStream_perm (buffer : Buffer) (item : Numbered) :
    (buffer.addStream item).contents.Perm (item :: buffer.contents) := by
  simp only [addStream, contents, List.append_assoc, List.singleton_append]
  exact List.perm_middle

theorem Buffer.addOther_perm (buffer : Buffer) (item : Numbered) :
    (buffer.addOther item).contents.Perm (item :: buffer.contents) := by
  simp only [addOther, contents, ← List.append_assoc]
  exact List.perm_append_singleton item _

namespace Waiting

theorem contents_withLane_perm (waiting : Waiting) (lane : Lane) (buffers : Buffers) (emitted : List Numbered)
    (item : Numbered) (kept : (emitted ++ buffers.contents).Perm (item :: (waiting.lane lane).contents)) :
    (emitted ++ (waiting.withLane lane buffers).contents).Perm (item :: waiting.contents) := by
  cases lane with
  | text =>
    simp only [withLane, contents, lane, ← List.append_assoc, ← List.cons_append] at kept ⊢
    exact (kept.append_right _).append_right _
  | call =>
    simp only [withLane, contents, lane] at kept ⊢
    calc
      (emitted ++ (waiting.texts.contents ++ buffers.contents ++ waiting.state)).Perm
          (waiting.texts.contents ++ (emitted ++ buffers.contents) ++ waiting.state) := by
        simp only [← List.append_assoc]
        exact ((List.perm_append_comm.append_right _).append_right _)
      List.Perm _ (waiting.texts.contents ++ (item :: waiting.calls.contents) ++ waiting.state) :=
        (kept.append_left _).append_right _
      List.Perm _ (item :: (waiting.texts.contents ++ waiting.calls.contents ++ waiting.state)) := by
        rw [List.append_assoc, List.append_assoc]
        exact List.perm_middle

theorem keep_perm (waiting : Waiting) (lane : Lane) (id : String) (item : Numbered)
    (change : Buffer -> Buffer)
    (adds : ∀ buffer : Buffer, (change buffer).contents.Perm (item :: buffer.contents)) :
    (waiting.keep lane id change).contents.Perm (item :: waiting.contents) :=
  contents_withLane_perm waiting lane _ [] item
    (Buffers.contents_keep_perm (waiting.lane lane) id item change (adds _))

theorem step_perm (waiting : Waiting) (item : Numbered) :
    ((waiting.step item).2 ++ (waiting.step item).1.contents).Perm (item :: waiting.contents) := by
  unfold step
  split
  · exact waiting.keep_perm _ _ item _ fun buffer => buffer.addStream_perm item
  · exact waiting.keep_perm _ _ item _ fun buffer => buffer.addStream_perm item
  · rename_i lane id _
    refine contents_withLane_perm waiting lane _ _ item ?_
    exact ((Buffer.addStream_perm _ item).append_right _).trans
      ((Buffers.contents_perm (waiting.lane lane) id).symm.cons item)
  · simp only [contents, List.append_nil]
    rw [List.append_assoc, List.singleton_append]
    exact List.perm_middle.trans (List.perm_append_comm.cons item)
  · simp only [contents, List.nil_append, ← List.append_assoc]
    exact List.perm_append_singleton item _
  · split
    · exact waiting.keep_perm _ _ item _ fun buffer => buffer.addOther_perm item
    · exact List.Perm.refl _

end Waiting

theorem emissionFrom_perm (waiting : Waiting) (items : List Numbered) :
    (emissionFrom waiting items).Perm (waiting.contents ++ items) := by
  induction items generalizing waiting with
  | nil => rw [List.append_nil]; exact List.Perm.refl _
  | cons item rest ih =>
    calc
      ((waiting.step item).2 ++ emissionFrom (waiting.step item).1 rest).Perm
          ((waiting.step item).2 ++ ((waiting.step item).1.contents ++ rest)) :=
        (ih _).append_left _
      List.Perm _ ((item :: waiting.contents) ++ rest) := by
        rw [← List.append_assoc]
        exact (waiting.step_perm item).append_right rest
      List.Perm _ (waiting.contents ++ item :: rest) := List.perm_middle.symm

/-- Compaction emits every event once. -/
theorem emission_perm (events : List Event) : (emission events).Perm events.zipIdx :=
  emissionFrom_perm {} events.zipIdx

theorem zipIdx_increasing (events : List Event) (start : Nat) :
    (events.zipIdx start).Pairwise fun first second => first.2 < second.2 := by
  induction events generalizing start with
  | nil => exact .nil
  | cons event rest ih =>
    rw [List.zipIdx_cons, List.pairwise_cons]
    refine ⟨?_, ih (start + 1)⟩
    rintro ⟨later, place⟩ member
    exact (List.mem_zipIdx member).1

end Compact
end AgUi
