import AgUi.Chunks.Judging
import AgUi.Middleware.EventThrottle

namespace AgUi
namespace Middleware

open Library Protocol Chunks

/-!
# Coalesced chunks

Every event the throttle emits stands for a run of events of its source: one
that keeps its fields, and the chunks that were coalesced into it.  What those
said beyond a delta and metadata is lost.  The expansion still gives its
verdict on the source, event for event, exactly where they said nothing their
stream had not established.
-/

/-! ## Runs -/

/-- Chunks with one key, which they have. -/
def SameKey (head chunk : Event) : Prop :=
  (chunkKey head).isSome = true ∧ chunkKey chunk = chunkKey head

instance (head chunk : Event) : Decidable (SameKey head chunk) :=
  inferInstanceAs (Decidable (_ ∧ _))

structure Run where
  head : Event
  coalesced : List Event
  same : ∀ chunk ∈ coalesced, SameKey head chunk

namespace Run

def chunks (run : Run) : List Event :=
  run.head :: run.coalesced

/-- The event that is emitted for a run. -/
def event (run : Run) : Event :=
  run.coalesced.foldl mergeChunk run.head

def alone (event : Event) : Run where
  head := event
  coalesced := []
  same := fun _ impossible => absurd impossible List.not_mem_nil

def extend (run : Run) (event : Event) (same : SameKey run.head event) : Run where
  head := run.head
  coalesced := run.coalesced ++ [event]
  same := by
    intro chunk member
    rcases List.mem_append.mp member with before | added
    · exact run.same chunk before
    · rw [List.mem_singleton.mp added]
      exact same

theorem event_extend (run : Run) (event : Event) (same : SameKey run.head event) :
    (run.extend event same).event = mergeChunk run.event event :=
  List.foldl_append

end Run

theorem chunkKey_mergeChunk (last event : Event) : chunkKey (mergeChunk last event) = chunkKey last := by
  cases last <;> rfl

/-- What merging keeps of a chunk is kept through a whole run. -/
theorem Run.kept {A : Type} (read : Event -> A) (kept : ∀ last event, read (mergeChunk last event) = read last)
    (run : Run) : read run.event = read run.head := by
  have merged : ∀ (chunks : List Event) (head : Event), read (chunks.foldl mergeChunk head) = read head := by
    intro chunks
    induction chunks with
    | nil => exact fun _ => rfl
    | cons chunk chunks ih =>
      intro head
      rw [List.foldl_cons, ih, kept]
  exact merged run.coalesced run.head

/-- The next event of a batch continues the last run or begins its own. -/
def addToRuns (runs : List Run) (event : Event) : List Run :=
  match runs.getLast? with
  | none => runs ++ [Run.alone event]
  | some last =>
    if same : SameKey last.head event then runs.dropLast ++ [last.extend event same] else runs ++ [Run.alone event]

/-- The batch, cut where the key changes. -/
def runsOf (batch : List Event) : List Run :=
  batch.foldl addToRuns []

theorem coalesceNext_concat (earlier : List Event) (last event : Event) :
    coalesceNext (earlier ++ [last]) event =
      if SameKey last event then earlier ++ [mergeChunk last event] else earlier ++ [last] ++ [event] := by
  unfold coalesceNext
  rw [List.getLast?_concat, List.dropLast_concat]
  by_cases same : SameKey last event
  · rcases Option.isSome_iff_exists.mp same.1 with ⟨key, lastKey⟩
    rw [if_pos same, same.2, lastKey]
    exact if_pos lastKey
  · rw [if_neg same]
    split
    · rename_i key other eventKey ends
      cases ends
      rw [if_neg]
      intro lastKey
      refine same ⟨?_, eventKey.trans lastKey.symm⟩
      rw [lastKey]
      rfl
    · rfl

/-- The runs of a batch are its events, and are emitted as the code coalesces them. -/
theorem addToRuns_spec (runs : List Run) (event : Event) :
    (addToRuns runs event).map Run.event = coalesceNext (runs.map Run.event) event ∧
      (addToRuns runs event).flatMap Run.chunks = runs.flatMap Run.chunks ++ [event] := by
  unfold addToRuns
  rcases List.eq_nil_or_concat runs with rfl | ⟨earlier, last, same⟩
  · refine ⟨?_, rfl⟩
    unfold coalesceNext
    cases chunkKey event <;> rfl
  · rw [List.concat_eq_append] at same
    subst same
    rw [List.getLast?_concat, List.map_append, List.map_singleton, coalesceNext_concat]
    have sameAsHead : SameKey last.event event ↔ SameKey last.head event := by
      unfold SameKey
      rw [last.kept chunkKey chunkKey_mergeChunk]
    dsimp only
    by_cases same : SameKey last.head event
    · rw [dif_pos same, if_pos (sameAsHead.mpr same), List.dropLast_concat, List.map_append, List.flatMap_append,
        List.flatMap_append, List.append_assoc, List.map_singleton, Run.event_extend, List.flatMap_singleton,
        List.flatMap_singleton]
      exact ⟨rfl, rfl⟩
    · rw [dif_neg same, if_neg (sameAsHead.not.mpr same), List.map_append, List.flatMap_append, List.map_append]
      exact ⟨rfl, rfl⟩

theorem runsOf_spec (batch : List Event) :
    (runsOf batch).map Run.event = coalesce batch ∧ (runsOf batch).flatMap Run.chunks = batch := by
  have all : ∀ runs : List Run,
      (batch.foldl addToRuns runs).map Run.event = batch.foldl coalesceNext (runs.map Run.event) ∧
        (batch.foldl addToRuns runs).flatMap Run.chunks = runs.flatMap Run.chunks ++ batch := by
    induction batch with
    | nil => exact fun runs => ⟨rfl, (List.append_nil _).symm⟩
    | cons event batch ih =>
      intro runs
      rcases addToRuns_spec runs event with ⟨emitted, held⟩
      rcases ih (addToRuns runs event) with ⟨later, laterHeld⟩
      rw [List.foldl_cons, later, laterHeld, emitted, held, List.append_assoc]
      exact ⟨rfl, rfl⟩
  exact all []

/-! ## Deliveries -/

theorem alone_spec (events : List Event) :
    (events.map Run.alone).map Run.event = events ∧ (events.map Run.alone).flatMap Run.chunks = events := by
  induction events with
  | nil => exact ⟨rfl, rfl⟩
  | cons event events ih =>
    rw [List.map_cons, List.map_cons, List.flatMap_cons, ih.1, ih.2]
    exact ⟨rfl, rfl⟩

def Delivery.runs (delivery : Delivery) : List Run :=
  runsOf delivery.batch ++ delivery.immediate.map Run.alone

theorem Delivery.runs_spec (delivery : Delivery) :
    delivery.runs.map Run.event = delivery.events ∧
      delivery.runs.flatMap Run.chunks = delivery.batch ++ delivery.immediate := by
  rcases runsOf_spec delivery.batch with ⟨emitted, held⟩
  rcases alone_spec delivery.immediate with ⟨passed, passedHeld⟩
  unfold Delivery.runs Delivery.events
  rw [List.map_append, List.flatMap_append, emitted, held, passed, passedHeld]
  exact ⟨rfl, rfl⟩

theorem Throttle.flush_spec (throttle : Throttle) (now : Rat) :
    (throttle.flush now).2.batch = throttle.buffer ∧ (throttle.flush now).2.immediate = [] ∧
      (throttle.flush now).1.buffer = [] := by
  unfold Throttle.flush
  split
  · rename_i empty
    exact ⟨(List.isEmpty_iff.mp empty).symm, rfl, List.isEmpty_iff.mp empty⟩
  · exact ⟨rfl, rfl, rfl⟩

namespace EventThrottleMiddleware

variable (middleware : EventThrottleMiddleware)

theorem buffer_track (throttle : Throttle) (event : Event) :
    (middleware.track throttle event).buffer = throttle.buffer := by
  unfold track
  split
  · split <;> rfl
  · rfl

theorem buffer_scheduleTrailing (throttle : Throttle) (now : Rat) :
    (middleware.scheduleTrailing throttle now).buffer = throttle.buffer := by
  unfold scheduleTrailing
  split <;> rfl

/-- What was held back and what arrives is delivered or held back, in this order. -/
theorem occur_spec (throttle : Throttle) (occurrence : Occurrence) :
    (middleware.occur throttle occurrence).2.batch ++ (middleware.occur throttle occurrence).2.immediate ++
        (middleware.occur throttle occurrence).1.buffer =
      throttle.buffer ++ arrivals [occurrence] := by
  cases occurrence with
  | next event now =>
    change (middleware.next throttle event now).2.batch ++ (middleware.next throttle event now).2.immediate ++
      (middleware.next throttle event now).1.buffer = throttle.buffer ++ [event]
    unfold next
    split
    · dsimp only
      split
      · rcases Throttle.flush_spec (middleware.track { throttle with buffer := throttle.buffer ++ [event] } event) now
          with ⟨batch, immediate, buffer⟩
        rw [batch, immediate, buffer, buffer_track, List.append_nil, List.append_nil]
      · rw [buffer_scheduleTrailing, buffer_track]
        rfl
    · rcases throttle.flush_spec now with ⟨batch, immediate, buffer⟩
      dsimp only
      rw [batch, buffer, List.append_nil]
  | timer now =>
    change (if throttle.timer.isSome then throttle.flush now else (throttle, {})).2.batch ++
      (if throttle.timer.isSome then throttle.flush now else (throttle, {})).2.immediate ++
      (if throttle.timer.isSome then throttle.flush now else (throttle, {})).1.buffer = throttle.buffer ++ []
    split
    · rcases throttle.flush_spec now with ⟨batch, immediate, buffer⟩
      rw [batch, immediate, buffer, List.append_nil]
    · exact (List.append_nil _).symm

theorem deliveries_spec (completed : Rat) (throttle : Throttle) (schedule : List Occurrence) :
    ((middleware.deliveries completed throttle schedule).flatMap fun delivery =>
        delivery.batch ++ delivery.immediate) = throttle.buffer ++ arrivals schedule := by
  induction schedule generalizing throttle with
  | nil =>
    rcases throttle.flush_spec completed with ⟨batch, immediate, _⟩
    rw [deliveries, List.flatMap_singleton, batch, immediate]
    rfl
  | cons occurrence rest ih =>
    have arrived : arrivals (occurrence :: rest) = arrivals [occurrence] ++ arrivals rest := by
      unfold arrivals
      rw [← List.filterMap_append]
      rfl
    rw [deliveries, List.flatMap_cons, ih, arrived, ← List.append_assoc, occur_spec,
      List.append_assoc]

/-- The runs of the source that are emitted as one event each. -/
def runs (schedule : List Occurrence) (completed : Rat) : List Run :=
  if middleware.isNoop then (arrivals schedule).map Run.alone
  else (middleware.deliveries completed {} schedule).flatMap Delivery.runs

theorem runs_spec (schedule : List Occurrence) (completed : Rat) :
    (middleware.runs schedule completed).map Run.event = middleware.run schedule completed ∧
      (middleware.runs schedule completed).flatMap Run.chunks = arrivals schedule := by
  unfold runs run
  split
  · exact alone_spec _
  · rw [List.map_flatMap, List.flatMap_assoc]
    constructor
    · exact List.flatMap_congr fun delivery _ => delivery.runs_spec.1
    · have held := List.flatMap_congr (l := middleware.deliveries completed {} schedule)
        fun delivery _ => delivery.runs_spec.2
      exact held.trans (middleware.deliveries_spec completed {} schedule)

end EventThrottleMiddleware

/-! ## What a coalesced chunk says -/

inductive Payload where
  | rawEvent (value : Json)
  | role (value : TextMessageRole)
  | name (value : String)
  | toolCallName (value : String)
  | parentMessageId (value : String)

/-- What a chunk carries beside its delta, its metadata and what it is coalesced by. -/
def payloads (event : Event) : List Payload :=
  (event.rawEvent.map Payload.rawEvent).toList ++
    match event with
    | .textMessageChunk chunk => (chunk.role.map Payload.role).toList ++ (chunk.name.map Payload.name).toList
    | .toolCallChunk chunk =>
      (chunk.toolCallName.map Payload.toolCallName).toList ++
        (chunk.parentMessageId.map Payload.parentMessageId).toList
    | _ => []

theorem payloads_mergeChunk (last event : Event) : payloads (mergeChunk last event) = payloads last := by
  cases last <;> rfl

theorem judgeLanes_mergeChunk (lanes : OrderedMap Lane PendingStream) (last event : Event) :
    judgeLanes lanes (mergeChunk last event) = judgeLanes lanes last := by
  cases last with
  | textMessageChunk chunk | toolCallChunk chunk | reasoningMessageChunk chunk =>
    refine judgeLanes_of_sameStream rfl rfl ?_ lanes
    constructor <;> rfl
  | _ => rfl

/-- The arm of a chunk that has a key. -/
theorem arm_of_key {event : Event} {key : ChunkKey} (keyed : chunkKey event = some key) :
    ∃ arm, chunkArm? event = some arm ∧ arm.kind = key.kind ∧ arm.entityId = some key.entityId ∧
      arm.event.subagentRunId.toOption = key.owner := by
  have named : ∀ {kind : PendingKind} {owner : Tag} {entityId : Option String}, keyOf kind owner entityId = some key ->
      kind = key.kind ∧ entityId = some key.entityId ∧ owner.toOption = key.owner := by
    intro kind owner entityId found
    cases entityId with
    | none => cases found
    | some entityId =>
      dsimp only [keyOf] at found
      split at found
      · cases found
      · cases found
        exact ⟨rfl, rfl, rfl⟩
  cases event with
  | textMessageChunk chunk => exact ⟨textChunkArm chunk, rfl, named keyed⟩
  | toolCallChunk chunk => exact ⟨toolChunkArm chunk, rfl, named keyed⟩
  | reasoningMessageChunk chunk => exact ⟨reasoningChunkArm chunk, rfl, named keyed⟩
  | _ => cases keyed

/-- The chunk repeats nothing of its stream with another value than the stream's. -/
def Repeats (lanes : OrderedMap Lane PendingStream) (chunk : Event) : Prop :=
  ∀ key arm pending, chunkKey chunk = some key -> chunkArm? chunk = some arm ->
    streamUnder lanes key.kind key.entityId = some pending -> arm.disagreement pending = none

/-- A coalesced chunk is accepted exactly where it only repeats, and leaves the streams as they are. -/
theorem judgeLanes_coalesced {lanes after : OrderedMap Lane PendingStream} {head chunk : Event}
    (same : SameKey head chunk) (accepted : judgeLanes lanes head = .ok after) :
    (Repeats after chunk ∧ judgeLanes after chunk = .ok after) ∨
      (¬ Repeats after chunk ∧ ∃ error, judgeLanes after chunk = .error error) := by
  rcases Option.isSome_iff_exists.mp same.1 with ⟨key, headKey⟩
  have keyed := same.2.trans headKey
  rcases arm_of_key headKey with ⟨first, firstArm, firstKind, firstId, firstOwner⟩
  rcases arm_of_key keyed with ⟨second, secondArm, secondKind, secondId, secondOwner⟩
  have judgedHead : judgeChunk lanes first = .ok after := by
    rw [judgeLanes, firstArm] at accepted
    exact accepted
  rcases judgeChunk_again firstId judgedHead (secondKind.trans firstKind.symm) secondId
    (secondOwner.trans firstOwner.symm) with ⟨pending, held, judged⟩
  rw [firstKind] at held
  have verdict : judgeLanes after chunk = judgeRepeat after second pending := by
    rw [judgeLanes, secondArm]
    exact judged
  rw [verdict]
  unfold judgeRepeat
  cases disagreement : second.disagreement pending with
  | none =>
    refine Or.inl ⟨?_, rfl⟩
    intro other arm stream otherKey otherArm found
    rw [keyed] at otherKey
    cases otherKey
    rw [secondArm] at otherArm
    cases otherArm
    rw [held] at found
    cases found
    exact disagreement
  | some error =>
    refine Or.inr ⟨fun repeats => ?_, error, rfl⟩
    have none := repeats key second pending keyed secondArm held
    rw [disagreement] at none
    cases none

/-- The coalesced chunks of a run are accepted exactly where they all only repeat. -/
theorem foldlM_coalesced {lanes after : OrderedMap Lane PendingStream} (run : Run)
    (accepted : judgeLanes lanes run.head = .ok after) :
    ((∀ chunk ∈ run.coalesced, Repeats after chunk) ∧
        run.coalesced.foldlM judgeLanes after = .ok after) ∨
      ((∃ chunk ∈ run.coalesced, ¬ Repeats after chunk) ∧
        ∃ error, run.coalesced.foldlM judgeLanes after = .error error) := by
  have all := run.same
  generalize run.coalesced = chunks at all ⊢
  induction chunks with
  | nil => exact Or.inl ⟨fun _ impossible => absurd impossible List.not_mem_nil, rfl⟩
  | cons chunk chunks ih =>
    rw [List.foldlM_cons]
    rcases judgeLanes_coalesced (all chunk List.mem_cons_self) accepted with ⟨repeats, judged⟩ |
      ⟨differs, error, judged⟩
    · rw [judged]
      rcases ih (List.forall_mem_cons.mp all).2 with
        ⟨others, ended⟩ | ⟨⟨other, member, differs⟩, refused⟩
      · refine Or.inl ⟨?_, ended⟩
        intro other member
        rcases List.mem_cons.mp member with rfl | later
        · exact repeats
        · exact others other later
      · exact Or.inr ⟨⟨other, List.mem_cons_of_mem _ member, differs⟩, refused⟩
    · rw [judged]
      exact Or.inr ⟨⟨chunk, List.mem_cons_self, differs⟩, error, rfl⟩

/-! ## The verdict -/

/-- Along the source, every coalesced chunk only repeats what its stream has established by then. -/
def RepeatsEstablished : OrderedMap Lane PendingStream -> List Run -> Prop
  | _, [] => True
  | lanes, run :: rest =>
    ∀ after, judgeLanes lanes run.head = .ok after ->
      (∀ chunk ∈ run.coalesced, Repeats after chunk) ∧ RepeatsEstablished after rest

/-- The source and what is emitted for it are refused in the same run, for the same reason, exactly where coalesced
chunks only repeat. -/
theorem refusal_eq_iff (lanes : OrderedMap Lane PendingStream) (runs : List Run) :
    Stage.refusalBy judgeLanes lanes (runs.map Run.chunks) =
        Stage.refusalBy judgeLanes lanes (runs.map fun run => [run.event]) ↔ RepeatsEstablished lanes runs := by
  induction runs generalizing lanes with
  | nil => exact ⟨fun _ => trivial, fun _ => rfl⟩
  | cons run rest ih =>
    have emitted : judgeLanes lanes run.event = judgeLanes lanes run.head :=
      run.kept (judgeLanes lanes) (judgeLanes_mergeChunk lanes)
    have single : [run.event].foldlM judgeLanes lanes = judgeLanes lanes run.head := by
      rw [List.foldlM_cons, emitted]
      cases judgeLanes lanes run.head <;> rfl
    rw [List.map_cons, List.map_cons, RepeatsEstablished]
    cases accepted : judgeLanes lanes run.head with
    | error error =>
      have refused : run.chunks.foldlM judgeLanes lanes = .error error := by
        rw [Run.chunks, List.foldlM_cons, accepted]
        rfl
      rw [Stage.refusalBy_of_error refused, Stage.refusalBy_of_error (single.trans accepted)]
      refine ⟨fun _ after impossible => ?_, fun _ => rfl⟩
      cases impossible
    | ok after =>
      have whole : run.chunks.foldlM judgeLanes lanes = run.coalesced.foldlM judgeLanes after := by
        rw [Run.chunks, List.foldlM_cons, accepted]
        rfl
      rcases foldlM_coalesced run accepted with ⟨repeats, passed⟩ | ⟨⟨chunk, member, differs⟩, error, refused⟩
      · rw [Stage.refusalBy_eq_iff_of_ok (whole.trans passed) (single.trans accepted), ih]
        constructor
        · intro holds next same
          cases same
          exact ⟨repeats, holds⟩
        · exact fun holds => (holds after rfl).2
      · constructor
        · intro same
          exact absurd same (Stage.refusalBy_ne_of_ok (whole.trans refused) (single.trans accepted))
        · intro holds
          exact absurd ((holds after rfl).1 chunk member) differs

/-- The streams stay as they are through chunks that each leave them so. -/
theorem foldlM_of_stays {lanes : OrderedMap Lane PendingStream} {chunks : List Event}
    (stays : ∀ chunk ∈ chunks, judgeLanes lanes chunk = .ok lanes) :
    chunks.foldlM judgeLanes lanes = .ok lanes := by
  induction chunks with
  | nil => rfl
  | cons chunk chunks ih =>
    rw [List.foldlM_cons, stays chunk List.mem_cons_self]
    exact ih (List.forall_mem_cons.mp stays).2

/-- Where coalesced chunks only repeat, the event at which the source is refused keeps its fields. -/
theorem head_of_refused {lanes reached : OrderedMap Lane PendingStream} {runs : List Run}
    (repeats : RepeatsEstablished lanes runs) {before after : List Event} {chunk : Event} {error : ChunkError}
    (split : runs.flatMap Run.chunks = before ++ chunk :: after)
    (passed : before.foldlM judgeLanes lanes = .ok reached) (refused : judgeLanes reached chunk = .error error) :
    ∃ run ∈ runs, run.head = chunk := by
  induction runs generalizing lanes before with
  | nil => exact absurd split.symm (List.append_ne_nil_of_right_ne_nil _ (List.cons_ne_nil _ _))
  | cons run rest ih =>
    rw [List.flatMap_cons, Run.chunks, List.cons_append] at split
    cases before with
    | nil => exact ⟨run, List.mem_cons_self, (List.cons.inj split).1⟩
    | cons first before =>
      rcases List.cons.inj split with ⟨rfl, tail⟩
      rw [List.foldlM_cons] at passed
      cases accepted : judgeLanes lanes run.head with
      | error early =>
        rw [accepted] at passed
        cases passed
      | ok next =>
        rw [accepted] at passed
        rcases repeats next accepted with ⟨here, later⟩
        have stays : ∀ other ∈ run.coalesced, judgeLanes next other = .ok next := by
          intro other member
          rcases judgeLanes_coalesced (run.same other member) accepted with ⟨_, judged⟩ | ⟨differs, _⟩
          · exact judged
          · exact absurd (here other member) differs
        have beyond : ∀ behind, rest.flatMap Run.chunks = behind ++ chunk :: after ->
            behind.foldlM judgeLanes next = .ok reached ->
              ∃ other ∈ run :: rest, other.head = chunk := by
          intro behind restSplit restPassed
          rcases ih later restSplit restPassed with ⟨other, member, same⟩
          exact ⟨other, List.mem_cons_of_mem _ member, same⟩
        change before.foldlM judgeLanes next = .ok reached at passed
        rcases List.append_eq_append_iff.mp tail with ⟨behind, rfl, restSplit⟩ | ⟨inside, coalesced, restSplit⟩
        · rw [List.foldlM_append, foldlM_of_stays stays] at passed
          exact beyond behind restSplit passed
        · have stood : before.foldlM judgeLanes next = .ok next := by
            refine foldlM_of_stays fun other member => stays other ?_
            rw [coalesced]
            exact List.mem_append_left _ member
          rw [stood] at passed
          cases passed
          cases inside with
          | nil => exact beyond [] restSplit.symm rfl
          | cons other inside =>
            rcases List.cons.inj restSplit with ⟨rfl, _⟩
            rw [stays chunk (by rw [coalesced]; exact List.mem_append_right _ List.mem_cons_self)] at refused
            cases refused

/-! ## What is kept of the source -/

/-- The chunk is the one at which the source is refused, and what is emitted is refused for the same reason. -/
def CausesSameRefusal (suppressed : Bool) (source emitted : List Event) (chunk : Event) : Prop :=
  ∃ before after outputs state error,
    source = before ++ chunk :: after ∧ Stage.Runs (transformChunks suppressed) {} before outputs state ∧
      transformChunks suppressed state chunk = .error error ∧
      ((transformChunks suppressed).run {} emitted).2 = .error error

/-- What throttling is to keep of a source for the expansion. -/
structure Keeps (suppressed : Bool) (middleware : EventThrottleMiddleware) (schedule : List Occurrence)
    (completed : Rat) : Prop where
  verdict : (transformChunks suppressed).accepts {} (middleware.run schedule completed) =
    (transformChunks suppressed).accepts {} (arrivals schedule)
  payloads : ∀ chunk ∈ arrivals schedule, ∀ payload ∈ payloads chunk,
    (∃ event ∈ middleware.run schedule completed, payload ∈ Middleware.payloads event) ∨
      CausesSameRefusal suppressed (arrivals schedule) (middleware.run schedule completed) chunk
  /-- A disagreement that refuses the source refuses what is emitted, at the event its chunk is part of. -/
  disagreements : Stage.refusal (transformChunks suppressed) {} ((middleware.runs schedule completed).map Run.chunks) =
    Stage.refusal (transformChunks suppressed) {} ((middleware.runs schedule completed).map fun run => [run.event])

/-- What a coalesced chunk carries, an event that keeps its fields carries too. -/
def CarriesNothingNew (runs : List Run) : Prop :=
  ∀ run ∈ runs, ∀ chunk ∈ run.coalesced, ∀ payload ∈ payloads chunk,
    ∃ other ∈ runs, payload ∈ payloads other.head

theorem flatten_chunks (runs : List Run) : (runs.map Run.chunks).flatten = runs.flatMap Run.chunks :=
  (List.flatMap_def ..).symm

theorem flatten_events (runs : List Run) : (runs.map fun run => [run.event]).flatten = runs.map Run.event := by
  induction runs with
  | nil => rfl
  | cons run runs ih =>
    rw [List.map_cons, List.flatten_cons, ih]
    rfl

/-- Throttling keeps what it is to keep exactly where coalesced chunks repeat what their stream has established, and
carry nothing that is not carried elsewhere. -/
theorem throttle_keeps_iff (suppressed : Bool) (middleware : EventThrottleMiddleware) (schedule : List Occurrence)
    (completed : Rat) :
    Keeps suppressed middleware schedule completed ↔
      RepeatsEstablished OrderedMap.empty (middleware.runs schedule completed) ∧
        CarriesNothingNew (middleware.runs schedule completed) := by
  rcases middleware.runs_spec schedule completed with ⟨emitted, held⟩
  have judges := judges_lanes suppressed
  have agrees := refusal_eq_iff OrderedMap.empty (middleware.runs schedule completed)
  have refusals : Stage.refusal (transformChunks suppressed) {} ((middleware.runs schedule completed).map Run.chunks) =
      Stage.refusal (transformChunks suppressed) {} ((middleware.runs schedule completed).map fun run => [run.event]) ↔
      RepeatsEstablished OrderedMap.empty (middleware.runs schedule completed) := by
    rw [judges.refusal, judges.refusal]
    exact agrees
  constructor
  · intro keeps
    have repeats := refusals.mp keeps.disagreements
    refine ⟨repeats, fun run runMember chunk member payload carried => ?_⟩
    have arrived : chunk ∈ arrivals schedule := by
      rw [← held]
      exact List.mem_flatMap.mpr ⟨run, runMember, List.mem_cons_of_mem _ member⟩
    rcases keeps.payloads chunk arrived payload carried with ⟨event, eventMember, present⟩ | causes
    · rw [← emitted] at eventMember
      rcases List.mem_map.mp eventMember with ⟨other, otherMember, rfl⟩
      rw [other.kept payloads payloads_mergeChunk] at present
      exact ⟨other, otherMember, present⟩
    · rcases causes with ⟨before, after, outputs, state, error, split, ran, refused, _⟩
      rw [← held] at split
      have passed := judges.run {} before
      rw [(Stage.runs_iff_run _ _ _ _).mp ran] at passed
      have judged := judges state chunk
      rw [refused] at judged
      rcases head_of_refused repeats split passed.symm judged.symm with ⟨other, otherMember, rfl⟩
      exact ⟨other, otherMember, carried⟩
  · rintro ⟨repeats, nothingNew⟩
    have same := refusals.mpr repeats
    refine ⟨?_, fun chunk arrived payload carried => Or.inl ?_, same⟩
    · apply Bool.eq_iff_iff.mpr
      rw [← emitted, ← held, ← flatten_chunks, ← flatten_events, Stage.accepts_flatten, Stage.accepts_flatten, same]
    · rw [← held] at arrived
      rcases List.mem_flatMap.mp arrived with ⟨run, runMember, member⟩
      have carrier : ∃ other ∈ middleware.runs schedule completed, payload ∈ payloads other.head := by
        rcases List.mem_cons.mp member with rfl | coalesced
        · exact ⟨run, runMember, carried⟩
        · exact nothingNew run runMember chunk coalesced payload carried
      rcases carrier with ⟨other, otherMember, present⟩
      refine ⟨other.event, ?_, ?_⟩
      · rw [← emitted]
        exact List.mem_map_of_mem otherMember
      · rw [other.kept payloads payloads_mergeChunk]
        exact present

def sixteenMs : EventThrottleMiddleware :=
  ⟨16, 0, by decide, by decide⟩

def textChunk (role : Option TextMessageRole) (delta : String) : Event :=
  .textMessageChunk { messageId := some "m", role := role, delta := some delta }

/-- The third chunk contradicts the role of its message; it arrives while the second waits. -/
theorem throttle_hides_disagreement :
    ¬ Keeps false sixteenMs
      [.next (textChunk (some .user) "a") 1, .next (textChunk none "b") 2,
        .next (textChunk (some .assistant) "c") 3] 4 := by
  intro keeps
  exact absurd keeps.verdict (by decide +kernel)

end Middleware
end AgUi
