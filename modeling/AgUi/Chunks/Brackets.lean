import AgUi.Library.Since
import AgUi.Chunks.Assembly

namespace AgUi
namespace Chunks

open Library Protocol

/-!
# Expansion is well bracketed

`Emits` is an abstract account of the transform: a machine that keeps one
open stream per lane and emits one event at a time, closing a lane, opening a
free one under an item nobody holds, adding to what a lane holds, or passing
a foreign event through.  The transform refines it, and everything it emits
keeps the bracket rules.
-/

/-- What a bracket is keyed by: the kind of stream and its id. -/
abbrev Item := PendingKind × String

def PendingStream.item (pending : PendingStream) : Item :=
  (pending.kind, pending.entityId)

/-- What an event opens. -/
def starts? : Event -> Option Item
  | .textMessageStart e => some (.text, e.messageId)
  | .toolCallStart e => some (.tool, e.toolCallId)
  | .reasoningMessageStart e => some (.reasoning, e.messageId)
  | _ => none

/-- CONTENT and ARGS. -/
def streams? : Event -> Option Item
  | .textMessageContent e => some (.text, e.messageId)
  | .toolCallArgs e => some (.tool, e.toolCallId)
  | .reasoningMessageContent e => some (.reasoning, e.messageId)
  | _ => none

/-- What an event closes. -/
def ends? : Event -> Option Item
  | .textMessageEnd e => some (.text, e.messageId)
  | .toolCallEnd e => some (.tool, e.toolCallId)
  | .reasoningMessageEnd e => some (.reasoning, e.messageId)
  | _ => none

/-- Not an explicit event of one of the three streamed kinds. -/
structure NotExplicit (event : Event) : Prop where
  start : starts? event = none
  content : streams? event = none
  close : ends? event = none

/-- The events that describe the run as a whole. -/
def restatesRun : Event -> Bool
  | .runStarted _ => true
  | .runFinished _ => true
  | .runError _ => true
  | .messagesSnapshot _ => true
  | _ => false

/-- The subagent a terminal event ends. -/
def endsSubagent? : Event -> Option String
  | .subagentFinished e => e.subagentRunId.toOption
  | .subagentError e => e.subagentRunId.toOption
  | _ => none

/-! ## Bracket rules -/

/-- The item is open, and was opened by an event that carries `tag`. -/
def OpenAs (past : List Event) (item : Item) (tag : Tag) : Prop :=
  Since (fun event => starts? event = some item ∧ event.subagentRunId = tag)
    (fun event => ends? event = some item) past

/-- What an event may do to the brackets.  A continuation repeats its opener's
tag, unless (`nulls`) the input spells a missing tag as a `null`, which is
handed on as it came. -/
structure BracketRule (nulls : Prop) (past : List Event) (event : Event) : Prop where
  expanded : event.isChunk = false
  start : ∀ item, starts? event = some item -> ∀ tag, ¬ OpenAs past item tag
  content : ∀ item, streams? event = some item ->
    ∃ tag, OpenAs past item tag ∧
      (event.subagentRunId = tag ∨ (nulls ∧ event.subagentRunId = .null))
  close : ∀ item, ends? event = some item -> OpenAs past item event.subagentRunId
  runLevel : restatesRun event = true -> ∀ item tag, ¬ OpenAs past item tag
  terminal : ∀ id, endsSubagent? event = some id -> ∀ item, ¬ OpenAs past item (.value id)

/-! ## The lane machine -/

/-- The events that go with a change of the lanes: what is closed is held, what is opened is free. -/
inductive Emits (nulls : Prop) :
    OrderedMap Lane PendingStream -> List Event -> OrderedMap Lane PendingStream -> Prop
  | nil (lanes : OrderedMap Lane PendingStream) : Emits nulls lanes [] lanes
  | close {lanes final : OrderedMap Lane PendingStream} {owner : Lane} {pending : PendingStream}
      {rest : List Event} (held : lanes.get? owner = some pending)
      (tail : Emits nulls (lanes.erase owner) rest final) : Emits nulls lanes (pending.endEvent :: rest) final
  | start {lanes final : OrderedMap Lane PendingStream} {owner : Lane} {pending : PendingStream}
      {event : Event} {rest : List Event} (free : lanes.get? owner = none)
      (fresh : ∀ other held, lanes.get? other = some held -> held.item ≠ pending.item)
      (placed : owner = pending.subagentRunId.toOption) (opens : starts? event = some pending.item)
      (tagged : event.subagentRunId = pending.subagentRunId)
      (tail : Emits nulls (lanes.set owner pending) rest final) : Emits nulls lanes (event :: rest) final
  | content {lanes final : OrderedMap Lane PendingStream} {owner : Lane} {pending : PendingStream}
      {event : Event} {rest : List Event} (held : lanes.get? owner = some pending)
      (adds : streams? event = some pending.item)
      (tagged : event.subagentRunId = pending.subagentRunId ∨ (nulls ∧ event.subagentRunId = .null))
      (tail : Emits nulls lanes rest final) : Emits nulls lanes (event :: rest) final
  | foreign {lanes final : OrderedMap Lane PendingStream} {event : Event} {rest : List Event}
      (explicit : NotExplicit event) (whole : event.isChunk = false)
      (runLevel : restatesRun event = true -> ∀ owner, lanes.get? owner = none)
      (terminal : ∀ id, endsSubagent? event = some id -> lanes.get? (some id) = none)
      (tail : Emits nulls lanes rest final) : Emits nulls lanes (event :: rest) final

variable {nulls : Prop}

theorem Emits.append {lanes middle final : OrderedMap Lane PendingStream} {first second : List Event}
    (head : Emits nulls lanes first middle) (tail : Emits nulls middle second final) :
    Emits nulls lanes (first ++ second) final := by
  induction head with
  | nil lanes => exact tail
  | close held _ ih => exact .close held (ih tail)
  | start free fresh placed opens tagged _ ih =>
    exact .start free fresh placed opens tagged (ih tail)
  | content held adds tagged _ ih =>
    exact .content held adds tagged (ih tail)
  | foreign explicit whole runLevel terminal _ ih =>
    exact .foreign explicit whole runLevel terminal (ih tail)

/-- What the output so far says about the lanes. -/
structure Tracks (past : List Event) (lanes : OrderedMap Lane PendingStream) : Prop where
  brackets : ∀ item tag, OpenAs past item tag ↔
    ∃ owner pending,
      lanes.get? owner = some pending ∧ pending.item = item ∧ pending.subagentRunId = tag
  placed : ∀ owner pending, lanes.get? owner = some pending -> owner = pending.subagentRunId.toOption
  single : ∀ owner other pending held, lanes.get? owner = some pending -> lanes.get? other = some held ->
    pending.item = held.item -> owner = other

theorem tracks_initial : Tracks [] OrderedMap.empty where
  brackets := by
    intro item tag
    apply iff_of_false (not_since_nil _ _)
    rintro ⟨owner, pending, impossible, _⟩
    cases impossible
  placed := by
    intro owner pending impossible
    cases impossible
  single := by
    intro owner other pending held impossible
    cases impossible

theorem openAs_snoc (past : List Event) (event : Event) (item : Item) (tag : Tag) :
    OpenAs (past ++ [event]) item tag ↔
      (starts? event = some item ∧ event.subagentRunId = tag) ∨
        (OpenAs past item tag ∧ ¬ ends? event = some item) :=
  since_snoc _ _ past event

/-! ### The events a pending stream synthesizes -/

variable (pending : PendingStream)

@[simp] theorem ends_endEvent : ends? pending.endEvent = some pending.item := by
  cases pending <;> rfl

@[simp] theorem starts_endEvent : starts? pending.endEvent = none := by
  cases pending <;> rfl

@[simp] theorem streams_endEvent : streams? pending.endEvent = none := by
  cases pending <;> rfl

@[simp] theorem tag_endEvent :
    pending.endEvent.subagentRunId = pending.subagentRunId := by
  cases pending <;> rfl

@[simp] theorem starts_startEvent (metadata : Option Metadata) :
    starts? (pending.startEvent metadata) = some pending.item := by
  cases pending <;> rfl

@[simp] theorem tag_startEvent (metadata : Option Metadata) :
    (pending.startEvent metadata).subagentRunId = pending.subagentRunId := by
  cases pending <;> rfl

@[simp] theorem starts_spreadUnder (remainder : Properties) (event : Event) :
    starts? (spreadUnder remainder event) = starts? event := by
  cases event <;> rfl

@[simp] theorem tag_spreadUnder (remainder : Properties) (event : Event) :
    (spreadUnder remainder event).subagentRunId = event.subagentRunId := by
  cases event <;> rfl

@[simp] theorem streams_contentEvent (base : BaseEvent) (delta : String)
    (tag : Tag) : streams? (pending.contentEvent base delta tag) = some pending.item := by
  cases pending <;> rfl

@[simp] theorem tag_contentEvent (base : BaseEvent) (delta : String)
    (tag : Tag) : (pending.contentEvent base delta tag).subagentRunId = tag := by
  cases pending <;> rfl

theorem not_ends_of_starts {event : Event} {item : Item} (opens : starts? event = some item) :
    ends? event = none ∧ streams? event = none ∧ event.isChunk = false ∧ restatesRun event = false ∧
      endsSubagent? event = none := by
  cases event <;> first | cases opens; exact ⟨rfl, rfl, rfl, rfl, rfl⟩ | cases opens

theorem not_ends_of_streams {event : Event} {item : Item} (adds : streams? event = some item) :
    ends? event = none ∧ starts? event = none ∧ event.isChunk = false ∧ restatesRun event = false ∧
      endsSubagent? event = none := by
  cases event <;> first | cases adds; exact ⟨rfl, rfl, rfl, rfl, rfl⟩ | cases adds

/-! ### One emission -/

variable {lanes : OrderedMap Lane PendingStream}

theorem tracks_close {past : List Event} (tracks : Tracks past lanes)
    {owner : Lane} {pending : PendingStream} (held : lanes.get? owner = some pending) :
    Tracks (past ++ [pending.endEvent]) (lanes.erase owner) where
  brackets := by
    intro item tag
    rw [openAs_snoc, starts_endEvent, ends_endEvent, tracks.brackets]
    constructor
    · rintro (⟨impossible, _⟩ | ⟨⟨other, stream, found, rfl, rfl⟩, notClosed⟩)
      · cases impossible
      · have apart : other ≠ owner := by
          rintro rfl
          rw [held] at found
          cases found
          exact notClosed rfl
        exact ⟨other, stream, by rw [OrderedMap.get?_erase, if_neg apart, found], rfl, rfl⟩
    · rintro ⟨other, stream, found, rfl, rfl⟩
      rw [OrderedMap.get?_erase] at found
      split at found
      · cases found
      · rename_i apart
        refine Or.inr ⟨⟨other, stream, found, rfl, rfl⟩, ?_⟩
        intro same
        exact apart (tracks.single other owner stream pending found held (Option.some.inj same).symm)
  placed := fun other stream found => tracks.placed other stream (OrderedMap.get?_of_erase _ found)
  single := fun first second left right foundLeft foundRight =>
    tracks.single first second left right (OrderedMap.get?_of_erase _ foundLeft) (OrderedMap.get?_of_erase _ foundRight)

theorem tracks_start {past : List Event} (tracks : Tracks past lanes)
    {owner : Lane} {pending : PendingStream} {event : Event} (free : lanes.get? owner = none)
    (fresh : ∀ other held, lanes.get? other = some held -> held.item ≠ pending.item)
    (placed : owner = pending.subagentRunId.toOption) (opens : starts? event = some pending.item)
    (tagged : event.subagentRunId = pending.subagentRunId) :
    Tracks (past ++ [event]) (lanes.set owner pending) where
  brackets := by
    intro item tag
    rw [openAs_snoc, opens, (not_ends_of_starts opens).1, tagged, tracks.brackets]
    constructor
    · rintro (⟨same, rfl⟩ | ⟨⟨other, stream, found, rfl, rfl⟩, _⟩)
      · exact ⟨owner, pending, OrderedMap.get?_set_self _ _ _, Option.some.inj same, rfl⟩
      · have apart : other ≠ owner := by
          rintro rfl
          rw [free] at found
          cases found
        exact ⟨other, stream, by rw [OrderedMap.get?_set, if_neg apart, found], rfl, rfl⟩
    · rintro ⟨other, stream, found, rfl, rfl⟩
      rw [OrderedMap.get?_set] at found
      split at found
      · cases found
        exact Or.inl ⟨rfl, rfl⟩
      · exact Or.inr ⟨⟨other, stream, found, rfl, rfl⟩, by simp⟩
  placed := by
    intro other stream found
    rw [OrderedMap.get?_set] at found
    split at found
    · rename_i same
      cases found
      exact same.trans placed
    · exact tracks.placed other stream found
  single := by
    intro first second left right foundLeft foundRight same
    rw [OrderedMap.get?_set] at foundLeft foundRight
    split at foundLeft
    · rename_i here
      cases foundLeft
      split at foundRight
      · rename_i alsoHere
        exact here.trans alsoHere.symm
      · exact absurd same.symm (fresh second right foundRight)
    · split at foundRight
      · cases foundRight
        exact absurd same (fresh first left foundLeft)
      · exact tracks.single first second left right foundLeft foundRight same

/-- An event that opens and closes nothing leaves the lanes as they were. -/
theorem tracks_neutral {past : List Event} (tracks : Tracks past lanes)
    {event : Event} (opens : starts? event = none) (closes : ends? event = none) :
    Tracks (past ++ [event]) lanes where
  brackets := by
    intro item tag
    rw [openAs_snoc, opens, closes, tracks.brackets]
    simp
  placed := tracks.placed
  single := tracks.single

theorem not_openAs_of_empty {past : List Event}
    (tracks : Tracks past lanes) (empty : ∀ owner, lanes.get? owner = none) (item : Item) (tag : Tag) :
    ¬ OpenAs past item tag := by
  intro opened
  rcases (tracks.brackets item tag).mp opened with ⟨owner, pending, found, _⟩
  rw [empty owner] at found
  cases found

theorem rule_close {past : List Event} (tracks : Tracks past lanes) {owner : Lane} {pending : PendingStream}
    (held : lanes.get? owner = some pending) : BracketRule nulls past pending.endEvent where
  expanded := by cases pending <;> rfl
  start := by
    rw [starts_endEvent]
    intro item impossible
    cases impossible
  content := by
    rw [streams_endEvent]
    intro item impossible
    cases impossible
  close := by
    intro item same
    rw [ends_endEvent] at same
    rw [tracks.brackets, tag_endEvent]
    exact ⟨owner, pending, held, Option.some.inj same, rfl⟩
  runLevel := by
    intro impossible
    cases pending <;> cases impossible
  terminal := by
    intro id impossible
    cases pending <;> cases impossible

theorem rule_start {past : List Event} (tracks : Tracks past lanes) {item : Item} {event : Event}
    (fresh : ∀ other held, lanes.get? other = some held -> held.item ≠ item)
    (opens : starts? event = some item) : BracketRule nulls past event := by
  rcases not_ends_of_starts opens with ⟨notEnd, notContent, whole, notRun, notTerminal⟩
  refine ⟨whole, ?_, ?_, ?_, ?_, ?_⟩
  · intro other same tag opened
    rw [opens] at same
    cases same
    rcases (tracks.brackets item tag).mp opened with ⟨owner, held, found, sameItem, _⟩
    exact fresh owner held found sameItem
  · intro other impossible
    rw [notContent] at impossible
    cases impossible
  · intro other impossible
    rw [notEnd] at impossible
    cases impossible
  · intro impossible
    rw [notRun] at impossible
    cases impossible
  · intro id impossible
    rw [notTerminal] at impossible
    cases impossible

theorem rule_content {past : List Event}
    (tracks : Tracks past lanes) {owner : Lane} {pending : PendingStream} {event : Event}
    (held : lanes.get? owner = some pending) (adds : streams? event = some pending.item)
    (tagged : event.subagentRunId = pending.subagentRunId ∨ (nulls ∧ event.subagentRunId = .null)) :
    BracketRule nulls past event := by
  rcases not_ends_of_streams adds with ⟨notEnd, notStart, whole, notRun, notTerminal⟩
  refine ⟨whole, ?_, ?_, ?_, ?_, ?_⟩
  · intro other impossible
    rw [notStart] at impossible
    cases impossible
  · intro other same
    rw [adds] at same
    cases same
    exact ⟨pending.subagentRunId, (tracks.brackets _ _).mpr ⟨owner, pending, held, rfl, rfl⟩, tagged⟩
  · intro other impossible
    rw [notEnd] at impossible
    cases impossible
  · intro impossible
    rw [notRun] at impossible
    cases impossible
  · intro id impossible
    rw [notTerminal] at impossible
    cases impossible

theorem rule_foreign {past : List Event}
    (tracks : Tracks past lanes) {event : Event} (explicit : NotExplicit event)
    (whole : event.isChunk = false) (runLevel : restatesRun event = true -> ∀ owner, lanes.get? owner = none)
    (terminal : ∀ id, endsSubagent? event = some id -> lanes.get? (some id) = none) :
    BracketRule nulls past event where
  expanded := whole
  start := by
    rw [explicit.start]
    intro item impossible
    cases impossible
  content := by
    rw [explicit.content]
    intro item impossible
    cases impossible
  close := by
    rw [explicit.close]
    intro item impossible
    cases impossible
  runLevel := fun restates item tag => not_openAs_of_empty tracks (runLevel restates) item tag
  terminal := by
    intro id ended item opened
    rcases (tracks.brackets item _).mp opened with ⟨owner, pending, found, _, tagged⟩
    have placed := tracks.placed owner pending found
    rw [tagged] at placed
    rw [placed, Nullable.toOption, terminal id ended] at found
    cases found

/-- Whatever the lane machine emits keeps the bracket rules. -/
theorem Emits.keeps {lanes final : OrderedMap Lane PendingStream} {events : List Event}
    (emits : Emits nulls lanes events final) {past : List Event} (tracks : Tracks past lanes) :
    EverywhereOn (fun more => BracketRule nulls (past ++ more)) events ∧ Tracks (past ++ events) final := by
  induction emits generalizing past with
  | nil lanes => exact ⟨everywhereOn_nil _, by rwa [List.append_nil]⟩
  | close held tail ih =>
    rcases ih (tracks_close tracks held) with ⟨later, tracked⟩
    rw [List.append_assoc, List.singleton_append] at tracked
    exact ⟨everywhereOn_cons_after (rule_close tracks held) later, tracked⟩
  | start free fresh placed opens tagged tail ih =>
    rcases ih (tracks_start tracks free fresh placed opens tagged) with ⟨later, tracked⟩
    rw [List.append_assoc, List.singleton_append] at tracked
    exact ⟨everywhereOn_cons_after (rule_start tracks fresh opens) later, tracked⟩
  | content held adds tagged tail ih =>
    rcases not_ends_of_streams adds with ⟨notEnd, notStart, _⟩
    rcases ih (tracks_neutral tracks notStart notEnd) with ⟨later, tracked⟩
    rw [List.append_assoc, List.singleton_append] at tracked
    exact ⟨everywhereOn_cons_after (rule_content tracks held adds tagged) later, tracked⟩
  | foreign explicit whole runLevel terminal tail ih =>
    rcases ih (tracks_neutral tracks explicit.start explicit.close) with ⟨later, tracked⟩
    rw [List.append_assoc, List.singleton_append] at tracked
    exact ⟨everywhereOn_cons_after (rule_foreign tracks explicit whole runLevel terminal) later, tracked⟩

/-! ## The transform refines the lane machine -/

theorem emits_closeLane (nulls : Prop) (lanes : OrderedMap Lane PendingStream) (owner : Lane) :
    Emits nulls lanes (closeLane lanes owner).2 (closeLane lanes owner).1 ∧
      (closeLane lanes owner).1.get? owner = none := by
  unfold closeLane
  cases held : lanes.get? owner with
  | none => exact ⟨.nil lanes, held⟩
  | some pending =>
    exact ⟨.close held (.nil _), by rw [OrderedMap.get?_erase, if_pos rfl]⟩

theorem emits_closeAllLanes (nulls : Prop) (lanes : OrderedMap Lane PendingStream) :
    Emits nulls lanes (closeAllLanes lanes).2 OrderedMap.empty := by
  rcases lanes with ⟨entries, nodup⟩
  unfold closeAllLanes
  induction entries with
  | nil => exact .nil _
  | cons entry rest ih =>
    rcases entry with ⟨owner, pending⟩
    have held : (OrderedMap.mk ((owner, pending) :: rest) nodup).get? owner = some pending :=
      (OrderedMap.mem_entries_iff _ _ _).mp List.mem_cons_self
    apply Emits.close held
    rw [OrderedMap.erase_head nodup]
    exact ih (List.nodup_cons.mp nodup).2

theorem isChunk_eq_false_of_arm {event : Event} (notChunk : chunkArm? event = none) :
    event.isChunk = false := by
  cases event <;> first | rfl | cases notChunk

/-- An event that is not a chunk, and not explicit, goes through a lane
machine in which whatever it would interrupt has been closed. -/
theorem emits_passThrough (nulls : Prop) (state : TransformState) {event : Event}
    (explicit : NotExplicit event) (notChunk : chunkArm? event = none) :
    Emits nulls state.lanes (passThrough state event).2 (passThrough state event).1.lanes := by
  have whole := isChunk_eq_false_of_arm notChunk
  unfold passThrough
  cases closed : closing event with
  | lane owner =>
    have closes := emits_closeLane nulls state.lanes owner
    refine closes.1.append (.foreign explicit whole ?_ ?_ (.nil _))
    · intro restates
      cases event <;> first | (cases restates; done) | cases closed
    · intro id ended
      have same : owner = some id := by
        cases event <;> first
          | cases ended
          | simp only [endsSubagent?] at ended
            simp only [closing, closing.terminal, ended] at closed
            cases closed
            rfl
      rw [← same]
      exact closes.2
  | allLanes =>
    refine (emits_closeAllLanes nulls state.lanes).append (.foreign explicit whole ?_ ?_ (.nil _))
    · exact fun _ owner => rfl
    · exact fun _ _ => rfl
  | nothing =>
    refine .foreign explicit whole ?_ ?_ (.nil _)
    · intro restates
      cases event <;> first | (cases restates; done) | cases closed
    · intro id ended
      cases event <;> first
        | cases ended
        | simp only [endsSubagent?] at ended
          simp only [closing, closing.terminal, ended] at closed
          cases closed

/-- The tag of a content event is its opener's, or the chunk's own `null`. -/
theorem contentOwner_agrees {arm : ChunkArm} {pending : PendingStream}
    (spelled : arm.event.subagentRunId = .null -> nulls)
    (agrees : ∀ name, arm.event.subagentRunId.toOption = some name ->
      pending.subagentRunId.toOption = some name) :
    contentOwner arm pending = pending.subagentRunId ∨ (nulls ∧ contentOwner arm pending = .null) := by
  unfold contentOwner
  cases tag : arm.event.subagentRunId with
  | absent => exact Or.inl rfl
  | null => exact Or.inr ⟨spelled tag, rfl⟩
  | value name =>
    have same := agrees name (by rw [tag]; rfl)
    cases owner : pending.subagentRunId with
    | absent | null => rw [owner] at same; cases same
    | value other =>
      rw [owner] at same
      cases same
      exact Or.inl rfl

theorem emits_contents {owner : Lane}
    {pending : PendingStream} (held : lanes.get? owner = some pending) (arm : ChunkArm)
    (tagged : contentOwner arm pending = pending.subagentRunId ∨
      (nulls ∧ contentOwner arm pending = .null)) (delta : String) :
    Emits nulls lanes [arm.content pending delta] lanes := by
  refine .content held ?_ ?_ (.nil lanes)
  · exact streams_contentEvent pending _ _ _
  · rw [ChunkArm.content, tag_contentEvent]
    exact tagged

theorem emits_continuation {owner : Lane}
    {pending : PendingStream} (held : lanes.get? owner = some pending) (arm : ChunkArm)
    (tagged : contentOwner arm pending = pending.subagentRunId ∨
      (nulls ∧ contentOwner arm pending = .null)) : Emits nulls lanes (arm.continuation pending) lanes := by
  unfold ChunkArm.continuation
  split
  · exact emits_contents held arm tagged _
  · split
    · exact emits_contents held arm tagged _
    · exact .nil lanes

theorem emits_opening {owner : Lane}
    {pending : PendingStream} (arm : ChunkArm) (free : lanes.get? owner = none)
    (fresh : ∀ other held, lanes.get? other = some held -> held.item ≠ pending.item)
    (placed : owner = pending.subagentRunId.toOption)
    (tagged : contentOwner arm pending = pending.subagentRunId ∨
      (nulls ∧ contentOwner arm pending = .null)) :
    Emits nulls lanes (arm.opening pending) (lanes.set owner pending) := by
  have opens : ∀ event, starts? event = some pending.item ->
      event.subagentRunId = pending.subagentRunId ->
      ∀ rest, Emits nulls (lanes.set owner pending) rest (lanes.set owner pending) ->
        Emits nulls lanes (event :: rest) (lanes.set owner pending) :=
    fun event start tag rest tail => .start free fresh placed start tag tail
  unfold ChunkArm.opening
  dsimp only
  split
  · exact opens _ (starts_startEvent _ _) (tag_startEvent _ _) _
      (emits_contents (OrderedMap.get?_set_self _ _ _) arm tagged _)
  · split
    · exact opens _ (starts_startEvent _ _) (tag_startEvent _ _) _ (.nil _)
    · refine opens _ ?_ ?_ _ (.nil _)
      · rw [starts_spreadUnder, starts_startEvent]
      · rw [tag_spreadUnder, tag_startEvent]

theorem emits_expandChunk {suppressed : Bool} {state after : TransformState} {arm : ChunkArm}
    {events : List Event} {past : List Event} (tracks : Tracks past state.lanes)
    (spelled : arm.event.subagentRunId = .null -> nulls)
    (done : expandChunk suppressed state arm = .ok (after, events)) :
    Emits nulls state.lanes events after.lanes := by
  rcases expandChunk_eq_ok done with ⟨lane, assembly, resolution, assembled, rfl, rfl⟩
  have resolved := resolveLane_resolved resolution
  cases assemble_assembled assembled with
  | continues pending held same =>
    apply emits_continuation held arm
    apply contentOwner_agrees spelled
    intro name tagged
    rw [← tracks.placed lane pending held]
    exact resolved.agrees tagged
  | opens pending opener apart =>
    rcases resolved_of_opens resolved opener apart with ⟨placed, nobody⟩
    have sameTag := (arm.opens pending opener).2.2
    have closes := emits_closeLane nulls state.lanes lane
    have opening : Emits nulls (state.lanes.erase lane) (arm.opening pending)
        ((state.lanes.erase lane).set lane pending) := by
      apply emits_opening arm _ _ placed
      · apply contentOwner_agrees spelled
        rw [sameTag]
        exact fun name tagged => tagged
      · rw [OrderedMap.get?_erase, if_pos rfl]
      · intro other held found sameItem
        exact laneHolding_eq_none nobody (OrderedMap.get?_of_erase _ found) (Prod.mk.inj sameItem)
    unfold closeLane at closes
    cases held : state.lanes.get? lane with
    | none =>
      rw [OrderedMap.erase_of_absent _ held] at opening ⊢
      exact opening
    | some old =>
      rw [held] at closes
      exact closes.1.append opening

/-- A step of the transform is a walk of the lane machine. -/
theorem emits_transformChunks {suppressed : Bool} {state after : TransformState}
    {event : Event} {events past : List Event} (tracks : Tracks past state.lanes)
    (explicit : NotExplicit event) (spelled : event.isChunk = true -> event.subagentRunId = .null -> nulls)
    (done : transformChunks suppressed state event = .ok (after, events)) :
    Emits nulls state.lanes events after.lanes := by
  unfold transformChunks at done
  cases chunk : chunkArm? event with
  | none =>
    simp only [chunk, Except.ok.injEq] at done
    have emits := emits_passThrough nulls state explicit chunk
    rw [done] at emits
    exact emits
  | some arm =>
    rw [chunk] at done
    apply emits_expandChunk tracks _ done
    cases event with
    | textMessageChunk e | toolCallChunk e | reasoningMessageChunk e =>
      cases chunk
      exact spelled rfl
    | _ => cases chunk

/-- Some chunk of the stream spells its missing tag as a `null`. -/
def SpellsNull (events : List Event) : Prop :=
  ∃ event ∈ events, event.isChunk = true ∧ event.subagentRunId = .null

/-- What the expansion of a whole stream emits is well bracketed, and the
brackets still open at its end are the lanes still being assembled. -/
theorem transformChunks_wellBracketed (suppressed : Bool) (events outputs : List Event)
    (final : TransformState) (explicit : ∀ event ∈ events, NotExplicit event)
    (runs : Stage.Runs (transformChunks suppressed) {} events outputs final) :
    EverywhereOn (BracketRule (SpellsNull events)) outputs ∧
      ∀ item tag, OpenAs outputs item tag ↔
        ∃ owner pending,
          final.lanes.get? owner = some pending ∧ pending.item = item ∧ pending.subagentRunId = tag := by
  have walk : ∀ {state final : TransformState} {inputs outputs past : List Event},
      Stage.Runs (transformChunks suppressed) state inputs outputs final ->
      (∀ event ∈ inputs, event ∈ events) -> Tracks past state.lanes ->
      Emits (SpellsNull events) state.lanes outputs final.lanes := by
    intro state final inputs outputs past runs
    induction runs generalizing past with
    | nil state => exact fun _ _ => .nil _
    | @cons state after final event output rest outputs step tail ih =>
      intro member tracks
      have here := member event List.mem_cons_self
      have spelled : event.isChunk = true -> event.subagentRunId = .null -> SpellsNull events :=
        fun chunk null => ⟨event, here, chunk, null⟩
      have emits := emits_transformChunks tracks (explicit event here) spelled step
      exact emits.append (ih (fun other later => member other (List.mem_cons_of_mem _ later))
        (emits.keeps tracks).2)
  have emits := walk runs (fun event member => member) tracks_initial
  have kept := emits.keeps tracks_initial
  simp only [List.nil_append] at kept
  exact ⟨kept.1, kept.2.brackets⟩

/-- A subagent's message, opened by a tagged chunk, continued by untagged
ones and closed by the subagent's end. -/
theorem transformChunks_wellBracketed_subagent :
    let events : List Event :=
      [.runStarted { threadId := "t", runId := "r" },
       .textMessageChunk { subagentRunId := .value "s", messageId := some "m", delta := some "one" },
       .textMessageChunk { delta := some "two" },
       .subagentFinished { subagentRunId := .value "s" },
       .runFinished { threadId := "t", runId := "r" }]
    EverywhereOn (BracketRule (SpellsNull events)) ((transformChunks false).run {} events).1 := by
  intro events
  have runs : Stage.Runs (transformChunks false) {} events ((transformChunks false).run {} events).1 _ :=
    (Stage.runs_iff_run _ _ _ _).mpr rfl
  refine (transformChunks_wellBracketed false events _ _ ?_ runs).1
  intro event member
  simp only [events, List.mem_cons, List.not_mem_nil, or_false] at member
  rcases member with rfl | rfl | rfl | rfl | rfl <;> exact ⟨rfl, rfl, rfl⟩

/-- At the end of a stream a message stays open: its END is discarded.  And a
`null` tag on a continuation is not the tag of the opener. -/
theorem transformChunks_leavesOpen :
    OpenAs ((transformChunks false).run {} [.textMessageChunk { messageId := some "m", delta := some "one" }]).1
      (.text, "m") .absent ∧
    (((transformChunks false).run {}
      [.textMessageChunk { subagentRunId := .value "s", messageId := some "m", delta := some "one" },
       .textMessageChunk { subagentRunId := .null, messageId := some "m", delta := some "two" }]).1.map
        fun event => (event.type, event.subagentRunId)) =
      [(.textMessageStart, .value "s"), (.textMessageContent, .value "s"), (.textMessageContent, .null)] := by
  refine ⟨?_, by decide⟩
  refine ⟨[], .textMessageStart { messageId := "m", role := some .assistant },
    [.textMessageContent { messageId := "m", delta := "one" }], rfl, ⟨rfl, rfl⟩, ?_⟩
  intro event member
  rw [List.mem_singleton.mp member]
  exact nofun

end Chunks
end AgUi
