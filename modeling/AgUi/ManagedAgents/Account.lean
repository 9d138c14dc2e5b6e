import AgUi.ManagedAgents.Agent

namespace AgUi
namespace ManagedAgents

open Library Protocol

/-!
# The account of a thread

What a thread's record is for can be told from the outside, by whoever sees what
was shown to the UI and what reached the session.  An `Account` is that: the
frontend calls that are still awaited, the calls that have been answered, and
the user's messages that have been delivered.  It is read off the trace of a run
and knows nothing of the record.

This module follows the record and the account side by side through one turn.
Most of what a turn does is `Quiet`: it emits events and touches neither.
-/

/-! ## Reading the trace -/

/-- The calls an idle session waits on. -/
def StopReason.eventIds : StopReason -> List String
  | .requiresAction eventIds => eventIds
  | _ => []

/-- The calls a batch answers. -/
def answeredIds (events : List UserEvent) : List String :=
  events.filterMap fun | .customToolResult id _ _ => some id | _ => none

/-- The user's messages in a batch. -/
def saidTexts (events : List UserEvent) : List String :=
  events.filterMap fun | .message text => some text | _ => none

structure Account where
  /-- Frontend calls shown and not yet answered, cancelled or released. -/
  awaiting : List String := []
  /-- What the last idle event waits on. -/
  waitedOn : List String := []
  answered : List String := []
  said : List String := []
deriving DecidableEq

namespace Account

/-- A batch reached the session: results answer, an interrupt cancels everything. -/
def post (account : Account) (events : List UserEvent) : Account :=
  { account with
    awaiting :=
      if UserEvent.interrupt ∈ events then []
      else account.awaiting.filter fun id => id ∉ answeredIds events
    answered := account.answered ++ answeredIds events
    said := account.said ++ saidTexts events }

/-- The idle event a turn ends on releases what it no longer waits on. -/
def release (account : Account) : Account :=
  { account with awaiting := account.awaiting.filter fun id => id ∈ account.waitedOn }

/-- One entry of the trace of a run, given which names are frontend tools. -/
def enter (isFrontend : String -> Bool) (account : Account) : Trace -> Account
  | .heard (.customToolUse id name _) =>
    if isFrontend name then { account with awaiting := account.awaiting ++ [id] } else account
  | .heard (.statusIdle stopReason) => { account with waitedOn := stopReason.eventIds }
  | .posted events => account.post events
  | .returned (.errored _ _) => account
  | .returned _ => account.release
  | _ => account

def read (isFrontend : String -> Bool) (account : Account) (log : List Trace) : Account :=
  log.foldl (enter isFrontend) account

end Account

/-! ## Record and account side by side -/

abbrev Books := SessionRecord × Account

section

variable (isFrontend : String -> Bool) (outbound : Outbound)

/-- What one entry makes of the record, where every callback returns, and of the account. -/
def follow (books : Books) (entry : Trace) : Books :=
  (match entry with
    | .called callback _ => (Run.onCallback outbound books.1 callback).getD books.1
    | _ => books.1,
    books.2.enter isFrontend entry)

/-- The record and the account after a log. -/
def booksOf (start : Books) (log : List Trace) : Books :=
  log.foldl (follow isFrontend outbound) start

theorem booksOf_append (start : Books) (first second : List Trace) :
    booksOf isFrontend outbound start (first ++ second) =
      booksOf isFrontend outbound (booksOf isFrontend outbound start first) second :=
  List.foldl_append

theorem booksOf_told (start : Books) (events : List Event) :
    booksOf isFrontend outbound start (events.map .told) = start := by
  induction events with
  | nil => rfl
  | cons event rest ih => exact ih

end

/-! ## What leaves the books alone -/

/-- All the turn did was to emit events. -/
structure Quiet (turn later : Turn) : Prop where
  log : ∃ events : List Event, later.log = turn.log ++ events.map Trace.told
  acked : later.ackedToolUses = turn.ackedToolUses
  parks : later.clientParks = turn.clientParks
  asked : later.askedConfirmations = turn.askedConfirmations

namespace Quiet

variable {turn later : Turn}

theorem refl (turn : Turn) : Quiet turn turn :=
  ⟨⟨[], by simp⟩, rfl, rfl, rfl⟩

theorem trans {latest : Turn} (first : Quiet turn later) (second : Quiet later latest) : Quiet turn latest := by
  rcases first.log with ⟨events, log⟩
  rcases second.log with ⟨more, longer⟩
  refine ⟨⟨events ++ more, ?_⟩, second.acked.trans first.acked, second.parks.trans first.parks,
    second.asked.trans first.asked⟩
  rw [longer, log, List.map_append, List.append_assoc]

theorem emit (turn : Turn) (events : List Event) : Quiet turn (turn.emit events) :=
  ⟨⟨events, rfl⟩, rfl, rfl, rfl⟩

theorem openMessage (turn : Turn) (id : String) : Quiet turn (turn.openMessage id) :=
  ⟨⟨_, rfl⟩, rfl, rfl, rfl⟩

theorem closeMessage (turn : Turn) (id : String) : Quiet turn (turn.closeMessage id) :=
  ⟨⟨_, rfl⟩, rfl, rfl, rfl⟩

theorem openThinking (turn : Turn) (id : String) : Quiet turn (turn.openThinking id) :=
  ⟨⟨_, rfl⟩, rfl, rfl, rfl⟩

theorem closeReasoning (turn : Turn) (id : String) : Quiet turn (turn.closeReasoning id) :=
  ⟨⟨_, rfl⟩, rfl, rfl, rfl⟩

theorem foldl {operation : Turn -> String -> Turn} (quiet : ∀ turn id, Quiet turn (operation turn id))
    (turn : Turn) (ids : List String) : Quiet turn (ids.foldl operation turn) := by
  induction ids generalizing turn with
  | nil => exact refl turn
  | cons id rest ih => exact (quiet turn id).trans (ih _)

theorem closeAll (port : Port) (turn : Turn) : Quiet turn (turn.closeAll port) :=
  (foldl closeMessage turn _).trans (foldl closeReasoning _ _)

theorem reconcileMessage (turn : Turn) (id finalText : String) : Quiet turn (turn.reconcileMessage id finalText) := by
  unfold Turn.reconcileMessage
  split
  · exact (emit turn _).trans (closeMessage _ id)
  · split
    · exact (emit turn _).trans (closeMessage _ id)
    · exact (closeMessage turn id).trans (emit _ _)

theorem eventDelta (turn : Turn) (id : String) (delta : Delta) (replies : Replies) :
    Quiet turn (turn.eventDelta id delta replies) := by
  unfold Turn.eventDelta
  split
  · split
    · exact ⟨⟨_, rfl⟩, rfl, rfl, rfl⟩
    · exact refl turn
  · exact refl turn

theorem endThinking (turn : Turn) (id : String) : Quiet turn (turn.endThinking id) := by
  unfold Turn.endThinking
  split
  · exact closeReasoning turn id
  · exact emit turn _

end Quiet

/-! ## Through one turn -/

/-- The ids of the tool calls in a stream. -/
def toolUseIds (events : List SessionEvent) : List String :=
  events.filterMap fun
    | .customToolUse id _ _ => some id
    | .toolUse id _ _ _ => some id
    | .mcpToolUse id _ _ _ _ => some id
    | _ => none

section

variable (options : TurnOptions) (outbound : Outbound) (start : Books)

/-- The books after what a turn has done so far. -/
def books (turn : Turn) : Books :=
  booksOf options.clientTools.has outbound start turn.log

theorem books_record (turn : Turn) (entries : List Trace) :
    books options outbound start (turn.record entries) =
      booksOf options.clientTools.has outbound (books options outbound start turn) entries :=
  booksOf_append _ _ _ _ _

theorem waitedOn_post (turn : Turn) (events : List UserEvent) :
    (books options outbound start (turn.post events)).2.waitedOn = (books options outbound start turn).2.waitedOn := by
  rw [Turn.post, books_record]
  rfl

theorem Quiet.books {turn later : Turn} (quiet : Quiet turn later) :
    books options outbound start later = books options outbound start turn := by
  rcases quiet.log with ⟨events, log⟩
  rw [ManagedAgents.books, log, booksOf_append, booksOf_told]
  rfl

/-- No callback that fails, and not the return of the turn. -/
def Ordinary : Trace -> Bool
  | .called _ returns => returns
  | .returned _ => false
  | _ => true

/-- Every callback has returned, and the turn has not. -/
def Returned (log : List Trace) : Prop :=
  ∀ entry ∈ log, Ordinary entry = true

theorem returned_append {first second : List Trace} (returned : Returned first) (more : Returned second) :
    Returned (first ++ second) :=
  List.forall_mem_append.mpr ⟨returned, more⟩

theorem returned_singleton {entry : Trace} (ordinary : Ordinary entry = true) : Returned [entry] :=
  List.forall_mem_singleton.mpr ordinary

theorem returned_told (events : List Event) : Returned (events.map .told) := by
  intro entry member
  rcases List.mem_map.mp member with ⟨event, _, rfl⟩
  rfl

variable (lastUser : Option String) (said : List String)

/-- What stays as it was while the session's events come in. -/
structure Steady (turn : Turn) : Prop where
  lastUser : (books options outbound start turn).1.lastUserMessageId = lastUser
  said : (books options outbound start turn).2.said = said
  once : (books options outbound start turn).2.answered.Nodup
  returned : Returned turn.log

/-- Record, account and turn agree on which frontend calls are open, and the
calls still to come are new to all of them. -/
structure Kept (rest : List SessionEvent) (turn : Turn) : Prop
    extends Steady options outbound start lastUser said turn where
  parks : ∀ id, turn.clientParks.has id = true ↔ id ∈ (books options outbound start turn).2.awaiting
  pending : ∀ id, id ∈ (books options outbound start turn).1.pendingClientToolUseIds ↔
    id ∈ (books options outbound start turn).2.awaiting
  acked : ∀ id, turn.ackedToolUses.has id = true -> turn.clientParks.has id = false
  asked : ∀ id, turn.askedConfirmations.has id = true -> turn.clientParks.has id = false
  settled : ∀ id ∈ (books options outbound start turn).2.answered,
    id ∉ (books options outbound start turn).2.awaiting
  unacked : ∀ id ∈ toolUseIds rest, turn.ackedToolUses.has id = false
  unasked : ∀ id ∈ toolUseIds rest, turn.askedConfirmations.has id = false
  unparked : ∀ id ∈ toolUseIds rest, turn.clientParks.has id = false
  unanswered : ∀ id ∈ toolUseIds rest, id ∉ (books options outbound start turn).2.answered

variable {options outbound start lastUser said}

/-- The books agree but for what the last idle event waits on. -/
structure SameBooks (first second : Books) : Prop where
  record : second.1 = first.1
  awaiting : second.2.awaiting = first.2.awaiting
  answered : second.2.answered = first.2.answered
  said : second.2.said = first.2.said

theorem SameBooks.of_eq {first second : Books} (same : second = first) : SameBooks first second := by
  subst same
  exact ⟨rfl, rfl, rfl, rfl⟩

namespace Kept

variable {rest : List SessionEvent} {turn : Turn}
  (kept : Kept options outbound start lastUser said rest turn)

include kept

theorem same {later : Turn}
    (same : SameBooks (books options outbound start turn) (books options outbound start later))
    (returned : Returned later.log) (acked : later.ackedToolUses = turn.ackedToolUses)
    (parks : later.clientParks = turn.clientParks) (asked : later.askedConfirmations = turn.askedConfirmations) :
    Kept options outbound start lastUser said rest later where
  lastUser := by rw [same.record]; exact kept.lastUser
  said := by rw [same.said]; exact kept.said
  once := by rw [same.answered]; exact kept.once
  returned := returned
  parks := by rw [parks, same.awaiting]; exact kept.parks
  pending := by rw [same.record, same.awaiting]; exact kept.pending
  acked := by rw [acked, parks]; exact kept.acked
  asked := by rw [asked, parks]; exact kept.asked
  settled := by rw [same.answered, same.awaiting]; exact kept.settled
  unacked := by rw [acked]; exact kept.unacked
  unasked := by rw [asked]; exact kept.unasked
  unparked := by rw [parks]; exact kept.unparked
  unanswered := by rw [same.answered]; exact kept.unanswered

theorem quiet {later : Turn} (quiet : Quiet turn later) :
    Kept options outbound start lastUser said rest later := by
  refine kept.same (SameBooks.of_eq (quiet.books options outbound start)) ?_ quiet.acked quiet.parks quiet.asked
  rcases quiet.log with ⟨events, log⟩
  rw [log]
  exact returned_append kept.returned (returned_told events)

theorem later {fewer : List SessionEvent}
    (fewerIds : ∀ id ∈ toolUseIds fewer, id ∈ toolUseIds rest) :
    Kept options outbound start lastUser said fewer turn :=
  { kept with
    unacked := fun id member => kept.unacked id (fewerIds id member)
    unasked := fun id member => kept.unasked id (fewerIds id member)
    unparked := fun id member => kept.unparked id (fewerIds id member)
    unanswered := fun id member => kept.unanswered id (fewerIds id member) }

/-- Hearing an event that shows no call to the frontend. -/
theorem heard (event : SessionEvent)
    (unshown : ∀ id name input, event = .customToolUse id name input -> options.clientTools.has name = false) :
    Kept options outbound start lastUser said rest (turn.record [.heard event]) := by
  refine kept.same ?_ (returned_append kept.returned ?_) rfl rfl rfl
  · rw [books_record]
    cases event with
    | customToolUse id name input =>
      have plain := unshown id name input rfl
      simp only [booksOf, List.foldl, follow, Account.enter, plain]
      exact ⟨rfl, rfl, rfl, rfl⟩
    | _ => exact ⟨rfl, rfl, rfl, rfl⟩
  · exact returned_singleton rfl

theorem ack (ids : List String)
    (unparked : ∀ id ∈ ids, turn.clientParks.has id = false)
    (new : ∀ id ∈ ids, id ∉ toolUseIds rest) :
    Kept options outbound start lastUser said rest (turn.ack ids) := by
  have has : ∀ id, (turn.ack ids).ackedToolUses.has id = true ->
      turn.ackedToolUses.has id = true ∨ id ∈ ids := by
    intro id member
    exact ((OrderedSet.has_foldl_add ids turn.ackedToolUses id).mp member).symm
  refine { kept with acked := ?_, unacked := ?_ }
  · intro id member
    rcases has id member with before | listed
    · exact kept.acked id before
    · exact unparked id listed
  · intro id member
    apply Bool.eq_false_iff.mpr
    intro acked
    rcases has id acked with before | listed
    · exact Bool.false_ne_true ((kept.unacked id member).symm.trans before)
    · exact new id listed member

/-- Posting confirmations settles nothing of the frontend's. -/
theorem confirm (ids : List String)
    (result : Confirmation) :
    Kept options outbound start lastUser said rest (turn.post (ids.map fun id => .toolConfirmation id result)) := by
  have none : answeredIds (ids.map fun id => UserEvent.toolConfirmation id result) = [] := by
    simp [answeredIds]
  have silent : saidTexts (ids.map fun id => UserEvent.toolConfirmation id result) = [] := by
    simp [saidTexts]
  have uninterrupted : UserEvent.interrupt ∉ ids.map fun id => UserEvent.toolConfirmation id result := by
    simp
  refine kept.same ?_ (returned_append kept.returned ?_) rfl rfl rfl
  · rw [Turn.post, books_record]
    refine ⟨rfl, ?_, ?_, ?_⟩
    · simp [booksOf, follow, Account.enter, Account.post, none]
    · simp [booksOf, follow, Account.enter, Account.post, none]
    · simp [booksOf, follow, Account.enter, Account.post, silent]
  · exact returned_singleton rfl

/-- The result of a call that is new to the account. -/
theorem answer {id : String}
    (unparked : turn.clientParks.has id = false)
    (unanswered : id ∉ (books options outbound start turn).2.answered) (new : id ∉ toolUseIds rest)
    (content : List ToolResultBlock) (isError : Bool) :
    Kept options outbound start lastUser said rest ((turn.post [.customToolResult id content isError]).ack [id]) := by
  have unawaited : id ∉ (books options outbound start turn).2.awaiting := by
    intro member
    exact Bool.false_ne_true (unparked.symm.trans ((kept.parks id).mpr member))
  have after : books options outbound start (turn.post [.customToolResult id content isError]) =
      ((books options outbound start turn).1,
        { (books options outbound start turn).2 with
          answered := (books options outbound start turn).2.answered ++ [id] }) := by
    have same : (books options outbound start turn).2.awaiting.filter (fun other => other ∉ [id]) =
        (books options outbound start turn).2.awaiting := by
      apply List.filter_eq_self.mpr
      intro other member
      apply decide_eq_true
      intro equal
      exact unawaited (List.mem_singleton.mp equal ▸ member)
    rw [Turn.post, books_record]
    simp [booksOf, follow, Account.enter, Account.post, answeredIds, saidTexts] at same ⊢
    exact same
  have posted : Kept options outbound start lastUser said rest
      (turn.post [.customToolResult id content isError]) := by
    refine { kept with
      lastUser := by rw [after]; exact kept.lastUser
      said := by rw [after]; exact kept.said
      once := ?_
      returned := returned_append kept.returned (returned_singleton rfl)
      parks := by rw [after]; exact kept.parks
      pending := by rw [after]; exact kept.pending
      settled := ?_
      unanswered := ?_ }
    · rw [after]
      exact List.nodup_append.mpr ⟨kept.once, List.nodup_singleton id, fun other member _ equal same =>
        unanswered (List.mem_singleton.mp equal ▸ same ▸ member)⟩
    · rw [after]
      intro other member
      rcases List.mem_append.mp member with earlier | last
      · exact kept.settled other earlier
      · rw [List.mem_singleton.mp last]
        exact unawaited
    · rw [after]
      intro other member answered
      rcases List.mem_append.mp answered with earlier | last
      · exact kept.unanswered other member earlier
      · exact new (List.mem_singleton.mp last ▸ member)
  refine posted.ack [id] ?_ ?_
  · intro other member
    rw [List.mem_singleton.mp member]
    exact unparked
  · intro other member
    rw [List.mem_singleton.mp member]
    exact new

end Kept

/-- An interrupt reached the session: nothing is awaited any more. -/
structure Cleared (options : TurnOptions) (outbound : Outbound) (start : Books) (lastUser : Option String)
    (said : List String) (rest : List SessionEvent) (turn : Turn) : Prop
    extends Steady options outbound start lastUser said turn where
  nothing : (books options outbound start turn).2.awaiting = []
  unanswered : ∀ id ∈ toolUseIds rest, id ∉ (books options outbound start turn).2.answered

theorem Kept.interrupted {rest : List SessionEvent} {turn : Turn}
    (kept : Kept options outbound start lastUser said rest turn) :
    Cleared options outbound start lastUser said rest (turn.post [.interrupt]) := by
  have same : (books options outbound start (turn.post [.interrupt])).2.answered =
      (books options outbound start turn).2.answered := by
    rw [Turn.post, books_record]
    exact List.append_nil _
  refine ⟨⟨?_, ?_, ?_, ?_⟩, ?_, ?_⟩
  · rw [Turn.post, books_record]
    exact kept.lastUser
  · rw [Turn.post, books_record]
    exact (List.append_nil _).trans kept.said
  · rw [same]
    exact kept.once
  · exact returned_append kept.returned (returned_singleton rfl)
  · rw [Turn.post, books_record]
    rfl
  · rw [same]
    exact kept.unanswered

theorem Cleared.quiet {rest : List SessionEvent} {turn later : Turn}
    (cleared : Cleared options outbound start lastUser said rest turn) (quiet : Quiet turn later) :
    Cleared options outbound start lastUser said rest later := by
  have same := quiet.books options outbound start
  refine ⟨⟨same ▸ cleared.lastUser, same ▸ cleared.said, same ▸ cleared.once, ?_⟩, same ▸ cleared.nothing,
    same ▸ cleared.unanswered⟩
  rcases quiet.log with ⟨events, log⟩
  rw [log]
  exact returned_append cleared.returned (returned_told events)

/-- How an operation of a turn leaves the books. -/
inductive Leaves (options : TurnOptions) (outbound : Outbound) (start : Books) (lastUser : Option String)
    (said : List String) (rest : List SessionEvent) : Turn × Option Exit -> Prop
  | running {turn : Turn} (kept : Kept options outbound start lastUser said rest turn) :
      Leaves options outbound start lastUser said rest (turn, none)
  | threw {turn : Turn} (kept : Kept options outbound start lastUser said rest turn) :
      Leaves options outbound start lastUser said rest (turn, some .threw)
  | finished {turn : Turn} (kept : Kept options outbound start lastUser said rest turn)
      (idle : (books options outbound start turn).2.waitedOn = []) :
      Leaves options outbound start lastUser said rest (turn, some (.returned .finished))
  | parked {turn : Turn} {ids : List String} (kept : Kept options outbound start lastUser said rest turn)
      (idle : ∀ id, id ∈ ids ↔ id ∈ (books options outbound start turn).2.awaiting ∧
        id ∈ (books options outbound start turn).2.waitedOn) :
      Leaves options outbound start lastUser said rest (turn, some (.returned (.parked ids)))
  | failed {turn : Turn} (kept : Kept options outbound start lastUser said rest turn) :
      Leaves options outbound start lastUser said rest (turn, some (.returned (.errored false false)))
  | ended {turn : Turn} (kept : Kept options outbound start lastUser said rest turn) :
      Leaves options outbound start lastUser said rest (turn, some (.returned (.errored true false)))
  | interrupted {turn : Turn} (cleared : Cleared options outbound start lastUser said rest turn) :
      Leaves options outbound start lastUser said rest (turn, some (.returned (.errored false true)))

namespace Kept

variable {rest : List SessionEvent} {turn : Turn} (port : Port)
  (kept : Kept options outbound start lastUser said rest turn)

include kept

theorem fail (message : String) (code : Option String) :
    Leaves options outbound start lastUser said rest (turn.fail port message code false) :=
  .failed (kept.quiet ((Quiet.closeAll port turn).trans (Quiet.emit _ _)))

theorem interruptAndFail (message code : String)
    (replies : Replies) :
    Leaves options outbound start lastUser said rest (turn.interruptAndFail port message code replies) := by
  unfold Turn.interruptAndFail Turn.interrupt
  cases replies.interrupts with
  | false => exact kept.fail port message (some code)
  | true => exact .interrupted (kept.interrupted.quiet ((Quiet.closeAll port _).trans (Quiet.emit _ _)))

theorem answerCustomToolUse {id : String}
    (unparked : turn.clientParks.has id = false)
    (unanswered : id ∉ (books options outbound start turn).2.answered) (new : id ∉ toolUseIds rest)
    (text : String) (isError : Bool) (replies : Replies) :
    Leaves options outbound start lastUser said rest
      (turn.answerCustomToolUse port id text isError replies) := by
  unfold Turn.answerCustomToolUse
  split
  · exact .running ((kept.answer unparked unanswered new _ _).quiet (Quiet.emit _ _))
  · exact kept.interruptAndFail port _ _ _

theorem runBackendTool {id : String}
    (unparked : turn.clientParks.has id = false)
    (unanswered : id ∉ (books options outbound start turn).2.answered) (new : id ∉ toolUseIds rest)
    (replies : Replies) :
    Leaves options outbound start lastUser said rest (turn.runBackendTool port id replies) := by
  unfold Turn.runBackendTool
  split
  · exact kept.answerCustomToolUse port unparked unanswered new _ _ _
  · exact kept.answerCustomToolUse port unparked unanswered new _ _ _
  · split
    · exact .threw (kept.answer unparked unanswered new _ _)
    · exact .threw kept

/-- A call shown to the frontend enters record, account and turn together. -/
theorem park {id name : String} (input : Option Json)
    {replies : Replies} (frontend : options.clientTools.has name = true)
    (unacked : turn.ackedToolUses.has id = false) (unasked : turn.askedConfirmations.has id = false)
    (unparked : turn.clientParks.has id = false)
    (unanswered : id ∉ (books options outbound start turn).2.answered) (new : id ∉ toolUseIds rest)
    (returns : replies.parks = true) (original : String) :
    Kept options outbound start lastUser said rest
      (((turn.record [.heard (.customToolUse id name input)]).emitToolCall options id original input).park id
        replies).1 := by
  have unawaited : id ∉ (books options outbound start turn).1.pendingClientToolUseIds := by
    intro member
    exact Bool.false_ne_true (unparked.symm.trans ((kept.parks id).mpr ((kept.pending id).mp member)))
  have listed : (books options outbound start turn).1.pendingClientToolUseIds.contains id = false := by
    simpa using unawaited
  have after : books options outbound start
      (((turn.record [.heard (.customToolUse id name input)]).emitToolCall options id original input).park id
        replies).1 =
      ({ (books options outbound start turn).1 with
          pendingClientToolUseIds := (books options outbound start turn).1.pendingClientToolUseIds ++ [id] },
        { (books options outbound start turn).2 with
          awaiting := (books options outbound start turn).2.awaiting ++ [id] }) := by
    change books options outbound start (Turn.record (Turn.record (Turn.record turn _) _) _) = _
    rw [books_record, books_record, books_record, booksOf_told]
    simp only [booksOf, List.foldl, follow, Account.enter, frontend, Run.onCallback, listed]
    rfl
  have parks : ∀ other, (turn.clientParks.add id).has other = true ↔
      other = id ∨ turn.clientParks.has other = true := by
    intro other
    rw [OrderedSet.has_add, Bool.or_eq_true, decide_eq_true_eq]
  have listedIn : ∀ (ids : List String) (other : String), other ∈ ids ++ [id] ↔ other = id ∨ other ∈ ids := by
    intro ids other
    rw [List.mem_append, List.mem_singleton, or_comm]
  have apart : ∀ {other : String} {ids : OrderedSet String}, ids.has id = false -> ids.has other = true ->
      turn.clientParks.has other = false -> (turn.clientParks.add id).has other = false := by
    intro other ids absent present free
    apply Bool.eq_false_iff.mpr
    intro parked
    rcases (parks other).mp parked with same | before
    · exact Bool.false_ne_true (absent.symm.trans (same ▸ present))
    · exact Bool.false_ne_true (free.symm.trans before)
  constructor
  · constructor
    · rw [after]
      exact kept.lastUser
    · rw [after]
      exact kept.said
    · rw [after]
      exact kept.once
    · refine returned_append (returned_append (returned_append kept.returned ?_) (returned_told _)) ?_
      · exact returned_singleton rfl
      · exact returned_singleton returns
  · intro other
    rw [after]
    exact (parks other).trans (((or_congr_right (kept.parks other))).trans (listedIn _ other).symm)
  · intro other
    rw [after]
    exact (listedIn _ other).trans ((or_congr_right (kept.pending other)).trans (listedIn _ other).symm)
  · exact fun other acked => apart unacked acked (kept.acked other acked)
  · exact fun other asked => apart unasked asked (kept.asked other asked)
  · intro other answered
    rw [after] at answered ⊢
    intro member
    rcases (listedIn _ other).mp member with same | before
    · exact unanswered (same ▸ answered)
    · exact kept.settled other answered before
  · exact kept.unacked
  · exact kept.unasked
  · intro other member
    apply Bool.eq_false_iff.mpr
    intro parked
    rcases (parks other).mp parked with same | before
    · exact new (same ▸ member)
    · exact Bool.false_ne_true ((kept.unparked other member).symm.trans before)
  · rw [after]
    exact kept.unanswered

omit kept in
theorem customToolUse {id name : String} {input : Option Json} {replies : Replies}
    (kept : Kept options outbound start lastUser said (.customToolUse id name input :: rest) turn)
    (distinct : (toolUseIds (.customToolUse id name input :: rest)).Nodup) (returns : replies.parks = true) :
    Leaves options outbound start lastUser said rest
      ((turn.record [.heard (.customToolUse id name input)]).customToolUse port options id name input replies) := by
  have new : id ∉ toolUseIds rest := (List.nodup_cons.mp distinct).1
  have listed : id ∈ toolUseIds (.customToolUse id name input :: rest) := List.mem_cons_self
  have going : Kept options outbound start lastUser said rest turn :=
    kept.later fun _ member => List.mem_cons_of_mem _ member
  unfold Turn.customToolUse
  dsimp only
  split
  · rename_i frontend
    have parked := going.park input frontend (kept.unacked id listed) (kept.unasked id listed)
      (kept.unparked id listed) (kept.unanswered id listed) new returns ((options.clientTools.get? name).getD name)
    unfold Turn.park at parked ⊢
    rw [if_pos returns]
    exact .running parked
  · rename_i backend
    have heard := going.heard (.customToolUse id name input) fun _ _ _ same => by
      cases same
      exact Bool.eq_false_iff.mpr backend
    have called := heard.quiet (Quiet.emit _ (toolCallEvents id ((options.clientTools.get? name).getD name)
      (Turn.arguments options input)))
    have unanswered : id ∉ (books options outbound start
        ((turn.record [.heard (.customToolUse id name input)]).emitToolCall options id
          ((options.clientTools.get? name).getD name) input)).2.answered := by
      rw [Turn.emitToolCall, (Quiet.emit _ _).books, books_record]
      simp only [booksOf, List.foldl, follow, Account.enter, Bool.eq_false_iff.mpr backend]
      exact kept.unanswered id listed
    split
    · exact called.runBackendTool port (kept.unparked id listed) unanswered new replies
    · exact called.answerCustomToolUse port (kept.unparked id listed) unanswered new _ _ replies

theorem askedBy {id : String}
    (unparked : turn.clientParks.has id = false) (new : id ∉ toolUseIds rest) (permission : Option String) :
    Kept options outbound start lastUser said rest (turn.askedBy id permission) := by
  unfold Turn.askedBy
  split
  · refine { kept with asked := ?_, unasked := ?_ }
    · intro other asked
      rw [OrderedSet.has_add, Bool.or_eq_true, decide_eq_true_eq] at asked
      rcases asked with same | before
      · exact same ▸ unparked
      · exact kept.asked other before
    · intro other member
      rw [OrderedSet.has_add, kept.unasked other member, Bool.or_false, decide_eq_false_iff_not]
      exact fun same => new (same ▸ member)
  · exact kept

theorem handOver {blockedOn : List String}
    (waited : ∀ id, turn.clientParks.has id = true ->
      (id ∈ blockedOn ↔ id ∈ (books options outbound start turn).2.waitedOn))
    (replies : Replies) :
    Leaves options outbound start lastUser said rest (turn.handOver port blockedOn replies) := by
  unfold Turn.handOver
  dsimp only
  split
  · exact kept.interruptAndFail port _ _ _
  · split
    · have quiet := Quiet.closeAll port turn
      refine .parked (kept.quiet quiet) ?_
      intro id
      rw [quiet.books, List.mem_filter, ← kept.parks]
      constructor
      · exact fun both => ⟨both.2, (waited id both.2).mp both.1⟩
      · exact fun both => ⟨(waited id both.1).mpr both.2, both.1⟩
    · exact .running kept

theorem requiresAction {eventIds : List String}
    (waited : (books options outbound start turn).2.waitedOn = eventIds) (replies : Replies) :
    Leaves options outbound start lastUser said rest (turn.requiresAction port options eventIds replies) := by
  have blocked : ∀ id, turn.clientParks.has id = true ->
      (id ∈ eventIds.filter (fun id => !turn.ackedToolUses.has id) ↔ id ∈ eventIds) := by
    intro id parked
    rw [List.mem_filter]
    apply and_iff_left_of_imp
    intro _
    rw [Bool.not_eq_true', Bool.eq_false_iff]
    exact fun acked => Bool.false_ne_true ((kept.acked id acked).symm.trans parked)
  unfold Turn.requiresAction
  dsimp only
  split
  · exact .running kept
  · split
    · apply kept.handOver port
      rw [waited]
      exact blocked
    · split
      · exact kept.interruptAndFail port _ _ _
      · rename_i result _
        split
        · have posted := kept.confirm
            ((eventIds.filter fun id => !turn.ackedToolUses.has id).filter turn.askedConfirmations.has) result
          have acked := posted.ack
            ((eventIds.filter fun id => !turn.ackedToolUses.has id).filter turn.askedConfirmations.has)
            (fun id member => kept.asked id (List.mem_filter.mp member).2)
            (fun id member later => Bool.false_ne_true
              ((kept.unasked id later).symm.trans (List.mem_filter.mp member).2))
          split
          · exact .running acked
          · apply acked.handOver port
            intro id parked
            refine (blocked id parked).trans ?_
            change id ∈ eventIds ↔ id ∈ (books options outbound start (turn.post _)).2.waitedOn
            rw [waitedOn_post, waited]
        · exact kept.interruptAndFail port _ _ _

theorem statusIdle (stopReason : StopReason)
    (replies : Replies) :
    Leaves options outbound start lastUser said rest
      ((turn.record [.heard (.statusIdle stopReason)]).statusIdle port options stopReason replies) := by
  have heard := kept.heard (.statusIdle stopReason) nofun
  have waited : (books options outbound start (turn.record [.heard (.statusIdle stopReason)])).2.waitedOn =
      stopReason.eventIds := by
    rw [books_record]
    rfl
  unfold Turn.statusIdle
  split
  · refine .finished (heard.quiet (Quiet.closeAll port _)) ?_
    rw [(Quiet.closeAll port _).books]
    exact waited
  · exact heard.fail port _ _
  · exact heard.requiresAction port waited replies
  · exact heard.interruptAndFail port _ _ _

omit kept in
/-- One session event. -/
theorem handle {event : SessionEvent} {replies : Replies}
    (kept : Kept options outbound start lastUser said (event :: rest) turn)
    (distinct : (toolUseIds (event :: rest)).Nodup) (returns : replies.parks = true) :
    Leaves options outbound start lastUser said rest (turn.handle port options event replies) := by
  have subset : ∀ id ∈ toolUseIds rest, id ∈ toolUseIds (event :: rest) :=
    fun id member => ((List.sublist_cons_self event rest).filterMap _).subset member
  have going : Kept options outbound start lastUser said rest turn := kept.later subset
  have heard : (∀ id name input, event ≠ .customToolUse id name input) ->
      Kept options outbound start lastUser said rest (turn.record [.heard event]) :=
    fun unshown => going.heard event fun id name input same => absurd same (unshown id name input)
  rw [Turn.handle]
  cases event with
  | customToolUse id name input => exact kept.customToolUse port distinct returns
  | statusIdle stopReason => exact going.statusIdle port stopReason replies
  | toolUse id name input permission | mcpToolUse id server name input permission =>
    have plain := heard nofun
    refine .running ((plain.quiet (Quiet.emit _ _)).askedBy ?_ (List.nodup_cons.mp distinct).1 permission)
    exact kept.unparked id List.mem_cons_self
  | startMessage id =>
    have plain := heard nofun
    rw [Turn.react, Turn.eventStart]
    split
    · exact .running (plain.quiet (Quiet.openMessage _ id))
    · exact .threw (plain.quiet (Quiet.openMessage _ id))
  | startThinking id =>
    exact .running ((heard nofun).quiet (Quiet.openThinking _ id))
  | delta eventId delta =>
    exact .running ((heard nofun).quiet (Quiet.eventDelta _ eventId delta replies))
  | thinking id =>
    exact .running ((heard nofun).quiet (Quiet.endThinking _ id))
  | message id content =>
    have plain := heard nofun
    rw [Turn.react]
    split
    · exact .running plain
    · exact .running (plain.quiet (Quiet.reconcileMessage _ id _))
  | toolResult id content | mcpToolResult id content =>
    exact .running ((heard nofun).quiet (Quiet.emit _ _))
  | modelRequestEnd isError =>
    have plain := heard nofun
    rw [Turn.react]
    split
    · exact .running (plain.quiet (Quiet.closeAll port _))
    · exact .running plain
  | error type message retryStatus =>
    have plain := heard nofun
    rw [Turn.react, Turn.sessionError]
    split
    · exact .running plain
    · exact plain.fail port _ _
  | statusTerminated | deleted =>
    have plain := heard nofun
    exact .ended (plain.quiet ((Quiet.closeAll port _).trans (Quiet.emit _ _)))
  | startOther id | other => exact .running (heard nofun)

end Kept

theorem Leaves.fewer {rest fewer : List SessionEvent} {result : Turn × Option Exit}
    (leaves : Leaves options outbound start lastUser said rest result) (ended : result.2 ≠ none)
    (fewerIds : ∀ id ∈ toolUseIds fewer, id ∈ toolUseIds rest) :
    Leaves options outbound start lastUser said fewer result := by
  cases leaves with
  | running kept => exact absurd rfl ended
  | threw kept => exact .threw (kept.later fewerIds)
  | finished kept idle => exact .finished (kept.later fewerIds) idle
  | parked kept idle => exact .parked (kept.later fewerIds) idle
  | failed kept => exact .failed (kept.later fewerIds)
  | ended kept => exact .ended (kept.later fewerIds)
  | interrupted cleared =>
    exact .interrupted { cleared with unanswered := fun id member => cleared.unanswered id (fewerIds id member) }

/-- The events of a session, one after another.  The calls of later turns are new throughout. -/
theorem Kept.consume (port : Port) {turn : Turn} {events : List (SessionEvent × Replies)}
    {future : List SessionEvent}
    (kept : Kept options outbound start lastUser said (events.map Prod.fst ++ future) turn)
    (distinct : (toolUseIds (events.map Prod.fst ++ future)).Nodup)
    (returns : ∀ step ∈ events, step.2.parks = true) :
    Leaves options outbound start lastUser said future (turn.consume port options events) := by
  induction events generalizing turn with
  | nil => exact .running kept
  | cons head tail ih =>
    rcases head with ⟨event, replies⟩
    have step := kept.handle port distinct (returns _ List.mem_cons_self)
    have fewer : (toolUseIds (tail.map Prod.fst ++ future)).Nodup :=
      distinct.sublist ((List.sublist_cons_self event _).filterMap _)
    rw [Turn.consume]
    generalize turn.handle port options event replies = result at step
    rcases result with ⟨later, _ | exit⟩
    · cases step with
      | running kept =>
        exact ih kept fewer (List.forall_mem_cons.mp returns).2
    · apply step.fewer (Option.some_ne_none exit)
      intro id member
      exact ((List.sublist_append_right (tail.map Prod.fst) future).filterMap _).subset member

end

end ManagedAgents
end AgUi
