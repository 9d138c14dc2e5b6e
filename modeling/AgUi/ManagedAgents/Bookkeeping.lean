import AgUi.ManagedAgents.Delivery

namespace AgUi
namespace ManagedAgents

open Library Protocol Verify

/-!
# The record of a thread matches its session

Over any sequence of runs of one thread, and until the session ends, the
record's pending calls are exactly the frontend calls the account still awaits,
no call is answered twice, and the user's messages have been delivered in
order, none twice and none left out since the first.

Within a run the record is the one in the store, entry by entry of the trace;
what a turn leaves is then settled by its outcome.
-/

/-! ## The session of a thread -/

/-- A session is announced when it is created, and ends where a turn returns that it has ended. -/
def survives (live : Bool) : Trace -> Bool
  | .told (.custom event) => live || event.name == "managed_agents.session"
  | .returned (.errored true _) => false
  | _ => live

/-- Whether a thread has a session after a run, as its trace shows. -/
def lives (live : Bool) (log : List Trace) : Bool :=
  log.foldl survives live

theorem lives_append (live : Bool) (first second : List Trace) :
    lives live (first ++ second) = lives (lives live first) second :=
  List.foldl_append

theorem survives_ordinary {entry : Trace} (ordinary : Ordinary entry = true) : survives true entry = true := by
  cases entry with
  | told event => cases event <;> rfl
  | returned outcome => cases ordinary
  | heard _ | posted _ | called _ _ => rfl

/-- What the store holds for a thread, whether the thread has a session, and
its account since the session was created. -/
structure Thread where
  stored : Option SessionRecord := none
  live : Bool := false
  account : Account := {}

/-! ## The run keeps its record in the store -/

/-- The run's record is the one in the store and on the books, the session lives,
and the account is what the log shows. -/
structure Tracks (isFrontend : String -> Bool) (thread : Thread) (run : Run) (books : Books) : Prop where
  session : run.session = some books.1
  stored : run.stored = some books.1
  live : lives thread.live run.log = true
  account : thread.account.read isFrontend run.log = books.2

section

variable {isFrontend : String -> Bool} {thread : Thread} {account : Account}

theorem read_append (account : Account) (log : List Trace) (entries : List Trace) :
    account.read isFrontend (log ++ entries) = (account.read isFrontend log).read isFrontend entries :=
  List.foldl_append

theorem read_emit (account : Account) (run : Run) (event : Event) :
    account.read isFrontend (run.emit event).log = account.read isFrontend run.log := by
  unfold Run.emit
  split
  · split
    · rfl
    · exact read_append account run.log _
  · exact read_append account run.log _

theorem session_emit (run : Run) (event : Event) : (run.emit event).session = run.session := by
  unfold Run.emit
  split
  · split
    · rfl
    · rfl
  · rfl

theorem stored_emit (run : Run) (event : Event) : (run.emit event).stored = run.stored := by
  unfold Run.emit
  split
  · split
    · rfl
    · rfl
  · rfl

/-- The end of a run changes nothing about its session. -/
theorem lives_emit (live : Bool) (run : Run) {event : Event} (ends : endsRun event = true) :
    lives live (run.emit event).log = lives live run.log := by
  unfold Run.emit
  rw [if_pos ends]
  split
  · rfl
  · rw [lives_append]
    cases event <;> first | rfl | cases ends

namespace Tracks

variable {run : Run} {books : Books} (tracks : Tracks isFrontend thread run books)

include tracks

theorem record {entry : Trace} (ordinary : Ordinary entry = true) :
    lives thread.live (run.log ++ [entry]) = true := by
  rw [lives_append, tracks.live]
  exact survives_ordinary ordinary

theorem emit (event : Event) :
    Tracks isFrontend thread (run.emit event) books where
  session := (session_emit run event).trans tracks.session
  stored := (stored_emit run event).trans tracks.stored
  live := by
    have told : lives thread.live (run.log ++ [Trace.told event]) = true := tracks.record rfl
    unfold Run.emit
    split
    · split
      · exact tracks.live
      · exact told
    · exact told
  account := (read_emit thread.account run event).trans tracks.account

theorem post (events : List UserEvent) :
    Tracks isFrontend thread (run.post events) (books.1, books.2.post events) where
  session := tracks.session
  stored := tracks.stored
  live := tracks.record rfl
  account := by
    rw [Run.post, read_append, tracks.account]
    rfl

theorem store (record : SessionRecord) :
    Tracks isFrontend thread (run.store record true) (record, books.2) where
  session := rfl
  stored := rfl
  live := tracks.live
  account := tracks.account

theorem forgetParkedCalls {world : World} (stores : world.storesForgotten = true) :
    Tracks isFrontend thread (run.forgetParkedCalls books.1 world)
      ({ books.1 with pendingClientToolUseIds := [] }, books.2) := by
  unfold Run.forgetParkedCalls
  split
  · rename_i none
    have same : { books.1 with pendingClientToolUseIds := [] } = books.1 := by
      rw [← none]
    rw [same]
    exact tracks
  · rw [stores]
    exact tracks.store _

/-- A turn that returns, unless because the session has ended. -/
theorem returns {outcome : TurnOutcome} (outbound : Outbound) (goes : survives true (.returned outcome) = true) :
    Tracks isFrontend thread { run with log := run.log ++ [Trace.returned outcome] }
      (follow isFrontend outbound books (.returned outcome)) where
  session := tracks.session
  stored := tracks.stored
  live := by
    rw [lives_append, tracks.live]
    exact goes
  account := by
    rw [read_append, tracks.account]
    rfl

/-- What the turn did, entry by entry. -/
theorem take (outbound : Outbound) {entry : Trace} (ordinary : Ordinary entry = true) :
    Tracks isFrontend thread (run.take outbound entry) (follow isFrontend outbound books entry) := by
  have entered : thread.account.read isFrontend (run.log ++ [entry]) = books.2.enter isFrontend entry := by
    rw [read_append, tracks.account]
    rfl
  have live := tracks.record ordinary
  cases entry with
  | told event => exact tracks.emit event
  | called callback succeeded =>
    have returned : succeeded = true := ordinary
    subst returned
    unfold Run.take
    dsimp only
    rw [tracks.session, Option.bind_some]
    cases found : Run.onCallback outbound books.1 callback with
    | none =>
      refine ⟨?_, ?_, live, entered⟩
      · simp [follow, found]
      · simp [follow, found, tracks.stored]
    | some record =>
      refine ⟨?_, ?_, live, entered⟩
      · simp [follow, found, Run.store]
      · simp [follow, found, Run.store]
  | heard event | posted event => exact ⟨tracks.session, tracks.stored, live, entered⟩
  | returned outcome => cases ordinary

theorem takes (outbound : Outbound) {entries : List Trace} (returned : Returned entries) :
    Tracks isFrontend thread (entries.foldl (Run.take outbound) run)
      (booksOf isFrontend outbound books entries) := by
  induction entries generalizing run books with
  | nil => exact tracks
  | cons entry rest ih =>
    have parts := List.forall_mem_cons.mp returned
    exact ih (tracks.take outbound parts.1) parts.2

end Tracks

/-! ## How a run leaves its thread -/

variable {users : List (String × UserContent)} {future : List SessionEvent}

/-- The thread after a run: the session lives, and its record in the store
agrees with the account; or there is neither a session nor a record. -/
inductive Settled (isFrontend : String -> Bool) (thread : Thread) (users : List (String × UserContent))
    (future : List SessionEvent) (run : Run) : Prop
  | kept {record : SessionRecord} (stored : run.stored = some record) (live : lives thread.live run.log = true)
      (balanced : Balanced users future (record, thread.account.read isFrontend run.log))
  | gone (stored : run.stored = none) (dead : lives thread.live run.log = false)
      (once : (thread.account.read isFrontend run.log).answered.Nodup)
      (unanswered : ∀ id ∈ toolUseIds future, id ∉ (thread.account.read isFrontend run.log).answered)

theorem Tracks.settled {run : Run} {books : Books} (tracks : Tracks isFrontend thread run books)
    (balanced : Balanced users future books) : Settled isFrontend thread users future run := by
  refine .kept tracks.stored tracks.live ?_
  rw [tracks.account]
  exact balanced

theorem Settled.emit {run : Run} (settled : Settled isFrontend thread users future run) {event : Event}
    (ends : endsRun event = true) : Settled isFrontend thread users future (run.emit event) := by
  have read : thread.account.read isFrontend _ = thread.account.read isFrontend _ := read_emit thread.account run event
  have same := lives_emit thread.live run ends
  cases settled with
  | kept stored live balanced => exact .kept ((stored_emit run event).trans stored) (same.trans live) (read ▸ balanced)
  | gone stored dead once unanswered =>
    exact .gone ((stored_emit run event).trans stored) (same.trans dead) (read ▸ once) (read ▸ unanswered)

/-- How a part of a run leaves it.  One that failed still has its record at hand. -/
inductive Done (isFrontend : String -> Bool) (thread : Thread) (users : List (String × UserContent))
    (future : List SessionEvent) : Run × Completion -> Prop
  | resolved {run : Run} (settled : Settled isFrontend thread users future run) :
      Done isFrontend thread users future (run, .resolved)
  | rejected {run : Run} {books : Books} (tracks : Tracks isFrontend thread run books)
      (balanced : Balanced users future books) : Done isFrontend thread users future (run, .rejected)
  | sessionless {run : Run} (none : run.session = none) (settled : Settled isFrontend thread users future run) :
      Done isFrontend thread users future (run, .rejected)

/-- Nothing is pending, nothing is awaited. -/
theorem Balanced.clear {books : Books} (balanced : Balanced users future books) (record : SessionRecord)
    (none : record.pendingClientToolUseIds = []) (lastUser : record.lastUserMessageId = books.1.lastUserMessageId)
    (later : Account) (nothing : later.awaiting = []) (answered : later.answered = books.2.answered)
    (said : later.said = books.2.said) : Balanced users future (record, later) where
  pending id := by
    rw [none, nothing]
  once := by
    rw [answered]
    exact balanced.once
  settled id _ := by
    rw [nothing]
    exact List.not_mem_nil
  unanswered := by
    rw [answered]
    exact balanced.unanswered
  unawaited id _ := by
    rw [nothing]
    exact List.not_mem_nil
  delivered := by
    rw [lastUser, said]
    exact balanced.delivered

/-- The interrupt sent while a failed run is torn down cancels what is awaited. -/
theorem tearDown_settled {run : Run} {books : Books} (tracks : Tracks isFrontend thread run books)
    (balanced : Balanced users future books) {world : World} (stores : world.storesForgotten = true) :
    Settled isFrontend thread users future (tearDown world run) := by
  unfold tearDown
  rw [tracks.session]
  dsimp only
  split
  · split
    · have forgot := (tracks.post [.interrupt]).forgetParkedCalls stores
      apply forgot.settled
      apply balanced.clear
      · rfl
      · rfl
      · rfl
      · exact List.append_nil _
      · exact List.append_nil _
    · exact tracks.settled balanced
  · exact tracks.settled balanced

/-- Partial answers: what they leave unanswered stays pending. -/
theorem Balanced.answerSome {books : Books} (balanced : Balanced users future books) {outbound : Outbound}
    (posts : Posts books.1.pendingClientToolUseIds [] outbound) :
    Balanced users future
      ({ books.1 with pendingClientToolUseIds := outbound.stillParked }, books.2.post outbound.events) := by
  rcases posts.split with ⟨results, split, only⟩
  have onlyResults : OnlyResults outbound.events := by
    rw [split, List.map_nil, List.append_nil]
    exact only
  have uninterrupted : UserEvent.interrupt ∉ outbound.events := by
    intro member
    rcases onlyResults _ member with ⟨id, content, isError, impossible⟩
    cases impossible
  have awaiting : ∀ id, id ∈ (books.2.post outbound.events).awaiting ↔
      id ∈ books.2.awaiting ∧ id ∉ answeredIds outbound.events := by
    intro id
    rw [Account.post, if_neg uninterrupted, List.mem_filter, decide_eq_true_eq]
  have pendingOf : ∀ id ∈ answeredIds outbound.events, id ∈ books.2.awaiting :=
    fun id member => (balanced.pending id).mp ((posts.answered id).mp member).1
  constructor
  · intro id
    rw [awaiting, ← balanced.pending, posts.answered]
    constructor
    · exact fun parked => ⟨posts.left id parked, fun both => both.2 parked⟩
    · rintro ⟨pending, unanswered⟩
      by_contra resumed
      exact unanswered ⟨pending, resumed⟩
  · refine List.nodup_append.mpr ⟨balanced.once, posts.once, ?_⟩
    rintro id earlier other member rfl
    exact balanced.settled id earlier (pendingOf id member)
  · intro id answered member
    rcases List.mem_append.mp answered with earlier | now
    · exact balanced.settled id earlier ((awaiting id).mp member).1
    · exact ((awaiting id).mp member).2 now
  · intro id member answered
    rcases List.mem_append.mp answered with earlier | now
    · exact balanced.unanswered id member earlier
    · exact balanced.unawaited id member (pendingOf id now)
  · exact fun id member awaited => balanced.unawaited id member ((awaiting id).mp awaited).1
  · have said : (books.2.post outbound.events).said = books.2.said := by
      rw [Account.post, onlyResults.said]
      exact List.append_nil _
    dsimp only
    rw [said]
    exact balanced.delivered

end

/-! ## The end of the turn -/

section

variable {options : TurnOptions} {outbound : Outbound} {start : Books} {thread : Thread}
  {users : List (String × UserContent)} {future : List SessionEvent} {lastUser : Option String} {said : List String}
  {run : Run} {books : Books} {world : World}

/-- Calls are released by the idle event a turn ends on, in the record as in the account. -/
theorem Kept.release {turn : Turn} (kept : Kept options outbound start lastUser said future turn)
    (delivered : Delivered users lastUser said) {ids : List String}
    (idle : ∀ id, id ∈ ids ↔ id ∈ (ManagedAgents.books options outbound start turn).2.awaiting ∧
      id ∈ (ManagedAgents.books options outbound start turn).2.waitedOn) :
    Balanced users future
      ({ (ManagedAgents.books options outbound start turn).1 with pendingClientToolUseIds := ids },
        (ManagedAgents.books options outbound start turn).2.release) := by
  have balanced := kept.balanced delivered
  have awaiting : ∀ id, id ∈ (ManagedAgents.books options outbound start turn).2.release.awaiting ↔
      id ∈ (ManagedAgents.books options outbound start turn).2.awaiting ∧
        id ∈ (ManagedAgents.books options outbound start turn).2.waitedOn := by
    intro id
    rw [Account.release, List.mem_filter, decide_eq_true_eq]
  constructor
  · exact fun id => (idle id).trans (awaiting id).symm
  · exact balanced.once
  · exact fun id answered member => balanced.settled id answered ((awaiting id).mp member).1
  · exact balanced.unanswered
  · exact fun id member awaited => balanced.unawaited id member ((awaiting id).mp awaited).1
  · exact balanced.delivered

/-- The record is brought in line with the outcome, which the account has read already. -/
theorem Leaves.recordOutcome {turn : Turn} {outcome : TurnOutcome}
    (leaves : Leaves options outbound start lastUser said future (turn, some (.returned outcome)))
    (delivered : Delivered users lastUser said)
    (tracks : Tracks options.clientTools.has thread run (ManagedAgents.books options outbound start turn))
    (outcomeStored : world.storesOutcome = true) (forgottenStored : world.storesForgotten = true) :
    ∃ later,
      { run with log := run.log ++ [Trace.returned outcome] }.recordOutcome
          (ManagedAgents.books options outbound start turn).1 outcome world = (later, .resolved) ∧
        Settled options.clientTools.has thread users future later := by
  unfold Run.recordOutcome
  rw [outcomeStored]
  have returns := fun goes => @Tracks.returns _ _ _ _ tracks outcome outbound goes
  cases leaves with
  | finished kept idle =>
    have none : ∀ id, id ∈ ([] : List String) ↔
        id ∈ (ManagedAgents.books options outbound start turn).2.awaiting ∧
          id ∈ (ManagedAgents.books options outbound start turn).2.waitedOn := by
      intro id
      rw [idle]
      exact iff_of_false List.not_mem_nil fun both => List.not_mem_nil both.2
    have balanced := kept.release delivered none
    dsimp only
    split
    · rename_i nothing
      refine ⟨_, rfl, (returns rfl).settled ?_⟩
      rw [← nothing] at balanced
      exact balanced
    · exact ⟨_, rfl, ((returns rfl).store _).settled balanced⟩
  | parked kept idle => exact ⟨_, rfl, ((returns rfl).store _).settled (kept.release delivered idle)⟩
  | failed kept => exact ⟨_, rfl, (returns rfl).settled (kept.balanced delivered)⟩
  | ended kept =>
    have read : thread.account.read options.clientTools.has (run.log ++ [Trace.returned (.errored true false)]) =
        (ManagedAgents.books options outbound start turn).2 := by
      rw [read_append, tracks.account]
      rfl
    have dead : lives thread.live (run.log ++ [Trace.returned (.errored true false)]) = false := lives_append _ _ _
    refine ⟨_, rfl, .gone rfl dead ?_ ?_⟩
    · exact read ▸ kept.once
    · exact read ▸ kept.unanswered
  | interrupted cleared =>
    have unawaited : ∀ id, id ∉ (ManagedAgents.books options outbound start turn).2.awaiting := by
      intro id
      rw [cleared.nothing]
      exact List.not_mem_nil
    refine ⟨_, rfl, ((returns rfl).forgetParkedCalls forgottenStored).settled ?_⟩
    constructor
    · exact fun id => iff_of_false List.not_mem_nil (unawaited id)
    · exact cleared.once
    · exact fun id _ => unawaited id
    · exact cleared.unanswered
    · exact fun id _ => unawaited id
    · change Delivered users (ManagedAgents.books options outbound start turn).1.lastUserMessageId
        (ManagedAgents.books options outbound start turn).2.said
      rw [cleared.lastUser, cleared.said]
      exact delivered

/-- The turn of a run, and what the run makes of it. -/
theorem driveTurn_done {agent : Agent} {input : RunInput}
    (tracks : Tracks (turnOptions agent input).clientTools.has thread run start)
    (turned : Turned (turnOptions agent input) outbound start users future
      (runTurn .typescript (turnOptions agent input) world.turn outbound.events))
    (outcomeStored : world.storesOutcome = true) (forgottenStored : world.storesForgotten = true) :
    Done (turnOptions agent input).clientTools.has thread users future
      (driveTurn agent world input run outbound) := by
  unfold driveTurn
  dsimp only
  generalize runTurn .typescript (turnOptions agent input) world.turn outbound.events = result at turned
  cases turned with
  | stopped balanced returned =>
    dsimp only [Exit.trace]
    rw [List.append_nil]
    exact .rejected (tracks.takes outbound returned) balanced
  | @left turn exit lastUser said delivered leaves =>
    have returned : Returned turn.log := by
      cases leaves with
      | threw kept | finished kept | parked kept | failed kept | ended kept => exact kept.returned
      | interrupted cleared => exact cleared.returned
    cases exit with
    | threw =>
      dsimp only [Exit.trace]
      rw [List.append_nil]
      cases leaves with
      | threw kept => exact .rejected (tracks.takes outbound returned) (kept.balanced delivered)
    | returned outcome =>
      dsimp only [Exit.trace]
      have taken := tracks.takes outbound returned
      rcases leaves.recordOutcome delivered taken outcomeStored forgottenStored with ⟨later, same, settled⟩
      rw [List.foldl_append, List.foldl_cons, List.foldl_nil]
      generalize turn.log.foldl (Run.take outbound) run = after at taken same ⊢
      have entered : Run.take outbound after (.returned outcome) =
          { after with log := after.log ++ [Trace.returned outcome] } :=
        rfl
      rw [entered]
      dsimp only
      split
      · rename_i record returned held
        cases returned
        have own : record = (ManagedAgents.books (turnOptions agent input) outbound start turn).1 :=
          Option.some.inj (held.symm.trans taken.session)
        rw [own, same]
        cases outcome with
        | errored sessionEnded sessionInterrupted => exact .resolved settled
        | finished | parked ids => exact .resolved (settled.emit rfl)
      · rename_i absent
        exact absurd taken.session (absent _ _ rfl)

end

/-! ## Over the runs of a thread -/

/-- The store neither fails nor evicts. -/
structure World.Reliable (world : World) : Prop where
  gets : world.storeGets = true
  created : world.storesCreated = true
  answers : world.storesAnswers = true
  outcome : world.storesOutcome = true
  forgotten : world.storesForgotten = true
  resultsSent : world.turn.resultsSentReturns = true
  followUpsSent : world.turn.followUpsSentReturns = true
  parks : ∀ step ∈ world.turn.events, step.2.parks = true

/-- A history whose messages have ids, each its own. -/
structure Identified (messages : List InputMessage) : Prop where
  unique : (messages.map InputMessage.id).Nodup
  named : ∀ message ∈ messages, message.id ≠ ""

/-- The session events of a run. -/
def World.stream (world : World) : List SessionEvent :=
  world.turn.events.map Prod.fst

section

variable {agent : Agent} {world : World} {input : RunInput} {thread : Thread}
  {users : List (String × UserContent)} {future : List SessionEvent}

theorem userMessages_ids (messages : List InputMessage) :
    ((userMessages messages).map Prod.fst).Sublist (messages.map InputMessage.id) := by
  induction messages with
  | nil => exact List.Sublist.slnil
  | cons message rest ih =>
    cases message with
    | user id content => exact ih.cons_cons id
    | tool id toolCallId content error => exact ih.cons id
    | other id => exact ih.cons id

/-- The messages a run has to say, and the id they would be known by. -/
theorem delivers {record : SessionRecord} {messages : List InputMessage} (identified : Identified messages)
    {said : List String} (delivered : Delivered (userMessages messages) record.lastUserMessageId said)
    (worded : (followUps (undelivered record.lastUserMessageId messages)).map Prod.snd ≠ []) :
    ∃ id, id ≠ "" ∧ (outboundEvents record messages).lastUserMessageId = some id ∧
      Delivered (userMessages messages) (some id)
        (said ++ (followUps (undelivered record.lastUserMessageId messages)).map Prod.snd) := by
  cases found : (followUps (undelivered record.lastUserMessageId messages)).getLast? with
  | none =>
    rw [List.getLast?_eq_none_iff.mp found] at worded
    exact absurd rfl worded
  | some last =>
    have unique := identified.unique.sublist (userMessages_ids messages)
    have later := delivered.deliver unique found
    refine ⟨last.1, ?_, ?_, later⟩
    · have listed : last.1 ∈ messages.map InputMessage.id := by
        cases later with
        | @upTo before after id content skipped said split texts =>
          apply (userMessages_ids messages).subset
          rw [split, List.map_append]
          exact List.mem_append_right _ List.mem_cons_self
      rcases List.mem_map.mp listed with ⟨message, member, same⟩
      rw [← same]
      exact identified.named message member
    · rw [outboundEvents_lastUserMessageId, found]
      rfl

/-- With a session at hand, a run does one of the things it can do with it. -/
theorem runWithSession_done {run : Run} {record : SessionRecord} (reliable : world.Reliable)
    (identified : Identified input.messages)
    (tracks : Tracks (turnOptions agent input).clientTools.has thread run (record, thread.account))
    (balanced : Balanced (userMessages input.messages) (world.stream ++ future) (record, thread.account))
    (distinct : (toolUseIds (world.stream ++ future)).Nodup) :
    Done (turnOptions agent input).clientTools.has thread (userMessages input.messages) future
      (if world.syncs = false then (run, .rejected)
      else
        let outbound := outboundEvents record input.messages
        if outbound.events = [] then
          (run.runError "There is nothing new to send: no user message or tool result in this run."
            "nothing_to_send", .resolved)
        else if outbound.stillParked ≠ [] then stayParked world input run record outbound
        else driveTurn agent world input run outbound) := by
  have fewer : ∀ id ∈ toolUseIds future, id ∈ toolUseIds (world.stream ++ future) :=
    fun id member => ((List.sublist_append_right _ future).filterMap _).subset member
  have even := balanced.later fewer
  have posts := outboundEvents_posts record input.messages
  split
  · exact .rejected tracks even
  · dsimp only
    split
    · exact .resolved ((tracks.settled even).emit rfl)
    · split
      · rename_i parked
        have silent := posts.silent parked
        rw [silent] at posts
        have last : (outboundEvents record input.messages).lastUserMessageId.or record.lastUserMessageId =
            record.lastUserMessageId := by
          rw [outboundEvents_lastUserMessageId, List.map_eq_nil_iff.mp silent]
          rfl
        unfold stayParked
        split
        · rw [last, reliable.answers]
          exact .resolved ((((tracks.post _).store _).settled (even.answerSome posts)).emit rfl)
        · exact .rejected tracks even
      · rename_i unparked
        have turned : Turned (turnOptions agent input) _ _ _ _ _ := runTurn_turned .typescript world.turn balanced posts
          (not_not.mp unparked) reliable.resultsSent reliable.followUpsSent reliable.parks
          (delivers identified balanced.delivered) distinct
        exact driveTurn_done tracks turned reliable.outcome reliable.forgotten

/-- The record a thread with none is taken to have. -/
def blank : SessionRecord where
  sessionId := ""

theorem Balanced.fresh {account : Account} (balanced : Balanced users future (blank, account)) (sessionId : String) :
    Balanced users future ({ sessionId := sessionId }, account) where
  pending := balanced.pending
  once := balanced.once
  settled := balanced.settled
  unanswered := balanced.unanswered
  unawaited := balanced.unawaited
  delivered := balanced.delivered

/-- How the session of the thread comes about, if it does. -/
inductive Opens (isFrontend : String -> Bool) (thread : Thread) (users : List (String × UserContent))
    (rest future : List SessionEvent) : Run × Completion -> Prop
  | session {run : Run} {record : SessionRecord} (tracks : Tracks isFrontend thread run (record, thread.account))
      (balanced : Balanced users rest (record, thread.account)) :
      Opens isFrontend thread users rest future (run, .resolved)
  | sessionless {run : Run} {completion : Completion} (none : run.session = none)
      (settled : Settled isFrontend thread users future run) :
      Opens isFrontend thread users rest future (run, completion)

theorem getOrCreateSession_opens {isFrontend : String -> Bool} {rest : List SessionEvent} {run : Run}
    (reliable : world.Reliable) (none : run.session = none) (known : run.stored.isSome = thread.live)
    (lived : lives thread.live run.log = thread.live) (read : thread.account.read isFrontend run.log = thread.account)
    (balanced : Balanced users rest (run.stored.getD blank, thread.account))
    (fewer : ∀ id ∈ toolUseIds future, id ∈ toolUseIds rest) :
    Opens isFrontend thread users rest future (getOrCreateSession world input run) := by
  unfold getOrCreateSession
  rw [reliable.gets, if_neg (fun impossible => Bool.false_ne_true impossible.symm)]
  split
  · rename_i existing stored
    rw [stored] at balanced known
    exact .session ⟨rfl, stored, lived.trans known.symm, read⟩ balanced
  · rename_i stored
    rw [stored] at balanced known
    have gone : Settled isFrontend thread users future run := by
      refine .gone stored (lived.trans known.symm) ?_ ?_
      · rw [read]
        exact balanced.once
      · rw [read]
        exact (balanced.later fewer).unanswered
    split
    · exact .sessionless none gone
    · split
      · exact .sessionless none gone
      · rename_i sessionId _
        rw [reliable.created]
        refine .session ⟨?_, ?_, ?_, ?_⟩ (balanced.fresh sessionId)
        · exact session_emit _ _
        · exact stored_emit _ _
        · unfold Run.emit
          rw [if_neg (by exact Bool.false_ne_true)]
          change lives thread.live (run.log ++ [_]) = true
          rw [lives_append]
          exact Bool.or_true _
        · exact (read_emit _ _ _).trans read

theorem runGated_done {run : Run} (reliable : world.Reliable) (identified : Identified input.messages)
    (none : run.session = none) (known : run.stored.isSome = thread.live)
    (lived : lives thread.live run.log = thread.live)
    (read : thread.account.read (turnOptions agent input).clientTools.has run.log = thread.account)
    (balanced : Balanced (userMessages input.messages) (world.stream ++ future)
      (run.stored.getD blank, thread.account))
    (distinct : (toolUseIds (world.stream ++ future)).Nodup) :
    Done (turnOptions agent input).clientTools.has thread (userMessages input.messages) future
      (runGated agent world input run) := by
  have fewer : ∀ id ∈ toolUseIds future, id ∈ toolUseIds (world.stream ++ future) :=
    fun id member => ((List.sublist_append_right _ future).filterMap _).subset member
  have opens : Opens _ thread _ _ future (getOrCreateSession world input run) :=
    getOrCreateSession_opens reliable none known lived read balanced fewer
  unfold runGated
  generalize getOrCreateSession world input run = result at opens
  cases opens with
  | session tracks balanced =>
    dsimp only
    rw [tracks.session]
    exact runWithSession_done reliable identified tracks balanced distinct
  | @sessionless run completion none settled =>
    cases completion with
    | rejected => exact .sessionless none settled
    | resolved =>
      dsimp only
      rw [none]
      exact .resolved (settled.emit rfl)

/-- What is known of a run before it looks at its thread. -/
theorem begin_unchanged (isFrontend : String -> Bool) (thread : Thread) (input : RunInput)
    (stored : Option SessionRecord) :
    (begin input { stored := stored }).session = none ∧ (begin input { stored := stored }).stored = stored ∧
      lives thread.live (begin input { stored := stored }).log = thread.live ∧
      thread.account.read isFrontend (begin input { stored := stored }).log = thread.account := by
  unfold begin
  cases input.state with
  | none => exact ⟨session_emit _ _, stored_emit _ _, rfl, read_emit _ _ _⟩
  | some state =>
    dsimp only
    split
    · exact ⟨session_emit _ _, stored_emit _ _, rfl, read_emit _ _ _⟩
    · refine ⟨?_, ?_, rfl, ?_⟩
      · rw [session_emit, session_emit]
      · rw [stored_emit, stored_emit]
      · rw [read_emit, read_emit]
        rfl

/-- One run takes the thread from one state in which record and account agree to another. -/
theorem run_settled (reliable : world.Reliable) (identified : Identified input.messages)
    (known : thread.stored.isSome = thread.live)
    (balanced : Balanced (userMessages input.messages) (world.stream ++ future)
      (thread.stored.getD blank, thread.account))
    (distinct : (toolUseIds (world.stream ++ future)).Nodup) :
    Settled (turnOptions agent input).clientTools.has thread (userMessages input.messages) future
      (run agent world input thread.stored) := by
  have fewer : ∀ id ∈ toolUseIds future, id ∈ toolUseIds (world.stream ++ future) :=
    fun id member => ((List.sublist_append_right _ future).filterMap _).subset member
  rcases begin_unchanged (turnOptions agent input).clientTools.has thread input thread.stored with
    ⟨none, same, lived, read⟩
  have untouched : Settled (turnOptions agent input).clientTools.has thread (userMessages input.messages) future
      (begin input { stored := thread.stored }) := by
    cases stored : thread.stored with
    | none =>
      rw [stored] at known same lived read
      refine .gone same (lived.trans known.symm) ?_ ?_
      · rw [read]
        exact balanced.once
      · rw [read]
        exact (balanced.later fewer).unanswered
    | some record =>
      rw [stored] at known same lived read balanced
      refine .kept same (lived.trans known.symm) ?_
      rw [read]
      exact balanced.later fewer
  have done : ∃ later completion,
      runTurnForInput agent world input thread.stored = (later, completion) ∧
        Settled (turnOptions agent input).clientTools.has thread (userMessages input.messages) future later := by
    unfold runTurnForInput
    dsimp only
    split
    · exact ⟨_, _, rfl, untouched.emit rfl⟩
    · split
      · exact ⟨_, _, rfl, untouched.emit rfl⟩
      · split
        · exact ⟨_, _, rfl, untouched.emit rfl⟩
        · rw [← same] at balanced
          have gated : Done _ thread _ future (runGated agent world input _) :=
            runGated_done reliable identified none (by rw [same]; exact known) lived read balanced distinct
          generalize runGated agent world input (begin input { stored := thread.stored }) = result at gated
          cases gated with
          | resolved settled => exact ⟨_, _, rfl, settled⟩
          | rejected tracks balanced => exact ⟨_, _, rfl, tearDown_settled tracks balanced reliable.forgotten⟩
          | sessionless none settled =>
            refine ⟨_, _, rfl, ?_⟩
            unfold tearDown
            rw [none]
            exact settled
  rcases done with ⟨later, completion, result, settled⟩
  unfold run
  rw [result]
  cases completion with
  | resolved => exact settled
  | rejected =>
    dsimp only
    split
    · exact settled
    · split
      · exact settled.emit rfl
      · exact settled.emit rfl

end

/-- A run of a thread: its surroundings and its input. -/
abbrev Visit := World × RunInput

namespace Thread

variable (agent : Agent)

/-- One more run.  Where the session has ended the next one starts anew, but for
the calls that have been answered. -/
def next (thread : Thread) (visit : Visit) : Thread :=
  let run := run agent visit.1 visit.2 thread.stored
  let live := lives thread.live run.log
  let account := thread.account.read (turnOptions agent visit.2).clientTools.has run.log
  { stored := run.stored, live := live, account := if live then account else { answered := account.answered } }

/-- The thread after the visits, from nothing. -/
def after (visits : List Visit) : Thread :=
  visits.foldl (next agent) {}

def books (thread : Thread) : Books :=
  (thread.stored.getD blank, thread.account)

end Thread

/-- Every tool call of every run has an id of its own, every history extends the
one before, and the store can be relied upon. -/
structure Coherent (visits : List Visit) : Prop where
  reliable : ∀ visit ∈ visits, visit.1.Reliable
  identified : ∀ visit ∈ visits, Identified visit.2.messages
  grows : (visits.map fun visit => visit.2.messages).Pairwise List.IsPrefix
  distinct : (toolUseIds (visits.flatMap fun visit => visit.1.stream)).Nodup

/-- The texts of a history that are worth sending. -/
def wordedTexts (messages : List InputMessage) : List String :=
  (followUps (userMessages messages)).map Prod.snd

section

variable {agent : Agent}

theorem toolUseIds_append (first second : List SessionEvent) :
    toolUseIds (first ++ second) = toolUseIds first ++ toolUseIds second :=
  List.filterMap_append

theorem Thread.next_balanced {thread : Thread} {visit : Visit} {future : List SessionEvent}
    (reliable : visit.1.Reliable) (identified : Identified visit.2.messages)
    (known : thread.stored.isSome = thread.live)
    (balanced : Balanced (userMessages visit.2.messages) (visit.1.stream ++ future) thread.books)
    (distinct : (toolUseIds (visit.1.stream ++ future)).Nodup) :
    (thread.next agent visit).stored.isSome = (thread.next agent visit).live ∧
      Balanced (userMessages visit.2.messages) future (thread.next agent visit).books := by
  have settled : Settled (turnOptions agent visit.2).clientTools.has thread _ future _ :=
    run_settled reliable identified known balanced distinct
  unfold Thread.next Thread.books
  generalize run agent visit.1 visit.2 thread.stored = later at settled ⊢
  cases settled with
  | kept stored live balanced =>
    dsimp only
    rw [stored, live]
    exact ⟨rfl, balanced⟩
  | gone stored dead once unanswered =>
    dsimp only
    rw [stored, dead]
    have nothing : ∀ id : String, id ∉ ([] : List String) := fun _ => List.not_mem_nil
    exact ⟨rfl, fun id => iff_of_false (nothing id) (nothing id), once, fun id _ => nothing id, unanswered,
      fun id _ => nothing id, .nothing⟩

/-- A whole history of runs. -/
theorem Thread.visits_balanced {visits : List Visit} (coherent : Coherent visits) {history : List InputMessage}
    (grown : ∀ visit ∈ visits, history <+: visit.2.messages) {thread : Thread}
    (known : thread.stored.isSome = thread.live)
    (balanced : Balanced (userMessages history) (visits.flatMap fun visit => visit.1.stream) thread.books) :
    (visits.foldl (Thread.next agent) thread).stored.isSome = (visits.foldl (Thread.next agent) thread).live ∧
      Balanced (userMessages ((visits.getLast?.map fun visit => visit.2.messages).getD history)) []
      (visits.foldl (Thread.next agent) thread).books := by
  induction visits generalizing history thread with
  | nil => exact ⟨known, balanced⟩
  | cons visit rest ih =>
    have grows := List.pairwise_cons.mp coherent.grows
    have distinct := coherent.distinct
    rw [List.flatMap_cons] at balanced distinct
    have step : _ ∧ Balanced _ _ (thread.next agent visit).books := Thread.next_balanced
      (coherent.reliable visit List.mem_cons_self)
      (coherent.identified visit List.mem_cons_self) known
      (balanced.extend ((grown visit List.mem_cons_self).filterMap _)) distinct
    rw [toolUseIds_append] at distinct
    have later : Coherent rest :=
      ⟨(List.forall_mem_cons.mp coherent.reliable).2,
        (List.forall_mem_cons.mp coherent.identified).2, grows.2,
        (List.nodup_append.mp distinct).2.1⟩
    have whole := ih later
      (fun later member => grows.1 _ (List.mem_map_of_mem member)) step.1 step.2
    have last : ((visit :: rest).getLast?.map fun visit => visit.2.messages).getD history =
        (rest.getLast?.map fun visit => visit.2.messages).getD visit.2.messages := by
      rw [List.getLast?_cons]
      cases rest.getLast? with
      | none => rfl
      | some last => rfl
    rw [last, List.foldl_cons]
    exact whole

/-- A call is parked in the first run; the second answers it and moves on. -/
def parkingVisit : Visit :=
  ({ creates := some "session"
     turn :=
       { events :=
           [(.customToolUse "c" "show" none, {}), (.statusIdle (.requiresAction ["c"]), {})] } },
    { threadId := "thread"
      runId := "first"
      messages := [.user "u" (.text "Hello")]
      tools := ["show"] })

def answeringVisit : Visit :=
  ({ turn := { events := [(.customToolUse "d" "show" none, {}), (.statusIdle .endTurn, {})] } },
    { threadId := "thread"
      runId := "second"
      messages := [.user "u" (.text "Hello"), .tool "t" "c" (.text "Shown") none, .user "v" (.text "Thanks")]
      tools := ["show"] })

/-- The account as it would read if every idle event released the calls it does
not wait on, whatever the turn makes of it. -/
def Account.enterIdle (isFrontend : String -> Bool) (account : Account) : Trace -> Account
  | .heard (.statusIdle stopReason) =>
    { account with awaiting := account.awaiting.filter fun id => id ∈ stopReason.eventIds }
  | .returned _ => account
  | entry => account.enter isFrontend entry

/-- The session shows a call and then gives up. -/
def exhaustedVisit : Visit :=
  ({ creates := some "session"
     turn :=
       { events :=
           [(.customToolUse "c" "show" none, {}), (.statusIdle .retriesExhausted, {})] } },
    { threadId := "thread"
      runId := "first"
      messages := [.user "u" (.text "Hello")]
      tools := ["show"] })

end

end ManagedAgents
end AgUi
