import AgUi.ManagedAgents.Delivery

namespace AgUi
namespace ManagedAgents

open Library Protocol

/-!
# What an idle session is told

A session that goes idle names the calls it waits on.  It resumes on its own
time, so it may name calls that have been answered.  What has been answered,
asked and shown to the frontend is what the trace of the turn says; the sets
the turn keeps say the same, except that the results it posts at its start are
in none of them.
-/

/-! ## What the trace says -/

/-- The call an event posted into the session answers. -/
def UserEvent.answers : UserEvent -> Option String
  | .customToolResult id _ _ => some id
  | .toolConfirmation id _ => some id
  | _ => none

/-- The call an event of the session asks to have confirmed. -/
def SessionEvent.asks : SessionEvent -> Option String
  | .toolUse id _ _ permission => if permission = some "ask" then some id else none
  | .mcpToolUse id _ _ _ permission => if permission = some "ask" then some id else none
  | _ => none

/-- The call an event of the session leaves to the frontend. -/
def SessionEvent.leaves (options : TurnOptions) : SessionEvent -> Option String
  | .customToolUse id name _ => if options.clientTools.has name then some id else none
  | _ => none

namespace Trace

def answers (id : String) : Trace -> Bool
  | .posted events => events.any fun event => event.answers = some id
  | _ => false

def asks (id : String) : Trace -> Bool
  | .heard event => event.asks = some id
  | _ => false

def leaves (options : TurnOptions) (id : String) : Trace -> Bool
  | .heard event => event.leaves options = some id
  | _ => false

end Trace

/-- A result or confirmation of the call has been delivered. -/
def answered (log : List Trace) (id : String) : Bool :=
  log.any (Trace.answers id)

/-- The call has asked for a confirmation. -/
def asked (log : List Trace) (id : String) : Bool :=
  log.any (Trace.asks id)

/-- The call has been handed to the frontend. -/
def handedOut (options : TurnOptions) (log : List Trace) (id : String) : Bool :=
  log.any (Trace.leaves options id)

/-- The calls the batch posted at the start answers. -/
def openingAnswers (outbound : List UserEvent) : List String :=
  outbound.filterMap UserEvent.answers

/-! ## What an idle session is owed -/

section

variable (port : Port) (options : TurnOptions)

/-- Confirm what asked, among the calls not yet answered. -/
def confirm (turn : Turn) (calls : List String) : Turn :=
  match options.toolConfirmation with
  | none => turn
  | some result =>
    if calls = [] then turn else (turn.post (calls.map fun id => .toolConfirmation id result)).ack calls

/-- Answer the confirmations.  If nothing else is wanting, wait for the session
to resume; otherwise park on the calls the frontend has not answered. -/
def serve (turn : Turn) (eventIds : List String) : Turn × Option Exit :=
  let pending := eventIds.filter fun id => !answered turn.log id
  let confirmed := confirm options turn (pending.filter (asked turn.log))
  if pending.all (asked turn.log) then (confirmed, none)
  else (confirmed.closeAll port, some (.returned (.parked (pending.filter (handedOut options turn.log)))))

/-- The call has been answered, is a confirmation the policy can answer, or is the frontend's. -/
def Answerable (log : List Trace) (replies : Replies) (id : String) : Prop :=
  answered log id = true ∨
    (asked log id = true ∧ options.toolConfirmation.isSome = true ∧ replies.delivers = true) ∨
    handedOut options log id = true

end

/-! ## The turn's sets -/

/-- What the turn's sets say of its trace, given the calls its opening batch answered. -/
structure Noted (options : TurnOptions) (opening : List String) (turn : Turn) : Prop where
  answered : ∀ id, answered turn.log id = true ↔ id ∈ opening ∨ turn.ackedToolUses.has id = true
  asked : ∀ id, asked turn.log id = turn.askedConfirmations.has id
  handedOut : ∀ id, handedOut options turn.log id = turn.clientParks.has id

theorem answered_append (first second : List Trace) (id : String) :
    answered (first ++ second) id = (answered first id || answered second id) :=
  List.any_append

theorem asked_append (first second : List Trace) (id : String) :
    asked (first ++ second) id = (asked first id || asked second id) :=
  List.any_append

theorem handedOut_append (options : TurnOptions) (first second : List Trace) (id : String) :
    handedOut options (first ++ second) id = (handedOut options first id || handedOut options second id) :=
  List.any_append

theorem answered_told (events : List Event) (id : String) : answered (events.map .told) id = false := by
  induction events with
  | nil => rfl
  | cons event rest ih => exact ih

theorem asked_told (events : List Event) (id : String) : asked (events.map .told) id = false := by
  induction events with
  | nil => rfl
  | cons event rest ih => exact ih

theorem handedOut_told (options : TurnOptions) (events : List Event) (id : String) :
    handedOut options (events.map .told) id = false := by
  induction events with
  | nil => rfl
  | cons event rest ih => exact ih

namespace Noted

variable {options : TurnOptions} {opening : List String} {turn later : Turn}

section

variable (noted : Noted options opening turn)

include noted

theorem quiet (quiet : Quiet turn later) : Noted options opening later := by
  rcases quiet.log with ⟨events, log⟩
  refine ⟨?_, ?_, ?_⟩
  · intro id
    rw [log, answered_append, answered_told, Bool.or_false, quiet.acked]
    exact noted.answered id
  · intro id
    rw [log, asked_append, asked_told, Bool.or_false, quiet.asked]
    exact noted.asked id
  · intro id
    rw [log, handedOut_append, handedOut_told, Bool.or_false, quiet.parks]
    exact noted.handedOut id

/-- Entries that answer, ask and hand out nothing. -/
theorem record {entries : List Trace}
    (silent : ∀ id, ManagedAgents.answered entries id = false) (unasked : ∀ id, ManagedAgents.asked entries id = false)
    (kept : ∀ id, ManagedAgents.handedOut options entries id = false) :
    Noted options opening (turn.record entries) where
  answered id := by
    change ManagedAgents.answered (turn.log ++ entries) id = true ↔ _
    rw [answered_append, silent, Bool.or_false]
    exact noted.answered id
  asked id := by
    change ManagedAgents.asked (turn.log ++ entries) id = _
    rw [asked_append, unasked, Bool.or_false]
    exact noted.asked id
  handedOut id := by
    change ManagedAgents.handedOut options (turn.log ++ entries) id = _
    rw [handedOut_append, kept, Bool.or_false]
    exact noted.handedOut id

/-- An event that asks nothing and is not the frontend's. -/
theorem heard (event : SessionEvent) (unasked : event.asks = none)
    (kept : event.leaves options = none) : Noted options opening (turn.record [.heard event]) := by
  refine noted.record ?_ ?_ ?_
  · intro id
    rfl
  · intro id
    simp [ManagedAgents.asked, Trace.asks, unasked]
  · intro id
    simp [ManagedAgents.handedOut, Trace.leaves, kept]

/-- Calls are answered and entered as answered. -/
theorem answer {events : List UserEvent} {ids : List String}
    (answers : ∀ id, (events.any fun event => event.answers = some id) = true ↔ id ∈ ids) :
    Noted options opening ((turn.post events).ack ids) where
  answered id := by
    change ManagedAgents.answered (turn.log ++ [Trace.posted events]) id = true ↔
      id ∈ opening ∨ (ids.foldl OrderedSet.add turn.ackedToolUses).has id = true
    rw [answered_append, Bool.or_eq_true, OrderedSet.has_foldl_add, noted.answered, ← answers]
    have posted : ManagedAgents.answered [.posted events] id = events.any fun event => event.answers = some id :=
      Bool.or_false _
    rw [posted, or_assoc]
    exact or_congr_right or_comm
  asked id := by
    change ManagedAgents.asked (turn.log ++ [Trace.posted events]) id = _
    rw [asked_append]
    exact (Bool.or_false _).trans (noted.asked id)
  handedOut id := by
    change ManagedAgents.handedOut options (turn.log ++ [Trace.posted events]) id = _
    rw [handedOut_append]
    exact (Bool.or_false _).trans (noted.handedOut id)

theorem answerOne (id : String) (content : List ToolResultBlock) (isError : Bool) :
    Noted options opening ((turn.post [.customToolResult id content isError]).ack [id]) := by
  apply noted.answer
  intro other
  simp [UserEvent.answers, eq_comm]

theorem confirm (ids : List String) (result : Confirmation) :
    Noted options opening ((turn.post (ids.map fun id => .toolConfirmation id result)).ack ids) := by
  apply noted.answer
  intro other
  simp [UserEvent.answers]

end

end Noted

/-- What a step leaves, unless it ends the turn. -/
def GoesOn (options : TurnOptions) (opening : List String) (result : Turn × Option Exit) : Prop :=
  result.2 = none -> Noted options opening result.1

namespace Noted

variable {options : TurnOptions} {opening : List String} {turn : Turn} (port : Port)

section

variable (noted : Noted options opening turn)

include noted

theorem answerCustomToolUse (id text : String) (isError : Bool)
    (replies : Replies) : GoesOn options opening (turn.answerCustomToolUse port id text isError replies) := by
  unfold Turn.answerCustomToolUse
  split
  · exact fun _ => (noted.answerOne id _ _).quiet (Quiet.emit _ _)
  · intro none
    cases none

theorem runBackendTool (id : String) (replies : Replies) :
    GoesOn options opening (turn.runBackendTool port id replies) := by
  unfold Turn.runBackendTool
  split
  · exact noted.answerCustomToolUse port _ _ _ _
  · exact noted.answerCustomToolUse port _ _ _ _
  · split <;> exact fun impossible => absurd impossible (Option.some_ne_none _)

/-- A call of the frontend is handed out. -/
theorem park {id name : String} (input : Option Json) (replies : Replies)
    (frontend : options.clientTools.has name = true) : GoesOn options opening
      (((turn.record [.heard (.customToolUse id name input)]).emitToolCall options id
        ((options.clientTools.get? name).getD name) input).park id replies) := by
  intro _
  have log : ∀ other,
      ManagedAgents.answered (turn.log ++ [Trace.heard (.customToolUse id name input)] ++
        List.map Trace.told
          (toolCallEvents id ((options.clientTools.get? name).getD name) (Turn.arguments options input)) ++
        [.called (.clientPark id) replies.parks]) other = ManagedAgents.answered turn.log other := by
    intro other
    rw [answered_append, answered_append, answered_append, answered_told]
    simp [ManagedAgents.answered, Trace.answers]
  refine ⟨?_, ?_, ?_⟩
  · intro other
    exact Eq.to_iff (congrArg (· = true) (log other)) |>.trans (noted.answered other)
  · intro other
    change ManagedAgents.asked (turn.log ++ [Trace.heard (.customToolUse id name input)] ++
      List.map Trace.told _ ++ [Trace.called (.clientPark id) replies.parks]) other = _
    rw [asked_append, asked_append, asked_append, asked_told, Bool.or_false]
    exact (Bool.or_false _).trans ((Bool.or_false _).trans (noted.asked other))
  · intro other
    change ManagedAgents.handedOut options (turn.log ++ [Trace.heard (.customToolUse id name input)] ++
      List.map Trace.told _ ++ [Trace.called (.clientPark id) replies.parks]) other =
        (turn.clientParks.add id).has other
    rw [handedOut_append, handedOut_append, handedOut_append, handedOut_told, OrderedSet.has_add, noted.handedOut,
      Bool.or_comm (decide _)]
    simp [ManagedAgents.handedOut, Trace.leaves, SessionEvent.leaves, frontend, eq_comm]

theorem customToolUse (id name : String) (input : Option Json) (replies : Replies) : GoesOn options opening
      ((turn.record [.heard (.customToolUse id name input)]).customToolUse port options id name input replies) := by
  unfold Turn.customToolUse
  dsimp only
  split
  · rename_i frontend
    exact noted.park input replies frontend
  · rename_i backend
    have heard := noted.heard (.customToolUse id name input) rfl (if_neg backend)
    have shown := heard.quiet (Quiet.emit _
      (toolCallEvents id ((options.clientTools.get? name).getD name) (Turn.arguments options input)))
    split
    · exact shown.runBackendTool port id replies
    · exact shown.answerCustomToolUse port id _ _ replies

/-- A call that may ask for a confirmation. -/
theorem askedBy {event : SessionEvent} {id : String} {permission : Option String}
    (asks : event.asks = if permission = some "ask" then some id else none) (kept : event.leaves options = none)
    (name : String) (input : Option Json) : Noted options opening
      (((turn.record [.heard event]).emitToolCall options id name input).askedBy id permission) := by
  unfold Turn.askedBy
  split
  · rename_i ask
    rw [if_pos ask] at asks
    refine ⟨?_, ?_, ?_⟩
    · intro other
      change ManagedAgents.answered (turn.log ++ [Trace.heard event] ++ List.map Trace.told _) other = true ↔ _
      rw [answered_append, answered_append, answered_told, Bool.or_false]
      exact (Eq.to_iff (congrArg (· = true) (Bool.or_false _))).trans (noted.answered other)
    · intro other
      change ManagedAgents.asked (turn.log ++ [Trace.heard event] ++ List.map Trace.told _) other =
        (turn.askedConfirmations.add id).has other
      rw [asked_append, asked_append, asked_told, OrderedSet.has_add, noted.asked, Bool.or_comm (decide _)]
      simp [ManagedAgents.asked, Trace.asks, asks, eq_comm]
    · intro other
      change ManagedAgents.handedOut options (turn.log ++ [Trace.heard event] ++ List.map Trace.told _) other = _
      rw [handedOut_append, handedOut_append, handedOut_told, Bool.or_false]
      have none : ManagedAgents.handedOut options [.heard event] other = false := by
        simp [ManagedAgents.handedOut, Trace.leaves, kept]
      rw [none, Bool.or_false]
      exact noted.handedOut other
  · rename_i noAsk
    rw [if_neg noAsk] at asks
    exact (noted.heard event asks kept).quiet (Quiet.emit _ _)

theorem handOver (blockedOn : List String) (replies : Replies) :
    GoesOn options opening (turn.handOver port blockedOn replies) := by
  unfold Turn.handOver
  dsimp only
  split
  · exact fun impossible => absurd impossible (Option.some_ne_none _)
  · split
    · exact fun impossible => absurd impossible (Option.some_ne_none _)
    · exact fun _ => noted

theorem requiresAction (eventIds : List String) (replies : Replies) :
    GoesOn options opening (turn.requiresAction port options eventIds replies) := by
  unfold Turn.requiresAction
  dsimp only
  split
  · exact fun _ => noted
  · split
    · exact noted.handOver port _ replies
    · split
      · exact fun impossible => absurd impossible (Option.some_ne_none _)
      · rename_i result _
        split
        · have confirmed := noted.confirm
            ((eventIds.filter fun id => !turn.ackedToolUses.has id).filter turn.askedConfirmations.has) result
          split
          · exact fun _ => confirmed
          · exact confirmed.handOver port _ replies
        · exact fun impossible => absurd impossible (Option.some_ne_none _)

/-- One session event. -/
theorem handle (event : SessionEvent) (replies : Replies) :
    GoesOn options opening (turn.handle port options event replies) := by
  rw [Turn.handle]
  cases event with
  | customToolUse id name input => exact noted.customToolUse port id name input replies
  | toolUse id name input permission => exact fun _ => noted.askedBy rfl rfl name input
  | mcpToolUse id server name input permission => exact fun _ => noted.askedBy rfl rfl (server ++ ": " ++ name) input
  | statusIdle stopReason =>
    have heard := noted.heard (.statusIdle stopReason) rfl rfl
    cases stopReason with
    | requiresAction eventIds => exact heard.requiresAction port eventIds replies
    | endTurn | retriesExhausted | other type => exact fun impossible => absurd impossible (Option.some_ne_none _)
  | startMessage id =>
    exact fun _ => (noted.heard (.startMessage id) rfl rfl).quiet (Quiet.openMessage _ id)
  | startThinking id =>
    exact fun _ => (noted.heard (.startThinking id) rfl rfl).quiet (Quiet.openThinking _ id)
  | delta eventId delta =>
    exact fun _ => (noted.heard (.delta eventId delta) rfl rfl).quiet (Quiet.eventDelta _ eventId delta replies)
  | thinking id => exact fun _ => (noted.heard (.thinking id) rfl rfl).quiet (Quiet.endThinking _ id)
  | message id content =>
    have heard := noted.heard (.message id content) rfl rfl
    rw [Turn.react]
    split
    · exact fun _ => heard
    · exact fun _ => heard.quiet (Quiet.reconcileMessage _ id _)
  | toolResult id content => exact fun _ => (noted.heard (.toolResult id content) rfl rfl).quiet (Quiet.emit _ _)
  | mcpToolResult id content =>
    exact fun _ => (noted.heard (.mcpToolResult id content) rfl rfl).quiet (Quiet.emit _ _)
  | modelRequestEnd isError =>
    have heard := noted.heard (.modelRequestEnd isError) rfl rfl
    rw [Turn.react]
    split
    · exact fun _ => heard.quiet (Quiet.closeAll port _)
    · exact fun _ => heard
  | error type message retryStatus =>
    rw [Turn.react, Turn.sessionError]
    split
    · exact fun _ => noted.heard _ rfl rfl
    · exact fun impossible => absurd impossible (Option.some_ne_none _)
  | statusTerminated | deleted => exact fun impossible => absurd impossible (Option.some_ne_none _)
  | startOther id | other => exact fun _ => noted.heard _ rfl rfl

theorem consume {events : List (SessionEvent × Replies)} :
    GoesOn options opening (turn.consume port options events) := by
  induction events generalizing turn with
  | nil => exact fun _ => noted
  | cons head tail ih =>
    rcases head with ⟨event, replies⟩
    have step := noted.handle port event replies
    rw [Turn.consume]
    generalize turn.handle port options event replies = result at step
    rcases result with ⟨later, _ | exit⟩
    · exact ih (step rfl)
    · exact fun impossible => absurd impossible (Option.some_ne_none exit)

end

end Noted

/-! ## The start of a turn -/

theorem answered_posted (events : List UserEvent) (id : String) :
    answered [.posted events] id = true ↔ id ∈ openingAnswers events := by
  simp [answered, Trace.answers, openingAnswers]

/-- Messages answer no call. -/
theorem openingAnswers_followUps (outbound : List UserEvent) :
    openingAnswers (outbound.filter UserEvent.isFollowUp) = [] := by
  apply List.filterMap_eq_nil_iff.mpr
  intro event member
  have followUp := (List.mem_filter.mp member).2
  cases event with
  | message text | systemMessage text | interrupt => rfl
  | customToolResult id content isError | toolConfirmation id result => cases followUp

theorem openingAnswers_results (outbound : List UserEvent) (id : String) :
    id ∈ openingAnswers (outbound.filter fun event => !event.isFollowUp) ↔ id ∈ openingAnswers outbound := by
  unfold openingAnswers
  rw [List.mem_filterMap, List.mem_filterMap]
  constructor
  · rintro ⟨event, member, answers⟩
    exact ⟨event, List.mem_of_mem_filter member, answers⟩
  · rintro ⟨event, member, answers⟩
    refine ⟨event, List.mem_filter.mpr ⟨member, ?_⟩, answers⟩
    cases event with
    | customToolResult id content isError | toolConfirmation id result | interrupt => rfl
    | message text | systemMessage text => cases answers

variable {options : TurnOptions} {script : TurnScript} {outbound : List UserEvent} {turn : Turn}

theorem sendResults_noted (sent : sendResults script outbound = (turn, true)) :
    Noted options (openingAnswers outbound) turn := by
  have opening := openingAnswers_results outbound
  unfold sendResults at sent
  dsimp only at sent
  split at sent
  · rename_i none
    cases sent
    rw [none] at opening
    exact ⟨fun id => iff_of_false Bool.false_ne_true (not_or_intro (mt (opening id).mpr List.not_mem_nil)
      Bool.false_ne_true), fun _ => rfl, fun _ => rfl⟩
  · split at sent
    · have same := congrArg Prod.fst sent
      subst same
      refine ⟨?_, fun _ => rfl, fun _ => rfl⟩
      intro id
      change answered ([Trace.posted _] ++ [Trace.called .resultsSent script.resultsSentReturns]) id = true ↔
        _ ∨ false = true
      rw [answered_append, Bool.or_eq_true, answered_posted, opening]
      exact or_congr_right (iff_of_false Bool.false_ne_true Bool.false_ne_true)
    · cases sent

/-- The sends at the start of a turn answer what its batch answers. -/
theorem sendOutbound_noted (sent : sendOutbound script outbound = (turn, true)) :
    Noted options (openingAnswers outbound) turn := by
  unfold sendOutbound at sent
  split at sent
  · cases sent
  · rename_i afterResults results
    have noted : Noted options (openingAnswers outbound) afterResults := sendResults_noted results
    dsimp only at sent
    split at sent
    · cases sent
      exact noted
    · split at sent
      · have same := congrArg Prod.fst sent
        subst same
        have messages : ∀ id, answered [.posted (outbound.filter UserEvent.isFollowUp)] id = false := by
          intro id
          apply Bool.eq_false_iff.mpr
          rw [Ne, answered_posted, openingAnswers_followUps]
          exact List.not_mem_nil
        exact (noted.record messages (fun _ => rfl) fun _ => rfl).record (fun _ => rfl) (fun _ => rfl) fun _ => rfl
      · cases sent

/-! ## The idle event -/

namespace Turn

/-- The calls the turn takes the session to wait on. -/
def blockedOn (turn : Turn) (eventIds : List String) : List String :=
  eventIds.filter fun id => !turn.ackedToolUses.has id

/-- No call the turn has not entered as answered asks for what the policy cannot answer. -/
def Confirmable (options : TurnOptions) (turn : Turn) (eventIds : List String) (replies : Replies) : Prop :=
  ∀ id ∈ turn.blockedOn eventIds, turn.askedConfirmations.has id = true ->
    options.toolConfirmation.isSome = true ∧ replies.delivers = true

/-- The turn has ended in an error. -/
def Errs (result : Turn × Option Exit) : Prop :=
  ∃ sessionEnded sessionInterrupted,
    result.2 = some (.returned (.errored sessionEnded sessionInterrupted))

variable (port : Port) {options : TurnOptions} {turn : Turn} {eventIds : List String} {replies : Replies}

theorem requiresAction_confirmable (confirmable : turn.Confirmable options eventIds replies) :
    turn.requiresAction port options eventIds replies =
      if (turn.blockedOn eventIds).all turn.askedConfirmations.has then
        (confirm options turn ((turn.blockedOn eventIds).filter turn.askedConfirmations.has), none)
      else
        (confirm options turn ((turn.blockedOn eventIds).filter turn.askedConfirmations.has)).handOver port
          (turn.blockedOn eventIds) replies := by
  unfold requiresAction
  change (if turn.blockedOn eventIds = [] then (turn, none) else
    if (turn.blockedOn eventIds).filter turn.askedConfirmations.has = [] then _ else _) = _
  by_cases nothing : turn.blockedOn eventIds = []
  · rw [if_pos nothing, nothing, List.filter_nil, List.all_nil, if_pos rfl]
    unfold confirm
    split <;> rfl
  · rw [if_neg nothing]
    by_cases unasked : (turn.blockedOn eventIds).filter turn.askedConfirmations.has = []
    · have notAll : ¬ (turn.blockedOn eventIds).all turn.askedConfirmations.has = true := by
        intro all
        rw [List.filter_eq_self.mpr fun id member => List.all_eq_true.mp all id member] at unasked
        exact nothing unasked
      rw [if_pos unasked, if_neg notAll, unasked]
      unfold confirm
      split <;> rfl
    · rw [if_neg unasked]
      rcases List.exists_mem_of_ne_nil _ unasked with ⟨id, member⟩
      rcases List.mem_filter.mp member with ⟨blocked, ask⟩
      rcases confirmable id blocked ask with ⟨policy, delivers⟩
      rcases Option.isSome_iff_exists.mp policy with ⟨result, configured⟩
      have allIff : (turn.blockedOn eventIds).all turn.askedConfirmations.has = true ↔
          ((turn.blockedOn eventIds).filter turn.askedConfirmations.has).length =
            (turn.blockedOn eventIds).length := by
        rw [List.length_filter_eq_length_iff, List.all_eq_true]
      simp only [configured, delivers, if_true, confirm, if_neg unasked, allIff]
      rfl

theorem requiresAction_errs (unconfirmable : ¬ turn.Confirmable options eventIds replies) :
    Errs (turn.requiresAction port options eventIds replies) := by
  unfold Confirmable at unconfirmable
  push Not at unconfirmable
  rcases unconfirmable with ⟨id, blocked, ask, unanswerable⟩
  have some : turn.blockedOn eventIds ≠ [] := List.ne_nil_of_mem blocked
  have asking : (turn.blockedOn eventIds).filter turn.askedConfirmations.has ≠ [] :=
    List.ne_nil_of_mem (List.mem_filter.mpr ⟨blocked, ask⟩)
  unfold requiresAction
  change Errs (if turn.blockedOn eventIds = [] then (turn, none) else
    if (turn.blockedOn eventIds).filter turn.askedConfirmations.has = [] then _ else _)
  rw [if_neg some, if_neg asking]
  split
  · exact ⟨_, _, rfl⟩
  · rename_i result configured
    have undelivered : ¬ replies.delivers = true := fun delivers =>
      unanswerable (configured ▸ rfl) delivers
    rw [if_neg undelivered]
    exact ⟨_, _, rfl⟩

theorem handOver_known (replies : Replies) (blocked : List String) (later : Turn)
    (known : ∀ id ∈ blocked, later.askedConfirmations.has id = true ∨ later.clientParks.has id = true)
    (notAll : ¬ blocked.all later.askedConfirmations.has = true) :
    later.handOver port blocked replies =
      (later.closeAll port, some (.returned (.parked (blocked.filter later.clientParks.has)))) := by
  have noneUnknown : blocked.filter (fun id => !later.askedConfirmations.has id && !later.clientParks.has id) = [] := by
    apply List.filter_eq_nil_iff.mpr
    intro id member
    rcases known id member with ask | park
    · simp [ask]
    · simp [park]
  have someParked : blocked.filter later.clientParks.has ≠ [] := by
    intro none
    apply notAll
    rw [List.all_eq_true]
    intro id member
    exact (known id member).resolve_right fun park => List.filter_eq_nil_iff.mp none id member park
  unfold handOver
  dsimp only
  rw [if_neg (not_not_intro noneUnknown), if_pos someParked]

/-- Handing over keeps what is answered; it ends the turn on the frontend's
calls among those the session waits on, or in an error. -/
theorem handOver_spec (replies : Replies) (later : Turn) (blocked : List String) :
    Errs (later.handOver port blocked replies) ∨
      ((later.handOver port blocked replies).1.ackedToolUses = later.ackedToolUses ∧
        (∀ id ∈ blocked, later.askedConfirmations.has id = false ->
          (later.handOver port blocked replies).2 =
            some (.returned (.parked (blocked.filter later.clientParks.has))) ∧
          later.clientParks.has id = true)) := by
  by_cases unknown : blocked.filter (fun id => !later.askedConfirmations.has id && !later.clientParks.has id) = []
  · right
    have park : ∀ id ∈ blocked, later.askedConfirmations.has id = false ->
        later.clientParks.has id = true := by
      intro id member unasked
      have known := List.filter_eq_nil_iff.mp unknown id member
      rw [unasked] at known
      simpa using known
    unfold handOver
    dsimp only
    rw [if_neg (not_not_intro unknown)]
    split
    · refine ⟨(Quiet.closeAll port later).acked, ?_⟩
      intro id member unasked
      exact ⟨rfl, park id member unasked⟩
    · rename_i none
      refine ⟨rfl, ?_⟩
      intro id member unasked
      exact absurd (List.ne_nil_of_mem (List.mem_filter.mpr ⟨member, park id member unasked⟩)) none
  · left
    unfold handOver
    dsimp only
    rw [if_pos unknown]
    exact ⟨_, _, rfl⟩

end Turn

section Serve

variable (port : Port) {options : TurnOptions} {opening : List String} {turn : Turn} {eventIds : List String}
  {replies : Replies}

theorem serve_not_errs : ¬ Turn.Errs (serve port options turn eventIds) := by
  rintro ⟨sessionEnded, sessionInterrupted, errs⟩
  unfold serve at errs
  dsimp only at errs
  split at errs <;> cases errs

theorem has_acked_confirm (turn : Turn) (calls : List String) (id : String) :
    (confirm options turn calls).ackedToolUses.has id = true ↔
      turn.ackedToolUses.has id = true ∨ (options.toolConfirmation.isSome = true ∧ id ∈ calls) := by
  unfold confirm
  cases options.toolConfirmation with
  | none => simp
  | some result =>
    dsimp only
    split
    · rename_i none
      simp [none]
    · change (calls.foldl OrderedSet.add turn.ackedToolUses).has id = true ↔ _
      rw [OrderedSet.has_foldl_add]
      simp [or_comm]

theorem asked_confirm (turn : Turn) (calls : List String) :
    (confirm options turn calls).askedConfirmations = turn.askedConfirmations := by
  unfold confirm
  split
  · rfl
  · split <;> rfl

theorem parks_confirm (turn : Turn) (calls : List String) :
    (confirm options turn calls).clientParks = turn.clientParks := by
  unfold confirm
  split
  · rfl
  · split <;> rfl

/-- Nothing that has been answered is answered again. -/
theorem acked_serve {id : String} (acked : (serve port options turn eventIds).1.ackedToolUses.has id = true) :
    turn.ackedToolUses.has id = true ∨ answered turn.log id = false := by
  have fresh : (confirm options turn ((eventIds.filter fun id => !answered turn.log id).filter
      (asked turn.log))).ackedToolUses.has id = true -> turn.ackedToolUses.has id = true ∨
        answered turn.log id = false := by
    rw [has_acked_confirm]
    rintro (before | ⟨_, member⟩)
    · exact .inl before
    · exact .inr (by simpa using (List.mem_filter.mp (List.mem_filter.mp member).1).2)
  unfold serve at acked
  dsimp only at acked
  split at acked
  · exact fresh acked
  · rw [(Quiet.closeAll port _).acked] at acked
    exact fresh acked

/-- Nothing that has been answered is parked on. -/
theorem parked_serve {calls : List String}
    (exit : (serve port options turn eventIds).2 = some (.returned (.parked calls))) (id : String)
    (member : id ∈ calls) :
    answered turn.log id = false := by
  unfold serve at exit
  dsimp only at exit
  split at exit
  · cases exit
  · cases exit
    simpa using (List.mem_filter.mp (List.mem_filter.mp member).1).2

/-- The turn does what the session is owed just when it has entered as answered
every named call that its opening batch answered, and no other call asks for
what the policy cannot answer. -/
theorem requiresAction_eq_serve_iff (noted : Noted options opening turn)
    (answerable : ∀ id ∈ eventIds, Answerable options turn.log replies id) :
    turn.requiresAction port options eventIds replies = serve port options turn eventIds ↔
      (∀ id ∈ eventIds, id ∈ opening -> turn.ackedToolUses.has id = true) ∧
        turn.Confirmable options eventIds replies := by
  have askedEq : asked turn.log = turn.askedConfirmations.has := funext noted.asked
  have handedEq : handedOut options turn.log = turn.clientParks.has := funext noted.handedOut
  constructor
  · intro same
    have confirmable : turn.Confirmable options eventIds replies := by
      by_contra unconfirmable
      exact serve_not_errs port (same ▸ Turn.requiresAction_errs port unconfirmable)
    refine ⟨?_, confirmable⟩
    intro id named opened
    by_contra unacked
    have settled : answered turn.log id = true := (noted.answered id).mpr (.inl opened)
    have blocked : id ∈ turn.blockedOn eventIds := by
      refine List.mem_filter.mpr ⟨named, ?_⟩
      rw [Bool.eq_false_iff.mpr unacked]
      rfl
    have notErrs : ¬ Turn.Errs (serve port options turn eventIds) := serve_not_errs port
    rw [Turn.requiresAction_confirmable port confirmable] at same
    have handOver := Turn.handOver_spec port replies
      (confirm options turn ((turn.blockedOn eventIds).filter turn.askedConfirmations.has)) (turn.blockedOn eventIds)
    rw [asked_confirm, parks_confirm] at handOver
    -- a call that asks is confirmed a second time; any other is what the turn parks on
    cases ask : turn.askedConfirmations.has id with
    | true =>
      have confirmed : (confirm options turn
          ((turn.blockedOn eventIds).filter turn.askedConfirmations.has)).ackedToolUses.has id = true :=
        (has_acked_confirm turn _ id).mpr
          (.inr ⟨(confirmable id blocked ask).1, List.mem_filter.mpr ⟨blocked, ask⟩⟩)
      have acked : (serve port options turn eventIds).1.ackedToolUses.has id = true := by
        rw [← same]
        split
        · exact confirmed
        · rename_i notAll
          rw [if_neg notAll] at same
          rcases handOver with errs | ⟨kept, _⟩
          · exact absurd (same ▸ errs) notErrs
          · rw [kept]
            exact confirmed
      exact (acked_serve port acked).elim unacked (Bool.eq_false_iff.mp · settled)
    | false =>
      have notAll : ¬ (turn.blockedOn eventIds).all turn.askedConfirmations.has = true := by
        rw [List.all_eq_true]
        exact fun all => Bool.false_ne_true (ask.symm.trans (all id blocked))
      rw [if_neg notAll] at same
      rcases handOver with errs | ⟨_, parks⟩
      · exact notErrs (same ▸ errs)
      · rcases parks id blocked ask with ⟨exit, park⟩
        have waits := parked_serve port (same ▸ exit) id (List.mem_filter.mpr ⟨blocked, park⟩)
        exact Bool.eq_false_iff.mp waits settled
  · rintro ⟨entered, confirmable⟩
    have pending : eventIds.filter (fun id => !answered turn.log id) = turn.blockedOn eventIds := by
      apply List.filter_congr
      intro id named
      congr 1
      rw [Bool.eq_iff_iff, noted.answered]
      exact or_iff_right_of_imp (entered id named)
    rw [Turn.requiresAction_confirmable port confirmable]
    unfold serve
    dsimp only
    rw [pending, askedEq, handedEq]
    split
    · rfl
    · rename_i notAll
      have handOver := Turn.handOver_known port replies (turn.blockedOn eventIds)
        (confirm options turn ((turn.blockedOn eventIds).filter turn.askedConfirmations.has))
      rw [asked_confirm, parks_confirm] at handOver
      refine handOver ?_ notAll
      intro id member
      rcases List.mem_filter.mp member with ⟨named, unacked⟩
      rw [← askedEq, ← handedEq]
      rcases answerable id named with done | ⟨ask, _⟩ | park
      · rcases (noted.answered id).mp done with opened | acked
        · exact absurd (entered id named opened) (by simpa using unacked)
        · exact absurd acked (by simpa using unacked)
      · exact .inl ask
      · exact .inr park

end Serve

/-- Wherever a turn has come to, it does what an idle session is owed just when
each named call its opening batch answered has been answered again since, and no
other call asks for what the policy cannot answer. -/
theorem idle_served_iff (port : Port) (options : TurnOptions) (script : TurnScript) (outbound : List UserEvent)
    (events : List (SessionEvent × Replies)) (start turn : Turn) (sent : sendOutbound script outbound = (start, true))
    (reached : start.consume port options events = (turn, none)) (eventIds : List String) (replies : Replies)
    (answerable : ∀ id ∈ eventIds, Answerable options turn.log replies id) :
    turn.handle port options (.statusIdle (.requiresAction eventIds)) replies =
        serve port options (turn.record [.heard (.statusIdle (.requiresAction eventIds))]) eventIds ↔
      (∀ id ∈ eventIds, id ∈ openingAnswers outbound -> turn.ackedToolUses.has id = true) ∧
        turn.Confirmable options eventIds replies := by
  have noted : Noted options (openingAnswers outbound) turn := by
    have going : GoesOn options (openingAnswers outbound) (start.consume port options events) :=
      (sendOutbound_noted sent).consume port
    rw [reached] at going
    exact going rfl
  have heard := noted.heard (.statusIdle (.requiresAction eventIds)) rfl rfl
  refine requiresAction_eq_serve_iff port heard ?_
  intro id named
  change Answerable options (turn.log ++ [Trace.heard (.statusIdle (.requiresAction eventIds))]) replies id
  unfold Answerable
  rw [answered_append, asked_append, handedOut_append]
  rcases answerable id named with done | ⟨ask, able⟩ | park
  · exact .inl (by rw [done, Bool.true_or])
  · exact .inr (.inl ⟨by rw [ask, Bool.true_or], able⟩)
  · exact .inr (.inr (by rw [park, Bool.true_or]))

/-- A turn with one frontend tool. -/
def pickingOptions : TurnOptions where
  clientTools := OrderedMap.ofList [("pick", "pick")]
  stringify := fun _ => "\x7b\x7d"

/-- A turn that has posted a result, answered an unknown tool and shown a frontend call. -/
def pickingTurn : Turn :=
  ((sendOutbound {} [.customToolResult "earlier" [] false]).1.consume .typescript pickingOptions
    [(.customToolUse "unknown" "lookup" none, {}), (.customToolUse "shown" "pick" none, {})]).1

/-- Named together, the answered call is passed over and the turn parks on the frontend's. -/
theorem idle_served_picking :
    pickingTurn.handle .typescript pickingOptions (.statusIdle (.requiresAction ["unknown", "shown"])) {} =
      serve .typescript pickingOptions
        (pickingTurn.record [.heard (.statusIdle (.requiresAction ["unknown", "shown"]))]) ["unknown", "shown"] := by
  refine (idle_served_iff .typescript pickingOptions {} [.customToolResult "earlier" [] false]
    [(.customToolUse "unknown" "lookup" none, {}), (.customToolUse "shown" "pick" none, {})] _ pickingTurn
    rfl (Prod.ext rfl (by decide +kernel)) ["unknown", "shown"] {} ?_).mpr ⟨?_, ?_⟩
  · intro id named
    rcases List.mem_cons.mp named with rfl | named
    · exact .inl (by decide +kernel)
    · cases List.mem_singleton.mp named
      exact .inr (.inr (by decide +kernel))
  · intro id named opened
    cases List.mem_singleton.mp opened
    revert named
    decide
  · intro id blocked ask
    have none : ∀ id ∈ pickingTurn.blockedOn ["unknown", "shown"],
        pickingTurn.askedConfirmations.has id ≠ true := by
      decide +kernel
    exact absurd ask (none id blocked)

/-- The result posted at the start of the turn is answered; a session that still
names its call is interrupted. -/
theorem idle_naming_opening_not_served :
    (∀ id ∈ ["earlier"], Answerable pickingOptions pickingTurn.log {} id) ∧
      pickingTurn.handle .typescript pickingOptions (.statusIdle (.requiresAction ["earlier"])) {} ≠
        serve .typescript pickingOptions
          (pickingTurn.record [.heard (.statusIdle (.requiresAction ["earlier"]))]) ["earlier"] := by
  refine ⟨?_, ?_⟩
  · intro id named
    cases List.mem_singleton.mp named
    exact .inl (by decide +kernel)
  · intro same
    have exits := congrArg Prod.snd same
    revert exits
    decide +kernel

end ManagedAgents
end AgUi
