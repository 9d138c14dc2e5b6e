import AgUi.Apply.Subscribers

namespace AgUi
namespace Agent

open Library Protocol Apply

/-!
# The guard of a resumed run

Before a run starts, its resume array has to answer every interrupt that is
pending, and may answer one that has expired only by cancelling it.  Expiry is
checked for the first entry of each interrupt, so an array with several entries
for one may cancel it first and resolve it later.
-/

inductive ResumeStatus where
  | resolved
  | cancelled
deriving DecidableEq

/-- An answer to an interrupt, in the input of the run that resumes. -/
structure ResumeEntry where
  interruptId : String
  status : ResumeStatus
  payload : Option Json := none
  metadata : Option Metadata := none

/-- The time value of `new Date(text)`, with `none` for an invalid date. -/
abbrev DateOf := String -> Option Int

/-- An invalid date compares with nothing. -/
def isInterruptExpired (dateOf : DateOf) (interrupt : Interrupt) (now : Int) : Bool :=
  match interrupt.expiresAt with
  | none => false
  | some expiresAt =>
    match dateOf expiresAt with
    | none => false
    | some expiry => expiry ≤ now

/-- Why a run is not started. -/
inductive InitializeError where
  | unaddressed (interruptIds : List String)
  | expired (interruptId : String) (expiresAt : Option String)
  | subscriber (error : SubscriberError)

def InitializeError.message : InitializeError -> Option String
  | .unaddressed interruptIds =>
    some ("Thread has " ++ toString interruptIds.length ++ " pending interrupt(s) not addressed by resume: " ++
      ", ".intercalate interruptIds)
  | .expired interruptId expiresAt =>
    some ("Interrupt " ++ interruptId ++ " expired at " ++ expiresAt.getD "undefined" ++
      " and can no longer be answered. Cancel it to continue the thread.")
  | .subscriber _ => none

/-- The check of one interrupt after the other, each at the time it is reached. -/
def checkExpired (dateOf : DateOf) (clock : Nat -> Int) (resume : List ResumeEntry) :
    Nat -> List Interrupt -> Except InitializeError Unit
  | _, [] => .ok ()
  | reading, interrupt :: rest =>
    if isInterruptExpired dateOf interrupt (clock reading) then
      if (resume.find? fun entry => entry.interruptId = interrupt.id).map ResumeEntry.status = some .cancelled then
        checkExpired dateOf clock resume (reading + 1) rest
      else .error (.expired interrupt.id interrupt.expiresAt)
    else checkExpired dateOf clock resume (reading + 1) rest

/-- The pending interrupts without an entry. -/
def uncovered (pending : List Interrupt) (resume : List ResumeEntry) : List String :=
  (pending.map Interrupt.id).filter fun id => !(resume.map ResumeEntry.interruptId).contains id

/-- Every pending interrupt is to be answered, and an expired one to be cancelled. -/
def checkResume (dateOf : DateOf) (clock : Nat -> Int) (pending : List Interrupt) (resume : List ResumeEntry) :
    Except InitializeError Unit :=
  if (uncovered pending resume).length > 0 then .error (.unaddressed (uncovered pending resume))
  else checkExpired dateOf clock resume 0 pending

/-- What a run starts from. -/
structure Initialized where
  messages : List Message
  state : Json
  inputMessages : List Message
  inputState : Json

/-- Only a run that `runAgent` starts is checked.  What the subscribers answer
is made fit for the wire again. -/
def onInitialize (dateOf : DateOf) (clock : Nat -> Int) (startsRun isTestEnvironment : Bool)
    (onRunInitialized : AgentSubscriber -> List Message -> Json -> Answer) (subscribers : List AgentSubscriber)
    (pending : List Interrupt) (resume : Option (List ResumeEntry)) (start : Initialized) :
    Except InitializeError Initialized :=
  match if startsRun && !pending.isEmpty then checkResume dateOf clock pending (resume.getD []) else .ok () with
  | .error error => .error error
  | .ok () =>
    match runSubscribersWithMutation isTestEnvironment start.messages start.state onRunInitialized subscribers
        {} with
    | .error error => .error (.subscriber error)
    | .ok mutation =>
      let messages := mutation.messages.map fun messages => messages.map Message.withoutNullTag
      .ok
        { messages := messages.getD start.messages
          state := mutation.state.getD start.state
          inputMessages :=
            (messages.map fun messages => messages.filter fun message => !isActivity message).getD
              start.inputMessages
          inputState := mutation.state.getD start.inputState }

theorem checkExpired_ne_subscriber {dateOf : DateOf} {clock : Nat -> Int} {resume : List ResumeEntry}
    {pending : List Interrupt} {reading : Nat} {failure : SubscriberError} :
    checkExpired dateOf clock resume reading pending ≠ .error (.subscriber failure) := by
  induction pending generalizing reading with
  | nil => exact nofun
  | cons interrupt rest ih =>
    unfold checkExpired
    split
    · split
      · exact ih
      · exact nofun
    · exact ih

/-- The guard does not refuse the run that is started.  A subscriber still may. -/
def PassesGuard (dateOf : DateOf) (clock : Nat -> Int) (isTestEnvironment : Bool)
    (onRunInitialized : AgentSubscriber -> List Message -> Json -> Answer) (subscribers : List AgentSubscriber)
    (pending : List Interrupt) (resume : Option (List ResumeEntry)) (start : Initialized) : Prop :=
  ∀ error, onInitialize dateOf clock true isTestEnvironment onRunInitialized subscribers pending resume start =
    .error error -> ∃ failure, error = .subscriber failure

/-- Whatever the subscribers do, the guard is the check of the resume array. -/
theorem passesGuard_iff (dateOf : DateOf) (clock : Nat -> Int) (isTestEnvironment : Bool)
    (onRunInitialized : AgentSubscriber -> List Message -> Json -> Answer) (subscribers : List AgentSubscriber)
    (pending : List Interrupt) (resume : Option (List ResumeEntry)) (start : Initialized) :
    PassesGuard dateOf clock isTestEnvironment onRunInitialized subscribers pending resume start ↔
      checkResume dateOf clock pending (resume.getD []) = .ok () := by
  have guarded : (if true && !pending.isEmpty then checkResume dateOf clock pending (resume.getD []) else .ok ()) =
      checkResume dateOf clock pending (resume.getD []) := by
    cases pending <;> rfl
  unfold PassesGuard onInitialize
  rw [guarded]
  have ours : ∀ error, checkResume dateOf clock pending (resume.getD []) = .error error ->
      ∀ failure, error ≠ .subscriber failure := by
    intro error refuses failure same
    unfold checkResume at refuses
    split at refuses
    · cases refuses
      cases same
    · exact checkExpired_ne_subscriber (same ▸ refuses)
  cases check : checkResume dateOf clock pending (resume.getD []) with
  | error error =>
    refine iff_of_false (fun passes => ?_) (nofun)
    rcases passes error rfl with ⟨failure, same⟩
    exact ours error check failure same
  | ok _ =>
    refine iff_of_true (fun error stopped => ?_) rfl
    dsimp only at stopped
    split at stopped
    · exact ⟨_, (Except.error.inj stopped).symm⟩
    · cases stopped

/-! ## What the check lets through -/

/-- Every pending interrupt has an entry. -/
def Covered (pending : List Interrupt) (resume : List ResumeEntry) : Prop :=
  ∀ interrupt ∈ pending, ∃ entry ∈ resume, entry.interruptId = interrupt.id

/-- No entry answers an interrupt that is expired when it is checked. -/
def NoneAnsweredLate (dateOf : DateOf) (clock : Nat -> Int) (pending : List Interrupt) (resume : List ResumeEntry) :
    Prop :=
  ∀ reading interrupt, pending[reading]? = some interrupt ->
    isInterruptExpired dateOf interrupt (clock reading) = true ->
    ∀ entry ∈ resume, entry.interruptId = interrupt.id -> entry.status = .cancelled

/-- The first entry for an interrupt cancels it. -/
def CancelledFirst (resume : List ResumeEntry) (interrupt : Interrupt) : Prop :=
  (resume.find? fun entry => entry.interruptId = interrupt.id).map ResumeEntry.status = some .cancelled

theorem uncovered_eq_nil_iff (pending : List Interrupt) (resume : List ResumeEntry) :
    uncovered pending resume = [] ↔ Covered pending resume := by
  unfold uncovered Covered
  rw [List.filter_eq_nil_iff]
  constructor
  · intro covered interrupt member
    have listed := covered interrupt.id (List.mem_map.mpr ⟨interrupt, member, rfl⟩)
    rw [Bool.not_eq_true', Bool.not_eq_false] at listed
    rcases List.mem_map.mp (List.contains_iff_mem.mp listed) with ⟨entry, there, same⟩
    exact ⟨entry, there, same⟩
  · intro covered id member
    rcases List.mem_map.mp member with ⟨interrupt, listed, rfl⟩
    rcases covered interrupt listed with ⟨entry, there, same⟩
    rw [Bool.not_eq_true', Bool.not_eq_false]
    exact List.contains_iff_mem.mpr (List.mem_map.mpr ⟨entry, there, same⟩)

theorem checkExpired_eq_ok_iff (dateOf : DateOf) (clock : Nat -> Int) (resume : List ResumeEntry)
    (pending : List Interrupt) (reading : Nat) :
    checkExpired dateOf clock resume reading pending = .ok () ↔
      ∀ index interrupt, pending[index]? = some interrupt ->
        isInterruptExpired dateOf interrupt (clock (reading + index)) = true -> CancelledFirst resume interrupt := by
  induction pending generalizing reading with
  | nil => exact iff_of_true rfl (nofun)
  | cons interrupt rest ih =>
    have later : (∀ index other, (interrupt :: rest)[index]? = some other ->
        isInterruptExpired dateOf other (clock (reading + index)) = true -> CancelledFirst resume other) ↔
        (isInterruptExpired dateOf interrupt (clock reading) = true -> CancelledFirst resume interrupt) ∧
        ∀ index other, rest[index]? = some other ->
          isInterruptExpired dateOf other (clock (reading + 1 + index)) = true -> CancelledFirst resume other := by
      constructor
      · intro all
        refine ⟨all 0 interrupt rfl, ?_⟩
        intro index other there expired
        apply all (index + 1) other there
        rwa [← Nat.add_assoc, Nat.add_right_comm]
      · rintro ⟨first, others⟩ index other there expired
        cases index with
        | zero =>
          cases there
          exact first expired
        | succ index =>
          apply others index other there
          rwa [Nat.add_right_comm, Nat.add_assoc]
    rw [later, checkExpired]
    split
    · rename_i expired
      split
      · rename_i cancelled
        rw [ih]
        exact ⟨fun others => ⟨fun _ => cancelled, others⟩, fun all => all.2⟩
      · rename_i answered
        exact iff_of_false (nofun) fun all => answered (all.1 expired)
    · rename_i running
      rw [ih]
      exact ⟨fun others => ⟨fun expired => absurd expired running, others⟩, fun all => all.2⟩

/-- What passes: every pending interrupt has an entry, and of an expired one the first cancels it. -/
theorem checkResume_eq_ok_iff (dateOf : DateOf) (clock : Nat -> Int) (pending : List Interrupt)
    (resume : List ResumeEntry) :
    checkResume dateOf clock pending resume = .ok () ↔ Covered pending resume ∧
      ∀ reading interrupt, pending[reading]? = some interrupt ->
        isInterruptExpired dateOf interrupt (clock reading) = true -> CancelledFirst resume interrupt := by
  unfold checkResume
  split
  · rename_i missing
    apply iff_of_false (nofun)
    rintro ⟨covered, _⟩
    rw [(uncovered_eq_nil_iff pending resume).mpr covered] at missing
    exact Nat.lt_irrefl 0 missing
  · rename_i none
    have covered := (uncovered_eq_nil_iff pending resume).mp
      (List.eq_nil_of_length_eq_zero (Nat.eq_zero_of_not_pos none))
    rw [checkExpired_eq_ok_iff]
    simp only [Nat.zero_add]
    exact ⟨fun cancelled => ⟨covered, cancelled⟩, fun all => all.2⟩

/-- An expired interrupt that is cancelled first and answered by a later entry. -/
def AnsweredAgain (dateOf : DateOf) (clock : Nat -> Int) (pending : List Interrupt) (resume : List ResumeEntry) :
    Prop :=
  ∃ reading interrupt, pending[reading]? = some interrupt ∧
    isInterruptExpired dateOf interrupt (clock reading) = true ∧ CancelledFirst resume interrupt ∧
    ∃ entry ∈ resume, entry.interruptId = interrupt.id ∧ entry.status ≠ .cancelled

/-- An interrupt that the check refuses. -/
def Refused (dateOf : DateOf) (clock : Nat -> Int) (pending : List Interrupt) (resume : List ResumeEntry) : Prop :=
  (∃ interrupt ∈ pending,
    ∀ entry ∈ resume, entry.interruptId ≠ interrupt.id) ∨
  ∃ reading interrupt, pending[reading]? = some interrupt ∧
    isInterruptExpired dateOf interrupt (clock reading) = true ∧ ¬ CancelledFirst resume interrupt

/-- What the guard lets through covers every pending interrupt and answers no
expired one, exactly if it refuses an interrupt or none is cancelled by its
first entry and answered by a later one. -/
theorem checkResume_covers_iff (dateOf : DateOf) (clock : Nat -> Int) (isTestEnvironment : Bool)
    (onRunInitialized : AgentSubscriber -> List Message -> Json -> Answer) (subscribers : List AgentSubscriber)
    (pending : List Interrupt) (given : Option (List ResumeEntry)) (start : Initialized) :
    (PassesGuard dateOf clock isTestEnvironment onRunInitialized subscribers pending given start ->
        Covered pending (given.getD []) ∧ NoneAnsweredLate dateOf clock pending (given.getD [])) ↔
      (Refused dateOf clock pending (given.getD []) ∨ ¬ AnsweredAgain dateOf clock pending (given.getD [])) := by
  rw [passesGuard_iff, checkResume_eq_ok_iff]
  generalize given.getD [] = resume
  constructor
  · intro keeps
    by_cases refused : Refused dateOf clock pending resume
    · exact .inl refused
    · right
      rcases not_or.mp refused with ⟨covers, cancels⟩
      have covered : Covered pending resume := by
        intro interrupt member
        by_contra missing
        refine covers ⟨interrupt, member, ?_⟩
        intro entry there same
        exact missing ⟨entry, there, same⟩
      have passes : ∀ reading interrupt, pending[reading]? = some interrupt ->
          isInterruptExpired dateOf interrupt (clock reading) = true -> CancelledFirst resume interrupt := by
        intro reading interrupt there expired
        by_contra answered
        exact cancels ⟨reading, interrupt, there, expired, answered⟩
      rintro ⟨reading, interrupt, there, expired, _, entry, listed, same, answered⟩
      exact answered ((keeps ⟨covered, passes⟩).2 reading interrupt there expired entry listed same)
  · rintro condition ⟨covered, cancelled⟩
    refine ⟨covered, ?_⟩
    intro reading interrupt there expired entry listed same
    by_contra answered
    rcases condition with (⟨missed, member, absent⟩ | ⟨other, refused, stood, late, uncancelled⟩) | single
    · rcases covered missed member with ⟨found, listed', same'⟩
      exact absent found listed' same'
    · exact uncancelled (cancelled other refused stood late)
    · exact single ⟨reading, interrupt, there, expired, cancelled reading interrupt there expired,
        entry, listed, same, answered⟩

/-- Of two interrupts the one that has expired is cancelled and then resolved. -/
def lateInterrupts : List Interrupt :=
  [{ id := "i", reason := "approval", expiresAt := some "2026-01-01T00:00:00Z" }, { id := "j", reason := "approval" }]

def cancelledThenResolved : List ResumeEntry :=
  [{ interruptId := "i", status := .cancelled }, { interruptId := "j", status := .resolved },
    { interruptId := "i", status := .resolved }]

def newYear : DateOf := fun text =>
  if text = "2026-01-01T00:00:00Z" then some 1767225600000 else none

def nextDay : Nat -> Int := fun _ => 1767312000000

/-- Only the first answer to an expired interrupt is looked at. -/
theorem cancelledThenResolved_passes :
    (∀ isTestEnvironment onRunInitialized subscribers start,
      PassesGuard newYear nextDay isTestEnvironment onRunInitialized subscribers lateInterrupts
        (some cancelledThenResolved) start) ∧
      Covered lateInterrupts cancelledThenResolved ∧
      ¬ NoneAnsweredLate newYear nextDay lateInterrupts cancelledThenResolved := by
  have passes : checkResume newYear nextDay lateInterrupts cancelledThenResolved = .ok () := by
    rfl
  refine ⟨fun _ _ _ _ => (passesGuard_iff _ _ _ _ _ _ _ _).mpr passes,
    ((checkResume_eq_ok_iff _ _ _ _).mp passes).1, ?_⟩
  intro none
  have cancelled := none 0 { id := "i", reason := "approval", expiresAt := some "2026-01-01T00:00:00Z" } rfl rfl
    { interruptId := "i", status := .resolved } (by simp [cancelledThenResolved]) rfl
  cases cancelled

/-! ## The array a client builds -/

/-- What the user answers to one interrupt. -/
inductive ResumeResponse where
  | resolved (payload : Option Json) (metadata : Option Metadata)
  | cancelled (metadata : Option Metadata)

def ResumeResponse.entry (interruptId : String) : ResumeResponse -> ResumeEntry
  | resolved payload metadata => { interruptId, status := .resolved, payload, metadata }
  | cancelled metadata => { interruptId, status := .cancelled, metadata }

/-- The responses do not go with the open interrupts. -/
inductive ResumeArrayError where
  | missing (interruptIds : List String)
  | unknown (interruptIds : List String)

def ResumeArrayError.message : ResumeArrayError -> String
  | missing interruptIds =>
    "buildResumeArray: missing responses for open interrupts: " ++ ", ".intercalate interruptIds
  | unknown interruptIds =>
    "buildResumeArray: responses reference unknown interrupt ids: " ++ ", ".intercalate interruptIds

/-- The responses in the order of the interrupts. -/
def resumeEntries (interrupts : List Interrupt) (responses : OrderedMap String ResumeResponse) : List ResumeEntry :=
  interrupts.filterMap fun interrupt => (responses.get? interrupt.id).map (ResumeResponse.entry interrupt.id)

/-- `responses` is a record, with its keys in their order.  Past the checks every interrupt has one. -/
def buildResumeArray (interrupts : List Interrupt) (responses : OrderedMap String ResumeResponse) :
    Except ResumeArrayError (List ResumeEntry) :=
  let openIds := (interrupts.map Interrupt.id).eraseDups
  let missing := openIds.filter fun id => !responses.has id
  let unknown := responses.keys.filter fun id => !openIds.contains id
  if missing.length > 0 then .error (.missing missing)
  else if unknown.length > 0 then .error (.unknown unknown)
  else .ok (resumeEntries interrupts responses)

section

variable {pending : List Interrupt} {responses : OrderedMap String ResumeResponse}

theorem ResumeResponse.interruptId_entry (id : String) (response : ResumeResponse) :
    (response.entry id).interruptId = id := by
  cases response <;> rfl

theorem buildResumeArray_ok_iff {resume : List ResumeEntry} :
    buildResumeArray pending responses = .ok resume ↔
      (∀ id, id ∈ pending.map Interrupt.id ↔ responses.has id = true) ∧
        resumeEntries pending responses = resume := by
  have answered : ((pending.map Interrupt.id).eraseDups.filter fun id => !responses.has id) = [] ∧
      (responses.keys.filter fun id => !(pending.map Interrupt.id).eraseDups.contains id) = [] ↔
      ∀ id, id ∈ pending.map Interrupt.id ↔ responses.has id = true := by
    simp only [List.filter_eq_nil_iff, Bool.not_eq_true', Bool.not_eq_false, List.contains_iff_mem,
      List.mem_eraseDups, OrderedMap.mem_keys_iff, ← forall_and, iff_def]
  rw [← answered, buildResumeArray]
  split
  · rename_i missing
    exact iff_of_false (nofun) fun both => Nat.ne_of_gt missing (congrArg List.length both.1.1)
  · rename_i none
    split
    · rename_i unknown
      exact iff_of_false (nofun) fun both => Nat.ne_of_gt unknown (congrArg List.length both.1.2)
    · rename_i known
      rw [Except.ok.injEq]
      exact (and_iff_right ⟨List.length_eq_zero_iff.mp (Nat.eq_zero_of_not_pos none),
        List.length_eq_zero_iff.mp (Nat.eq_zero_of_not_pos known)⟩).symm

theorem ids_resumeEntries
    (answered : ∀ interrupt ∈ pending, ∃ response, responses.get? interrupt.id = some response) :
    (resumeEntries pending responses).map ResumeEntry.interruptId = pending.map Interrupt.id := by
  induction pending with
  | nil => rfl
  | cons interrupt rest ih =>
    rcases answered interrupt List.mem_cons_self with ⟨response, known⟩
    simp only [resumeEntries, List.filterMap_cons, known, Option.map_some, List.map_cons,
      ResumeResponse.interruptId_entry]
    exact congrArg _ (ih fun other member => answered other (List.mem_cons_of_mem _ member))

/-- Two entries for one interrupt are the same. -/
theorem entries_agree {entry other : ResumeEntry} (member : entry ∈ resumeEntries pending responses)
    (there : other ∈ resumeEntries pending responses) (same : entry.interruptId = other.interruptId) :
    entry = other := by
  rcases List.mem_filterMap.mp member with ⟨interrupt, _, found⟩
  rcases List.mem_filterMap.mp there with ⟨second, _, found'⟩
  rcases Option.map_eq_some_iff.mp found with ⟨response, stored, rfl⟩
  rcases Option.map_eq_some_iff.mp found' with ⟨response', stored', rfl⟩
  rw [ResumeResponse.interruptId_entry, ResumeResponse.interruptId_entry] at same
  rw [same, stored'] at stored
  cases stored
  rw [same]

/-- A client that answers the pending interrupts and no others gets one entry
for each.  Of such an array the guard refuses a late answer and nothing else. -/
theorem buildResumeArray_checked (dateOf : DateOf) (clock : Nat -> Int) (isTestEnvironment : Bool)
    (onRunInitialized : AgentSubscriber -> List Message -> Json -> Answer) (subscribers : List AgentSubscriber)
    (start : Initialized) (same : ∀ id, id ∈ pending.map Interrupt.id ↔ responses.has id = true) :
    ∃ resume, buildResumeArray pending responses = .ok resume ∧
      resume.map ResumeEntry.interruptId = pending.map Interrupt.id ∧
      (PassesGuard dateOf clock isTestEnvironment onRunInitialized subscribers pending (some resume) start ↔
        NoneAnsweredLate dateOf clock pending resume) := by
  have ids : (resumeEntries pending responses).map ResumeEntry.interruptId = pending.map Interrupt.id := by
    apply ids_resumeEntries
    intro interrupt member
    exact (responses.has_eq_true_iff _).mp ((same _).mp (List.mem_map_of_mem member))
  have covered : Covered pending (resumeEntries pending responses) := by
    intro interrupt member
    exact List.mem_map.mp (ids ▸ List.mem_map_of_mem member)
  refine ⟨_, buildResumeArray_ok_iff.mpr ⟨same, rfl⟩, ids, ?_⟩
  rw [passesGuard_iff, Option.getD_some, checkResume_eq_ok_iff, and_iff_right covered]
  refine forall₄_congr fun reading interrupt there _ => ?_
  rcases covered interrupt (List.mem_of_getElem? there) with ⟨entry, listed, named⟩
  -- The check looks at the first entry, and there is no other.
  have first : (resumeEntries pending responses).find? (fun entry => entry.interruptId = interrupt.id) =
      some entry := by
    cases found : (resumeEntries pending responses).find? fun entry => entry.interruptId = interrupt.id with
    | none => exact absurd (decide_eq_true named) (List.find?_eq_none.mp found entry listed)
    | some other =>
      have named' := List.find?_some found
      rw [decide_eq_true_eq] at named'
      rw [entries_agree (List.mem_of_find?_eq_some found) listed (named'.trans named.symm)]
  rw [CancelledFirst, first, Option.map_some, Option.some.injEq]
  constructor
  · intro cancelled other there' same'
    rwa [entries_agree there' listed (same'.trans named.symm)]
  · intro cancelled
    exact cancelled entry listed named

end

/-- The late interrupt is cancelled, the other one answered. -/
def lateResponses : OrderedMap String ResumeResponse :=
  (OrderedMap.empty.set "i" (.cancelled none)).set "j" (.resolved none none)

theorem buildResumeArray_checked_late :
    ∃ resume, buildResumeArray lateInterrupts lateResponses = .ok resume ∧
      resume.map ResumeEntry.interruptId = ["i", "j"] ∧
      (PassesGuard newYear nextDay false (fun _ _ _ => .nothing) [] lateInterrupts
        (some resume) ⟨[], .null, [], .null⟩ ↔
        NoneAnsweredLate newYear nextDay lateInterrupts resume) := by
  have same : ∀ id, id ∈ lateInterrupts.map Interrupt.id ↔ lateResponses.has id = true := by
    intro id
    simp [lateInterrupts, lateResponses, or_comm]
  exact buildResumeArray_checked newYear nextDay false _ [] _ same

end Agent
end AgUi
