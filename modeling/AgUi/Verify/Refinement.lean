import AgUi.Verify.Record

namespace AgUi
namespace Verify

open Library Protocol

/-!
# The verifier refines its record

Each handler of the verifier succeeds exactly when its record allows the
event, and leaves a state that reads as the next record.  Put together, the
verifier accepts a stream from a reachable state exactly when the record of
that state admits the events one after the other.
-/

/-- A handler that succeeds under `condition`, moves the record to `target`
and leaves the flags between runs alone. -/
abbrev Moves (state : VerifyState) (condition : Prop) (target : Record) :
    Except AGUIError VerifyState -> Prop :=
  Decides condition fun after => after.record = target ∧ after.flags = state.flags

/-! ## Streamed entities -/

theorem subagentTagError_eq_none_iff (type : EventType) (tag : Option String) (owner : Option Owner)
    (entityKind entityId : String) :
    subagentTagError type tag owner entityKind entityId = none ↔ TagAgrees owner tag := by
  cases tag with
  | none => exact iff_of_true rfl (tagAgrees_none owner)
  | some name =>
    cases owner with
    | none => exact iff_of_true rfl (none_tagAgrees (some name))
    | some known =>
      by_cases same : known = some name <;> simp [subagentTagError, TagAgrees, same]

theorem tagAgrees_of_none {type : EventType} {tag : Option String} {owner : Option Owner}
    {entityKind entityId : String}
    (fine : subagentTagError type tag owner entityKind entityId = none) : TagAgrees owner tag :=
  (subagentTagError_eq_none_iff type tag owner entityKind entityId).mp fine

theorem not_tagAgrees_of_some {type : EventType} {tag : Option String} {owner : Option Owner}
    {entityKind entityId : String} {error : AGUIError}
    (found : subagentTagError type tag owner entityKind entityId = some error) :
    ¬ TagAgrees owner tag := by
  intro agrees
  rw [(subagentTagError_eq_none_iff type tag owner entityKind entityId).mpr agrees] at found
  cases found

variable (state : VerifyState)

theorem record_owner (bucket : Bucket) (id : String) :
    state.record (.owner bucket id) = (state.owners.bucket bucket).get? id := rfl

/-- Recording the owner of a fresh entity is a claim on the record. -/
theorem record_claim (bucket : Bucket) (id : String) (owner : Owner) :
    VerifyState.record (if ((state.owners.bucket bucket).get? id).isSome then state
      else state.setOwner bucket id owner) = state.record.claim bucket id owner := by
  rw [Record.claim, record_owner]
  split
  · rfl
  · exact state.record_setOwner bucket id owner

theorem openEntity_moves (bracket : Bracket) (entityKind : String) (type : EventType)
    (state : VerifyState) (tag : Option String) (id : String) :
    Moves state (OpenAllowed state.record bracket tag id) (openNext state.record bracket tag id)
      (openEntity bracket entityKind type state tag id) := by
  simp only [openEntity]
  by_cases opened : (state.opened bracket).has id = true
  · rw [if_pos opened]
    exact fun allowed => Bool.eq_false_iff.mp allowed.1 opened
  · rw [if_neg opened]
    have closed : state.record (.opened bracket id) = false := Bool.eq_false_iff.mpr opened
    cases agrees : subagentTagError type tag ((state.owners.bucket bracket.bucket).get? id) entityKind id with
    | some error => exact fun allowed => not_tagAgrees_of_some agrees allowed.2
    | none =>
      refine ⟨⟨closed, tagAgrees_of_none agrees⟩, ?_, ?_⟩
      · have claimed := record_claim (state.withOpened bracket ((state.opened bracket).add id))
          bracket.bucket id tag
        rw [VerifyState.owners_withOpened, VerifyState.record_open] at claimed
        exact claimed
      · split
        · exact state.flags_withOpened bracket _
        · rw [VerifyState.flags_setOwner, VerifyState.flags_withOpened]

theorem continueEntity_moves (bracket : Bracket) (entityKind : String) (type : EventType)
    (state : VerifyState) (tag : Option String) (id : String) :
    Decides (ContinueAllowed state.record bracket tag id) (fun after => after = state)
      (continueEntity bracket entityKind type state tag id) := by
  rw [continueEntity]
  by_cases opened : (state.opened bracket).has id = true
  · rw [if_pos opened]
    cases agrees : subagentTagError type tag ((state.owners.bucket bracket.bucket).get? id) entityKind id with
    | some error => exact fun allowed => not_tagAgrees_of_some agrees allowed.2
    | none => exact ⟨⟨opened, tagAgrees_of_none agrees⟩, rfl⟩
  · rw [if_neg opened]
    intro allowed
    exact opened allowed.1

theorem closeEntity_moves (bracket : Bracket) (entityKind : String) (type : EventType)
    (state : VerifyState) (tag : Option String) (id : String) :
    Moves state (ContinueAllowed state.record bracket tag id) (closeNext state.record bracket id)
      (closeEntity bracket entityKind type state tag id) := by
  have continues := continueEntity_moves bracket entityKind type state tag id
  rw [closeEntity]
  cases result : continueEntity bracket entityKind type state tag id with
  | error error =>
    rw [result] at continues
    exact continues
  | ok after =>
    rw [result] at continues
    obtain ⟨allowed, rfl⟩ := continues
    exact ⟨allowed, after.record_close bracket id, after.flags_withOpened bracket _⟩

/-! ## Tool calls, steps, activities and encrypted values -/

theorem parentError_eq_none_iff (tag : Option String) (inherited : Option (String × Owner)) :
    toolCallStart.parentError tag inherited = none ↔ TagAgrees (inherited.map Prod.snd) tag := by
  cases tag with
  | none => exact iff_of_true rfl (tagAgrees_none _)
  | some name =>
    cases inherited with
    | none => exact iff_of_true rfl (none_tagAgrees (some name))
    | some pair =>
      obtain ⟨parent, owner⟩ := pair
      by_cases same : owner = some name <;>
        simp [toolCallStart.parentError, TagAgrees, same]

theorem reopenError_eq_none_iff (tag : Option String) (toolCallId : String) (existing : Option Owner)
    (inherited : Option (String × Owner)) :
    toolCallStart.reopenError tag toolCallId existing inherited = none ↔
      TagAgrees existing tag ∧
        (tag = none -> ∀ known, existing = some known ->
          ∀ owner, inherited.map Prod.snd = some owner -> owner = known) := by
  cases tag with
  | some name =>
    simp only [toolCallStart.reopenError, subagentTagError_eq_none_iff, reduceCtorEq,
      false_implies, and_true]
  | none =>
    simp only [tagAgrees_none, true_and, true_implies]
    cases existing with
    | none => simp [toolCallStart.reopenError]
    | some known =>
      cases inherited with
      | none => simp [toolCallStart.reopenError]
      | some pair =>
        obtain ⟨parent, owner⟩ := pair
        by_cases same : owner = known <;> simp [toolCallStart.reopenError, same]

theorem inheritedOwner_eq (parentMessageId : Option String) :
    inheritedOwner state.record parentMessageId =
      (parentMessageId.bind fun parent =>
        (state.owners.message.get? parent).map fun owner => (parent, owner)).map Prod.snd := by
  cases parentMessageId with
  | none => rfl
  | some parent =>
    simp only [inheritedOwner, Option.bind_some, record_owner, Owners.bucket]
    cases state.owners.message.get? parent <;> rfl

theorem toolCallStart_moves (tag : Option String) (toolCallId : String)
    (parentMessageId : Option String) :
    Moves state (CallAllowed state.record tag toolCallId parentMessageId)
      (callNext state.record tag toolCallId parentMessageId)
      (toolCallStart state tag toolCallId parentMessageId) := by
  simp only [toolCallStart]
  have inheritance := inheritedOwner_eq state parentMessageId
  by_cases opened : state.activeToolCalls.has toolCallId = true
  · rw [if_pos opened]
    exact fun allowed => Bool.eq_false_iff.mp allowed.closed opened
  · rw [if_neg opened]
    revert inheritance
    generalize (parentMessageId.bind fun parent =>
      (state.owners.message.get? parent).map fun owner => (parent, owner)) = inherited
    intro inheritance
    have parentIff := parentError_eq_none_iff tag inherited
    have reopenIff := reopenError_eq_none_iff tag toolCallId (state.owners.toolCall.get? toolCallId) inherited
    rw [← inheritance] at parentIff reopenIff
    cases parentCheck : toolCallStart.parentError tag inherited with
    | some error =>
      intro allowed
      rw [parentIff.mpr allowed.parent] at parentCheck
      cases parentCheck
    | none =>
      cases reopenCheck : toolCallStart.reopenError tag toolCallId
          (state.owners.toolCall.get? toolCallId) inherited with
      | some error =>
        intro allowed
        rw [reopenIff.mpr ⟨allowed.reopen, allowed.inherit⟩] at reopenCheck
        cases reopenCheck
      | none =>
        have reopened := reopenIff.mp reopenCheck
        refine ⟨⟨Bool.eq_false_iff.mpr opened, parentIff.mp parentCheck, reopened.1, reopened.2⟩, ?_, ?_⟩
        · have recordOpen := state.record_open .toolCall toolCallId
          have joined : (inherited.map Prod.snd).join = inherited.bind Prod.snd := by
            cases inherited <;> rfl
          rw [callNext, inheritance, joined, ← recordOpen]
          exact record_claim (state.withOpened .toolCall (state.activeToolCalls.add toolCallId))
            .toolCall toolCallId (tag.or (inherited.bind Prod.snd))
        · split <;> rfl

theorem stepsFor_set (owner other : Owner) (names : OrderedSet String) :
    VerifyState.stepsFor { state with activeSteps := state.activeSteps.set owner names } other =
      if other = owner then names else state.stepsFor other := by
  by_cases same : other = owner <;> simp [VerifyState.stepsFor, same]

theorem record_steps (owner : Owner) (name : String) (names : OrderedSet String)
    (value : Bool)
    (membership : ∀ other, names.has other =
      if other = name then value else (state.stepsFor owner).has other) :
    VerifyState.record { state with activeSteps := state.activeSteps.set owner names } =
      state.record.put (.step owner name) value := by
  funext key
  by_cases same : key = .step owner name
  · subst same
    simp [VerifyState.record, stepsFor_set, membership]
  · rw [Record.put_of_ne _ _ same]
    cases key with
    | phase | owner bucket id | subagent id => rfl
    | opened bracket id => cases bracket <;> rfl
    | step other another =>
      by_cases found : other = owner
      · subst found
        have different : another ≠ name := fun equal => same (equal ▸ rfl)
        simp [VerifyState.record, stepsFor_set, membership, different]
      · simp [VerifyState.record, stepsFor_set, found]

theorem stepStarted_moves (owner : Owner) (stepName : String) :
    Moves state (state.record (.step owner stepName) = false)
      (state.record.put (.step owner stepName) true) (stepStarted state owner stepName) := by
  rw [stepStarted]
  by_cases present : (state.stepsFor owner).has stepName = true
  · rw [if_pos present]
    exact fun absent => Bool.eq_false_iff.mp absent present
  · rw [if_neg present]
    refine ⟨Bool.eq_false_iff.mpr present, record_steps state owner stepName _ true ?_, rfl⟩
    intro other
    by_cases same : other = stepName <;> simp [same]

theorem stepFinished_moves (owner : Owner) (stepName : String) :
    Moves state (state.record (.step owner stepName) = true)
      (state.record.put (.step owner stepName) false) (stepFinished state owner stepName) := by
  rw [stepFinished]
  by_cases present : (state.stepsFor owner).has stepName = true
  · rw [if_pos present]
    refine ⟨present, record_steps state owner stepName _ false ?_, rfl⟩
    intro other
    by_cases same : other = stepName <;> simp [same]
  · rw [if_neg present]
    cases elsewhere : state.activeSteps.entries.find? fun entry =>
        entry.1 ≠ owner && entry.2.has stepName with
    | none => exact present
    | some entry => exact present

theorem activitySnapshot_record (tag : Option String) (messageId : String)
    (replace : Option Bool) :
    (activitySnapshot state tag messageId replace).record =
      activityNext state.record tag messageId replace := by
  simp only [activitySnapshot, activityNext, OrderedMap.has_eq_false_iff]
  split
  · rename_i owned
    exact (state.record_setOwner .activity messageId tag).trans (if_pos owned).symm
  · rename_i kept
    exact (if_neg kept).symm

theorem activitySnapshot_flags (tag : Option String) (messageId : String)
    (replace : Option Bool) : (activitySnapshot state tag messageId replace).flags = state.flags := by
  rw [activitySnapshot]
  split <;> rfl

theorem encryptedValueOwner_eq (subtype : ReasoningEncryptedValueSubtype)
    (entityId : String) :
    encryptedValueOwner state subtype entityId = encryptedOwner state.record subtype entityId := by
  cases subtype <;> rfl

/-- A handler that only compares a tag with an owner. -/
theorem tagCheck_moves (type : EventType) (tag : Option String)
    (owner : Option Owner) (entityKind entityId : String) :
    Moves state (TagAgrees owner tag) state.record
      (match subagentTagError type tag owner entityKind entityId with
        | some error => .error error
        | none => .ok state) := by
  cases agrees : subagentTagError type tag owner entityKind entityId with
  | some error => exact not_tagAgrees_of_some agrees
  | none => exact ⟨tagAgrees_of_none agrees, rfl, rfl⟩

/-! ## Subagents -/

theorem subagentStatus_add (id other : String) :
    VerifyState.subagentStatus { state with activeSubagents := state.activeSubagents.add id } other =
      if other = id then .active else state.subagentStatus other := by
  by_cases same : other = id <;> simp [VerifyState.subagentStatus, same]

theorem subagentStatus_close (id other : String) :
    VerifyState.subagentStatus
        { state with
          activeSubagents := state.activeSubagents.erase id
          closedSubagents := state.closedSubagents.add id } other =
      if other = id then .closed else state.subagentStatus other := by
  by_cases same : other = id <;> simp [VerifyState.subagentStatus, same]

/-- A change that touches only the two subagent sets. -/
theorem record_subagents (active closed : OrderedSet String) (id : String)
    (status : SubagentStatus)
    (membership : ∀ other,
      VerifyState.subagentStatus
          { state with activeSubagents := active, closedSubagents := closed } other =
        if other = id then status else state.subagentStatus other) :
    VerifyState.record { state with activeSubagents := active, closedSubagents := closed } =
      state.record.put (.subagent id) status := by
  funext key
  by_cases same : key = .subagent id
  · subst same
    rw [Record.put_self]
    exact (membership id).trans (if_pos rfl)
  · rw [Record.put_of_ne _ _ same]
    cases key with
    | phase | owner bucket name | step owner name => rfl
    | opened bracket name => cases bracket <;> rfl
    | subagent name =>
      have different : name ≠ id := fun equal => same (equal ▸ rfl)
      exact (membership name).trans (if_neg different)

theorem subagentStatus_eq_unknown_iff (id : String) :
    state.subagentStatus id = .unknown ↔
      state.activeSubagents.has id = false ∧ state.closedSubagents.has id = false := by
  rw [VerifyState.subagentStatus]
  cases state.activeSubagents.has id <;> cases state.closedSubagents.has id <;> simp

theorem subagentStatus_eq_active_iff (id : String) :
    state.subagentStatus id = .active ↔ state.activeSubagents.has id = true := by
  rw [VerifyState.subagentStatus]
  cases state.activeSubagents.has id <;> cases state.closedSubagents.has id <;> simp

theorem subagentStarted_moves (event : SubagentStartedEvent) :
    Moves state (SubagentStartAllowed state.record event)
      (subagentNext state.record event.subagentRunId.toOption .active)
      (subagentStarted state event) := by
  rw [subagentStarted]
  cases tag : event.subagentRunId.toOption with
  | none =>
    intro allowed
    obtain ⟨id, impossible, _⟩ := allowed.identified
    rw [tag] at impossible
    cases impossible
  | some id =>
    have record_added : VerifyState.record
        { state with activeSubagents := state.activeSubagents.add id } =
          state.record.put (.subagent id) .active :=
      record_subagents state _ state.closedSubagents id .active (subagentStatus_add state id)
    have known : SubagentStartAllowed state.record event ->
        state.subagentStatus id = .unknown := by
      intro allowed
      obtain ⟨other, same, unknown⟩ := allowed.identified
      rw [tag] at same
      cases same
      exact unknown
    dsimp only
    by_cases named : event.name.isNone = true
    · rw [if_pos named]
      intro allowed
      have present := allowed.named
      rw [Option.isNone_iff_eq_none.mp named] at present
      cases present
    · rw [if_neg named]
      by_cases active : state.activeSubagents.has id = true
      · rw [if_pos active]
        intro allowed
        have fresh := ((subagentStatus_eq_unknown_iff state id).mp (known allowed)).1
        rw [active] at fresh
        cases fresh
      · rw [if_neg active]
        by_cases closed : state.closedSubagents.has id = true
        · rw [if_pos closed]
          intro allowed
          have fresh := ((subagentStatus_eq_unknown_iff state id).mp (known allowed)).2
          rw [closed] at fresh
          cases fresh
        · rw [if_neg closed]
          have unknown := (subagentStatus_eq_unknown_iff state id).mpr
            ⟨Bool.eq_false_iff.mpr active, Bool.eq_false_iff.mpr closed⟩
          have named : event.name.isSome = true := by
            cases name : event.name with
            | none => exact absurd (by rw [name]; rfl) named
            | some _ => rfl
          cases parentTag : event.parentSubagentRunId.toOption with
          | none =>
            refine ⟨⟨named, ⟨id, tag, unknown⟩, ?_⟩, record_added, rfl⟩
            intro parent impossible
            rw [parentTag] at impossible
            cases impossible
          | some parent =>
            have started_iff : (state.activeSubagents.has parent || state.closedSubagents.has parent) = true ↔
                state.subagentStatus parent ≠ .unknown := by
              rw [ne_eq, subagentStatus_eq_unknown_iff]
              cases state.activeSubagents.has parent <;> cases state.closedSubagents.has parent <;> simp
            dsimp only
            by_cases started : (state.activeSubagents.has parent || state.closedSubagents.has parent) = true
            · rw [if_pos started]
              refine ⟨⟨named, ⟨id, tag, unknown⟩, ?_⟩, record_added, rfl⟩
              intro other same
              rw [parentTag] at same
              cases same
              exact started_iff.mp started
            · rw [if_neg started]
              exact fun allowed => started (started_iff.mpr (allowed.parent parent parentTag))

theorem closeSubagent_moves (type : EventType) (state : VerifyState) (id : String) :
    Moves state (SubagentCloseAllowed state.record (some id))
      (subagentNext state.record (some id) .closed) (closeSubagent type state id) := by
  rw [closeSubagent]
  by_cases active : state.activeSubagents.has id = true
  · rw [if_pos active]
    exact ⟨⟨id, rfl, (subagentStatus_eq_active_iff state id).mpr active⟩,
      record_subagents state _ _ id .closed (subagentStatus_close state id), rfl⟩
  · rw [if_neg active]
    rintro ⟨other, same, found⟩
    cases same
    exact active ((subagentStatus_eq_active_iff state id).mp found)

/-! ## The end of a run -/

theorem anyStepsActive_eq_false_iff :
    state.anyStepsActive = false ↔ ∀ owner name, state.record (.step owner name) = false := by
  rw [VerifyState.anyStepsActive, List.any_eq_false]
  constructor
  · intro noneActive owner name
    show ((state.activeSteps.get? owner).getD OrderedMap.empty).has name = false
    cases found : state.activeSteps.get? owner with
    | none => rfl
    | some names =>
      have entry := (state.activeSteps.mem_entries_iff owner names).mpr found
      have nothing : names.size = 0 := by simpa using noneActive (owner, names) entry
      exact (OrderedMap.size_eq_zero_iff names).mp nothing name
  · rintro absent ⟨owner, names⟩ member
    have found := (state.activeSteps.mem_entries_iff owner names).mp member
    have nothing : names.size = 0 := by
      apply (OrderedMap.size_eq_zero_iff names).mpr
      intro name
      have closed : ((state.activeSteps.get? owner).getD OrderedMap.empty).has name = false :=
        absent owner name
      rwa [found] at closed
    simp [nothing]

theorem runFinished_moves :
    Decides (AllClosed state.record) (fun after => after = { state with runFinished := true })
      (runFinished state) := by
  have closed_iff : ∀ bracket, (state.opened bracket).size = 0 ↔
      ∀ id, state.record (.opened bracket id) = false :=
    fun bracket => (state.opened bracket).size_eq_zero_iff
  rw [runFinished]
  by_cases steps : state.anyStepsActive = true
  · rw [if_pos steps]
    intro allowed
    rw [(anyStepsActive_eq_false_iff state).mpr allowed.steps] at steps
    cases steps
  rw [if_neg steps]
  by_cases messages : state.activeMessages.size ≠ 0
  · rw [if_pos messages]
    exact fun allowed => messages ((closed_iff .textMessage).mpr (allowed.entities .textMessage))
  rw [if_neg messages]
  by_cases reasoning : state.activeReasoningMessages.size ≠ 0
  · rw [if_pos reasoning]
    exact fun allowed =>
      reasoning ((closed_iff .reasoningMessage).mpr (allowed.entities .reasoningMessage))
  rw [if_neg reasoning]
  by_cases spans : state.activeReasoningSpans.size ≠ 0
  · rw [if_pos spans]
    exact fun allowed => spans ((closed_iff .reasoningSpan).mpr (allowed.entities .reasoningSpan))
  rw [if_neg spans]
  by_cases calls : state.activeToolCalls.size ≠ 0
  · rw [if_pos calls]
    exact fun allowed => calls ((closed_iff .toolCall).mpr (allowed.entities .toolCall))
  rw [if_neg calls]
  by_cases subagents : state.activeSubagents.size ≠ 0
  · rw [if_pos subagents]
    intro allowed
    apply subagents
    apply (OrderedMap.size_eq_zero_iff _).mpr
    intro id
    exact Bool.eq_false_iff.mpr fun active =>
      allowed.subagents id ((subagentStatus_eq_active_iff state id).mpr active)
  rw [if_neg subagents]
  refine ⟨⟨?_, ?_, ?_⟩, rfl⟩
  · exact (anyStepsActive_eq_false_iff state).mp (Bool.eq_false_iff.mpr steps)
  · intro bracket
    cases bracket with
    | textMessage => exact (closed_iff .textMessage).mp (not_not.mp messages)
    | toolCall => exact (closed_iff .toolCall).mp (not_not.mp calls)
    | reasoningSpan => exact (closed_iff .reasoningSpan).mp (not_not.mp spans)
    | reasoningMessage => exact (closed_iff .reasoningMessage).mp (not_not.mp reasoning)
  · intro id active
    have present := (subagentStatus_eq_active_iff state id).mp active
    rw [(OrderedMap.size_eq_zero_iff _).mp (not_not.mp subagents) id] at present
    cases present

/-! ## Owners seeded from messages -/

theorem record_seed (owners : Owners) (authoritative : Bool) (bucket : Bucket)
    (id : String) (owner : Owner) :
    VerifyState.record { state with owners := owners.seed authoritative bucket id owner } =
      Record.seed authoritative (VerifyState.record { state with owners := owners }) bucket id owner := by
  have written := VerifyState.record_setOwner { state with owners := owners } bucket id owner
  have looked : VerifyState.record { state with owners := owners } (.owner bucket id) =
      (owners.bucket bucket).get? id := rfl
  rw [Owners.seed, Record.seed, Record.claim, looked]
  cases authoritative with
  | true => exact written
  | false =>
    cases found : (owners.bucket bucket).get? id with
    | none =>
      rw [(OrderedMap.has_eq_false_iff _ _).mpr found]
      exact written
    | some known =>
      rw [(OrderedMap.has_eq_true_iff _ _).mpr ⟨known, found⟩]
      rfl

theorem record_seedCalls (authoritative : Bool) (owner : Owner)
    (calls : List ToolCall) (owners : Owners) :
    VerifyState.record { state with
        owners := calls.foldl (fun owners call => owners.seed authoritative .toolCall call.id owner) owners } =
      calls.foldl (fun record call => record.seed authoritative .toolCall call.id owner)
        (VerifyState.record { state with owners := owners }) := by
  induction calls generalizing owners with
  | nil => rfl
  | cons call rest ih =>
    rw [List.foldl_cons, ih, record_seed]
    rfl

theorem seedOwnersFromMessage_decides (authoritative : Bool) (owners : Owners)
    (message : Message) :
    Decides (message.subagentRunId.isNull = false)
      (fun seeded => VerifyState.record { state with owners := seeded } =
        Record.seedMessage authoritative (VerifyState.record { state with owners := owners }) message)
      (seedOwnersFromMessage authoritative owners message) := by
  rw [seedOwnersFromMessage]
  by_cases null : message.subagentRunId.isNull = true
  · rw [if_pos null]
    exact fun fine => Bool.eq_false_iff.mp fine null
  · rw [if_neg null]
    refine ⟨Bool.eq_false_iff.mpr null, ?_⟩
    dsimp only
    rw [record_seedCalls, record_seed]
    rfl

theorem seedOwnersFromMessages_decides (authoritative : Bool)
    (messages : List Message) (owners : Owners) :
    Decides (NoNullTags messages)
      (fun seeded => VerifyState.record { state with owners := seeded } =
        Record.seedMessages authoritative (VerifyState.record { state with owners := owners }) messages)
      (seedOwnersFromMessages authoritative messages owners) := by
  induction messages generalizing owners with
  | nil => exact ⟨List.forall_mem_nil _, rfl⟩
  | cons message rest ih =>
    have first := seedOwnersFromMessage_decides state authoritative owners message
    rw [seedOwnersFromMessages]
    cases result : seedOwnersFromMessage authoritative owners message with
    | error error =>
      rw [result] at first
      exact fun fine => first (fine message List.mem_cons_self)
    | ok seeded =>
      rw [result] at first
      refine (ih seeded).mono ?_ ?_
      · exact ⟨fun fine => List.forall_mem_cons.mpr ⟨first.1, fine⟩,
          fun fine => (List.forall_mem_cons.mp fine).2⟩
      · intro owners _ reads
        rw [reads, first.2]
        rfl

/-! ## The gate before the switch -/

theorem record_phase : state.record .phase = state.phase := rfl

theorem phase_eq_active_iff :
    state.phase = .active ↔
      state.runError = false ∧ state.runFinished = false ∧ state.firstEventReceived = true := by
  rw [VerifyState.phase]
  cases state.runError <;> cases state.runFinished <;> cases state.firstEventReceived <;> simp

theorem phase_eq_errored_iff : state.phase = .errored ↔ state.runError = true := by
  rw [VerifyState.phase]
  cases state.runError <;> cases state.runFinished <;> cases state.firstEventReceived <;> simp

/-- An event inside a run passes the gate untouched. -/
theorem runGate_inside (event : Event) (notStart : event.type ≠ .runStarted)
    (notError : event.type ≠ .runError) :
    Decides (state.record .phase = .active) (fun after => after = state) (runGate state event) := by
  rw [record_phase, phase_eq_active_iff, runGate]
  cases errored : state.runError <;> cases finished : state.runFinished <;>
    cases begun : state.firstEventReceived <;> simp [notStart, notError, Decides]

/-- The state in which the first event of a run is looked at. -/
structure Entered (state : VerifyState) : Prop where
  record : state.record = Record.blank.put .phase .active
  begun : state.firstEventReceived = true
  notErrored : state.runError = false
  notFinished : state.runFinished = false

theorem entered_first : Entered { firstEventReceived := true } where
  record := by
    funext key
    cases key with
    | phase | step owner name | subagent id => rfl
    | opened bracket id => cases bracket <;> rfl
    | owner bucket id => cases bucket <;> rfl
  begun := rfl
  notErrored := rfl
  notFinished := rfl

theorem entered_reset (begun : state.firstEventReceived = true) :
    Entered state.resetRunState where
  record := by
    rw [VerifyState.resetRunState, begun]
    exact entered_first.record
  begun := begun
  notErrored := rfl
  notFinished := rfl

theorem runGate_runStarted (coherent : state.Coherent) (event : RunStartedEvent) :
    Decides (state.record .phase ≠ .active) Entered (runGate state (.runStarted event)) := by
  rw [record_phase, ne_eq, phase_eq_active_iff, runGate]
  cases begun : state.firstEventReceived with
  | false =>
    have fresh := coherent.fresh begun
    subst fresh
    exact ⟨by simp, entered_first⟩
  | true =>
    have reset := entered_reset state begun
    have started := coherent.started begun
    cases errored : state.runError <;> cases finished : state.runFinished <;>
      simp_all [Decides, Event.type]

theorem runGate_runError (coherent : state.Coherent) (event : RunErrorEvent) :
    Decides (state.record .phase ≠ .errored)
      (fun after => after.record.put .phase .errored = state.record.put .phase .errored ∧
        after.firstEventReceived = true)
      (runGate state (.runError event)) := by
  rw [record_phase, ne_eq, phase_eq_errored_iff, runGate]
  cases begun : state.firstEventReceived with
  | false =>
    have fresh := coherent.fresh begun
    subst fresh
    refine ⟨by simp, ?_, rfl⟩
    rw [entered_first.record, Record.put_put, VerifyState.record_initial]
  | true =>
    cases errored : state.runError <;> simp [Decides, Event.type, begun]

/-! ## One event -/

theorem Record.put_phase_of (record other : Record) (phase : Phase)
    (same : ∀ key, key ≠ .phase -> record key = other key) (reads : record .phase = phase) :
    record = other.put .phase phase := by
  funext key
  by_cases found : key = .phase
  · subst found
    rw [Record.put_self]
    exact reads
  · rw [Record.put_of_ne _ _ found]
    exact same key found

/-- Flags enter the record only through the phase. -/
theorem record_withFlags (errored finished : Bool) :
    VerifyState.record { state with runError := errored, runFinished := finished } =
      state.record.put .phase
        (VerifyState.phase { state with runError := errored, runFinished := finished }) := by
  apply Record.put_phase_of
  · intro key apart
    cases key with
    | phase => exact absurd rfl apart
    | opened bracket id => cases bracket <;> rfl
    | owner bucket id | step owner name | subagent id => rfl
  · rfl

theorem record_noticeNullTag (event : Event) :
    (noticeNullTag state event).record = state.record := by
  rw [noticeNullTag]
  split
  · funext key
    cases key with
    | opened bracket id => cases bracket <;> rfl
    | phase | owner bucket id | step owner name | subagent id => rfl
  · rfl

theorem flags_noticeNullTag (event : Event) :
    (noticeNullTag state event).flags = state.flags := by
  rw [noticeNullTag]
  split <;> rfl

/-- The cases of the switch that neither begin nor end a run. -/
theorem verifyCase_moves (event : Event) (notStart : event.type ≠ .runStarted)
    (notFinish : event.type ≠ .runFinished) (notError : event.type ≠ .runError) :
    Moves state (CaseAllows state.record event) (next state.record event) (verifyCase state event) := by
  have kept : ∀ {condition : Prop} {result : Except AGUIError VerifyState},
      Decides condition (fun after => after = state) result ->
        Moves state condition state.record result := by
    intro condition result decides
    exact decides.mono Iff.rfl fun after _ same => by rw [same]; exact ⟨rfl, rfl⟩
  cases event with
  | textMessageStart e | reasoningStart e | reasoningMessageStart e => exact openEntity_moves ..
  | textMessageContent e | toolCallArgs e | reasoningMessageContent e => exact kept (continueEntity_moves ..)
  | textMessageEnd e | toolCallEnd e | reasoningMessageEnd e | reasoningEnd e => exact closeEntity_moves ..
  | toolCallStart e => exact toolCallStart_moves ..
  | toolCallResult e => exact ⟨trivial, state.record_setOwner .message _ _, rfl⟩
  | messagesSnapshot e =>
    have seeded := seedOwnersFromMessages_decides state true e.messages state.owners
    rw [verifyCase]
    cases result : seedOwnersFromMessages true e.messages state.owners with
    | error error =>
      rw [result] at seeded
      exact seeded
    | ok owners =>
      rw [result] at seeded
      exact ⟨seeded.1, seeded.2, rfl⟩
  | activitySnapshot e =>
    exact ⟨trivial, activitySnapshot_record state _ _ _, activitySnapshot_flags state _ _ _⟩
  | activityDelta e => exact tagCheck_moves ..
  | stepStarted e => exact stepStarted_moves ..
  | stepFinished e => exact stepFinished_moves ..
  | reasoningEncryptedValue e =>
    rw [verifyCase, encryptedValueOwner_eq]
    exact tagCheck_moves ..
  | subagentStarted e => exact subagentStarted_moves state e
  | subagentFinished e =>
    rw [verifyCase, CaseAllows, next]
    cases tag : e.subagentRunId.toOption with
    | none =>
      rintro ⟨id, impossible, _⟩
      cases impossible
    | some id => exact closeSubagent_moves _ state id
  | subagentError e =>
    rw [verifyCase, CaseAllows, next]
    cases tag : e.subagentRunId.toOption with
    | none =>
      rintro ⟨_, id, impossible, _⟩
      cases impossible
    | some id =>
      have closes := closeSubagent_moves .subagentError state id
      cases message : e.message with
      | none =>
        rintro ⟨impossible, _⟩
        cases impossible
      | some text => exact closes.mono (by simp) fun after _ reads => reads
  | runStarted e => exact absurd rfl notStart
  | runFinished e => exact absurd rfl notFinish
  | runError e => exact absurd rfl notError
  | textMessageChunk e | toolCallChunk e | stateSnapshot e | stateDelta e | raw e | custom e
  | reasoningMessageChunk e | other e => exact ⟨trivial, rfl, rfl⟩

/-- What one accepted event leaves behind: the next record, in a coherent
state, and the event itself passed on. -/
structure Accepts (state : VerifyState) (event : Event) (after : VerifyState × List Event) : Prop where
  record : after.1.record = next state.record event
  coherent : after.1.Coherent
  relayed : after.2 = [event.withoutNullTag]

theorem coherent_of_begun {state : VerifyState} (begun : state.firstEventReceived = true)
    (started : state.runError = false -> state.runFinished = false -> state.runStarted = true) :
    state.Coherent where
  fresh := by
    rw [begun]
    intro impossible
    cases impossible
  started := fun _ => started

/-- A case decided at the gated state decides the whole event. -/
theorem verifyEvents_decides_of {state gated : VerifyState} {event : Event}
    (gate : runGate state event = .ok gated) (phase : PhaseAllows (state.record .phase) event)
    (case : Decides (CaseAllows state.record event)
      (fun after => after.record = next state.record event ∧ after.Coherent)
      (verifyCase (noticeNullTag gated event) event)) :
    Decides (Allows state.record event) (Accepts state event) (verifyEvents state event) := by
  simp only [verifyEvents, gate]
  cases fields : fieldError event with
  | some error =>
    intro allowed
    rw [allowed.fields] at fields
    cases fields
  | none =>
    cases result : verifyCase (noticeNullTag gated event) event with
    | error error =>
      rw [result] at case
      exact fun allowed => case allowed.case
    | ok after =>
      rw [result] at case
      exact ⟨⟨phase, fields, case.1⟩, case.2.1, case.2.2, rfl⟩

theorem verifyEvents_refused {state : VerifyState} {event : Event} {error : AGUIError}
    (gate : runGate state event = .error error) (phase : ¬ PhaseAllows (state.record .phase) event) :
    Decides (Allows state.record event) (Accepts state event) (verifyEvents state event) := by
  rw [verifyEvents, gate]
  exact fun allowed => phase allowed.phase

/-- Inside a run neither the gate nor the flags change. -/
theorem verifyEvents_decides_inside (coherent : state.Coherent) (event : Event)
    (phaseIff : PhaseAllows (state.record .phase) event ↔ state.record .phase = .active)
    (notStart : event.type ≠ .runStarted) (notError : event.type ≠ .runError)
    (case : state.Coherent -> state.record .phase = .active ->
      Decides (CaseAllows state.record event)
        (fun after => after.record = next state.record event ∧ after.Coherent)
        (verifyCase (noticeNullTag state event) event)) :
    Decides (Allows state.record event) (Accepts state event) (verifyEvents state event) := by
  have gate := runGate_inside state event notStart notError
  cases result : runGate state event with
  | error error =>
    rw [result] at gate
    exact verifyEvents_refused result fun phase => gate (phaseIff.mp phase)
  | ok gated =>
    rw [result] at gate
    obtain ⟨active, rfl⟩ := gate
    exact verifyEvents_decides_of result (phaseIff.mpr active) (case coherent active)

theorem coherent_of_flags {state after : VerifyState} (same : after.flags = state.flags)
    (coherent : state.Coherent) (active : state.record .phase = .active) : after.Coherent := by
  simp only [VerifyState.flags, Prod.mk.injEq] at same
  obtain ⟨notErrored, notFinished, begun⟩ := (phase_eq_active_iff state).mp active
  refine coherent_of_begun (same.2.2.1.trans begun) fun _ _ => ?_
  exact same.2.2.2.trans (coherent.started begun notErrored notFinished)

theorem verifyEvents_decides_runStarted (coherent : state.Coherent)
    (event : RunStartedEvent) :
    Decides (Allows state.record (.runStarted event)) (Accepts state (.runStarted event))
      (verifyEvents state (.runStarted event)) := by
  have gate := runGate_runStarted state coherent event
  cases result : runGate state (.runStarted event) with
  | error error =>
    rw [result] at gate
    exact verifyEvents_refused result gate
  | ok gated =>
    rw [result] at gate
    obtain ⟨phase, entered⟩ := gate
    apply verifyEvents_decides_of result phase
    have seeded := seedOwnersFromMessages_decides gated false (echoed event) gated.owners
    have noticed : noticeNullTag gated (.runStarted event) = gated := rfl
    rw [CaseAllows, next, ← entered.record, noticed, verifyCase, ← echoed]
    cases outcome : seedOwnersFromMessages false (echoed event) gated.owners with
    | error error =>
      rw [outcome] at seeded
      exact seeded
    | ok owners =>
      rw [outcome] at seeded
      refine ⟨seeded.1, ?_, coherent_of_begun entered.begun fun _ _ => rfl⟩
      exact Eq.trans (by funext key; cases key <;> rfl) seeded.2

theorem verifyEvents_decides_runError (coherent : state.Coherent)
    (event : RunErrorEvent) :
    Decides (Allows state.record (.runError event)) (Accepts state (.runError event))
      (verifyEvents state (.runError event)) := by
  have gate := runGate_runError state coherent event
  cases result : runGate state (.runError event) with
  | error error =>
    rw [result] at gate
    exact verifyEvents_refused result gate
  | ok gated =>
    rw [result] at gate
    obtain ⟨phase, reads, begun⟩ := gate
    apply verifyEvents_decides_of result phase
    refine ⟨trivial, ?_, coherent_of_begun begun nofun⟩
    exact (record_withFlags gated true gated.runFinished).trans reads

theorem verifyEvents_decides_runFinished (coherent : state.Coherent)
    (event : RunFinishedEvent) :
    Decides (Allows state.record (.runFinished event)) (Accepts state (.runFinished event))
      (verifyEvents state (.runFinished event)) := by
  apply verifyEvents_decides_inside state coherent _ Iff.rfl (by simp [Event.type]) (by simp [Event.type])
  intro _ active
  obtain ⟨notErrored, _, begun⟩ := (phase_eq_active_iff state).mp active
  apply (runFinished_moves state).mono Iff.rfl
  rintro after _ rfl
  refine ⟨?_, coherent_of_begun begun nofun⟩
  have written := record_withFlags state state.runError true
  have ended : VerifyState.phase { state with runFinished := true } = .finished := by
    simp [VerifyState.phase, notErrored]
  rw [next, ← ended]
  exact written

/-- The verifier accepts exactly the events its record allows, and its next
state reads as the next record. -/
theorem verifyEvents_decides (coherent : state.Coherent) (event : Event) :
    Decides (Allows state.record event) (Accepts state event) (verifyEvents state event) := by
  by_cases start : event.type = .runStarted
  · cases event <;> cases start
    exact verifyEvents_decides_runStarted state coherent _
  by_cases finish : event.type = .runFinished
  · cases event <;> cases finish
    exact verifyEvents_decides_runFinished state coherent _
  by_cases error : event.type = .runError
  · cases event <;> cases error
    exact verifyEvents_decides_runError state coherent _
  have phaseIff : PhaseAllows (state.record .phase) event ↔ state.record .phase = .active := by
    cases event with
    | runStarted e => exact absurd rfl start
    | runError e => exact absurd rfl error
    | _ => exact Iff.rfl
  apply verifyEvents_decides_inside state coherent event phaseIff start error
  intro coherent active
  have moves := verifyCase_moves (noticeNullTag state event) event start finish error
  rw [record_noticeNullTag] at moves
  refine moves.mono Iff.rfl fun after _ reads => ⟨reads.1, ?_⟩
  exact coherent_of_flags (reads.2.trans (flags_noticeNullTag state event)) coherent active

/-! ## Streams -/

/-- The streams a record admits, event after event. -/
def Admits (record : Record) : List Event -> Prop
  | [] => True
  | event :: rest => Allows record event ∧ Admits (next record event) rest

def advance (record : Record) (events : List Event) : Record :=
  events.foldl next record

theorem admits_append (record : Record) (first second : List Event) :
    Admits record (first ++ second) ↔ Admits record first ∧ Admits (advance record first) second := by
  induction first generalizing record with
  | nil => simp [Admits, advance]
  | cons event rest ih =>
    simp only [List.cons_append, Admits, ih, and_assoc]
    rfl

theorem accepts_iff_admits (coherent : state.Coherent) (events : List Event) :
    verifyEvents.accepts state events = true ↔ Admits state.record events := by
  induction events generalizing state with
  | nil => exact iff_of_true rfl trivial
  | cons event rest ih =>
    have step := verifyEvents_decides state coherent event
    rw [Stage.accepts_cons, Admits, ← step.exists_iff]
    constructor
    · rintro ⟨after, output, done, accepted⟩
      have ends := step.ends done
      refine ⟨⟨(after, output), done⟩, ?_⟩
      rw [← ends.record]
      exact (ih after ends.coherent).mp accepted
    · rintro ⟨⟨⟨after, output⟩, done⟩, admitted⟩
      have ends := step.ends done
      rw [← ends.record] at admitted
      exact ⟨after, output, done, (ih after ends.coherent).mpr admitted⟩

/-- The verdict on a stream is the verdict of the blank record. -/
theorem accepted_iff_admits (events : List Event) :
    accepted events = true ↔ Admits Record.blank events := by
  rw [accepted, accepts_iff_admits {} VerifyState.coherent_initial, VerifyState.record_initial]

/-- Every event of an accepted stream is allowed by what came before it. -/
theorem allows_of_accepted {past future : List Event} {event : Event}
    (admitted : accepted (past ++ event :: future) = true) : Allows (advance Record.blank past) event := by
  rw [accepted_iff_admits, admits_append] at admitted
  exact admitted.2.1

/-! ## Open entities -/

/-- The entity an event opens. -/
def bracketStart : Event -> Option (Bracket × String)
  | .textMessageStart event => some (.textMessage, event.messageId)
  | .toolCallStart event => some (.toolCall, event.toolCallId)
  | .reasoningStart event => some (.reasoningSpan, event.messageId)
  | .reasoningMessageStart event => some (.reasoningMessage, event.messageId)
  | _ => none

/-- Only its start opens an entity. -/
theorem opened_next {record : Record} {event : Event} {bracket : Bracket} {id : String}
    (opened : next record event (.opened bracket id) = true) :
    bracketStart event = some (bracket, id) ∨ record (.opened bracket id) = true := by
  have put : ∀ (other : Bracket) (named : String) (value : Bool),
      (record.put (.opened other named) value) (.opened bracket id) = true ->
      some (other, named) = some (bracket, id) ∨ record (.opened bracket id) = true := by
    intro other named value written
    by_cases same : bracket = other ∧ id = named
    · exact .inl (by rw [same.1, same.2])
    · rw [Record.put_opened, if_neg same] at written
      exact .inr written
  have apart : ∀ (bucket : Bucket) (named : String),
      Key.opened bracket id ≠ .owner bucket named := fun _ _ => Key.noConfusion
  cases event with
  | textMessageStart event | reasoningStart event | reasoningMessageStart event =>
    rw [next, openNext, Record.claim_of_ne _ _ _ _ (apart _ _)] at opened
    exact put _ _ _ opened
  | toolCallStart event =>
    rw [next, callNext, Record.claim_of_ne _ _ _ _ (apart _ _)] at opened
    exact put _ _ _ opened
  | textMessageEnd event | toolCallEnd event | reasoningMessageEnd event | reasoningEnd event =>
    rw [next, closeNext] at opened
    rw [Record.put_opened] at opened
    split at opened
    · cases opened
    · exact .inr opened
  | subagentStarted event | subagentFinished event | subagentError event =>
    rw [next, subagentNext_of_ne _ _ _ (fun _ => Key.noConfusion)] at opened
    exact .inr opened
  | messagesSnapshot event =>
    rw [next, Record.seedMessages_of_not_owner _ _ _ apart] at opened
    exact .inr opened
  | runStarted event =>
    rw [next, Record.seedMessages_of_not_owner _ _ _ apart] at opened
    cases opened
  | activitySnapshot event =>
    rw [next, activityNext_of_ne _ _ _ _ (apart _ _)] at opened
    exact .inr opened
  | stepStarted event | stepFinished event | toolCallResult event | runFinished event | runError event =>
    rw [next, Record.put_of_ne _ _ Key.noConfusion] at opened
    exact .inr opened
  | _ => exact .inr opened

theorem exists_start_of_opened (events : List Event) {bracket : Bracket} {id : String}
    (opened : advance Record.blank events (.opened bracket id) = true) :
    ∃ event ∈ events, bracketStart event = some (bracket, id) := by
  induction events using List.reverseRecOn with
  | nil => cases opened
  | append_singleton past event ih =>
    rw [advance, List.foldl_append] at opened
    rcases opened_next opened with starts | earlier
    · exact ⟨event, List.mem_append_right _ List.mem_cons_self, starts⟩
    · rcases ih earlier with ⟨start, member, starts⟩
      exact ⟨start, List.mem_append_left _ member, starts⟩

end Verify
end AgUi
