import AgUi.Verify.JoinedRuns

namespace AgUi
namespace Verify

open Library Protocol

/-!
# Verifying a stream into which events were put

Tool results and activity snapshots leave nothing open, and change no more
than the owner of a message or an activity.  As long as no other event is
compared with these owners, such events may be put into an accepted stream
wherever a run is going on.
-/

/-- The owners an event is compared with, by their keys. -/
def comparedKeys : Event -> List Key
  | .activitySnapshot _ => []
  | .toolCallResult _ => []
  | .activityDelta e => if e.subagentRunId.toOption.isSome then [.owner .activity e.messageId] else []
  | event => named event

/-- Two records that differ at most in the owners of strange entities. -/
def SameApart (strange : Bucket -> String -> Prop) (record other : Record) : Prop :=
  ∀ key, (∀ bucket id, strange bucket id -> key ≠ .owner bucket id) -> other key = record key

/-- The event is compared with no owner of a strange entity. -/
def Unaware (strange : Bucket -> String -> Prop) (event : Event) : Prop :=
  ∀ bucket id, strange bucket id -> Key.owner bucket id ∉ comparedKeys event

section Insertion

variable {strange : Bucket -> String -> Prop} {record other : Record}

theorem SameApart.refl (record : Record) : SameApart strange record record :=
  fun _ _ => rfl

section

variable (same : SameApart strange record other)

include same

theorem SameApart.of_not_owner {key : Key}
    (notOwner : ∀ bucket id, key ≠ .owner bucket id) : other key = record key :=
  same key fun bucket id _ => notOwner bucket id

theorem SameApart.compared {event : Event} (unaware : Unaware strange event)
    {bucket : Bucket} {id : String} (compares : .owner bucket id ∈ comparedKeys event) :
    other (.owner bucket id) = record (.owner bucket id) := by
  refine same _ fun another name strangeOne equal => ?_
  rw [equal] at compares
  exact unaware another name strangeOne compares

theorem SameApart.inherited {event : ToolCallStartEvent} (unaware : Unaware strange (.toolCallStart event)) :
    inheritedOwner other event.parentMessageId = inheritedOwner record event.parentMessageId := by
  refine inheritedOwner_congr _ fun parent named => same.compared unaware ?_
  refine List.mem_cons_of_mem _ ?_
  rw [named]
  exact List.mem_singleton.mpr rfl

theorem SameApart.comparedOwners {event : Event}
    (unaware : Unaware strange event) : comparedOwners other event = comparedOwners record event := by
  cases event with
  | textMessageStart e | textMessageContent e | textMessageEnd e | toolCallArgs e | toolCallEnd e | reasoningStart e
  | reasoningMessageStart e | reasoningMessageContent e | reasoningMessageEnd e | reasoningEnd e =>
    exact congrArg (ifTagged _) (same.compared unaware List.mem_cons_self)
  | toolCallStart e =>
    have own : other (.owner .toolCall e.toolCallId) = record (.owner .toolCall e.toolCallId) :=
      same.compared unaware List.mem_cons_self
    simp only [Verify.comparedOwners, own, same.inherited unaware]
  | reasoningEncryptedValue e =>
    refine congrArg (ifTagged _) ?_
    have read : ∀ key ∈ comparedKeys (.reasoningEncryptedValue e), ∀ bucket,
        key = .owner bucket e.entityId -> other key = record key := by
      rintro key member bucket rfl
      exact same.compared unaware member
    unfold encryptedOwner
    cases subtype : e.subtype with
    | toolCall =>
      simp only
      exact read _ (by simp [comparedKeys, named, subtype]) _ rfl
    | message =>
      simp only
      rw [read (.owner .message e.entityId) (by simp [comparedKeys, named, subtype]) _ rfl,
        read (.owner .reasoning e.entityId) (by simp [comparedKeys, named, subtype]) _ rfl]
  | activityDelta e =>
    cases tag : e.subagentRunId.toOption with
    | none => simp only [Verify.comparedOwners, tag, ifTagged, Option.isSome_none, Bool.false_eq_true, if_false]
    | some name =>
      have own : other (.owner .activity e.messageId) = record (.owner .activity e.messageId) :=
        same.compared unaware (by simp [comparedKeys, tag])
      simp only [Verify.comparedOwners, own]
  | _ => rfl

/-- What is strange does not matter to an event that is unaware of it. -/
theorem SameApart.allows {event : Event} (unaware : Unaware strange event)
    (allowed : Allows record event) : Allows other event := by
  have lesser : Lesser record other :=
    { phase := same.of_not_owner fun _ _ => Key.noConfusion
      opened := by
        intro bracket id opened
        rw [← same.of_not_owner fun _ _ => Key.noConfusion]
        exact opened
      step := fun _ _ => same.of_not_owner fun _ _ => Key.noConfusion
      subagent := fun _ => same.of_not_owner fun _ _ => Key.noConfusion }
  refine lesser.allows allowed (fun bracket id names => ?_) ?_
  · rw [same.of_not_owner fun _ _ => Key.noConfusion]
    exact opened_of_allows allowed names
  · rw [OwnersSurvive, same.comparedOwners unaware]
    exact List.forall₂_same.mpr fun _ _ => .inl rfl

theorem SameApart.next {event : Event} (unaware : Unaware strange event) :
    SameApart strange (next record event) (Verify.next other event) := by
  intro key apart
  have here : other key = record key := same key apart
  by_cases owner : ∃ bucket id, key = .owner bucket id
  · rcases owner with ⟨bucket, id, rfl⟩
    cases event with
    | textMessageStart e | reasoningStart e | reasoningMessageStart e => exact claim_congr _ _ _ (put_congr _ _ here)
    | toolCallStart e =>
      simp only [Verify.next, callNext, same.inherited unaware]
      exact claim_congr _ _ _ (put_congr _ _ here)
    | textMessageEnd e | toolCallEnd e | reasoningMessageEnd e | reasoningEnd e =>
      simp only [Verify.next, closeNext]
      exact put_congr _ _ here
    | stepStarted e | stepFinished e | toolCallResult e | runFinished e | runError e => exact put_congr _ _ here
    | activitySnapshot e =>
      by_cases own : Key.owner bucket id = .owner .activity e.messageId
      · cases own
        exact activityNext_congr _ _ _ here
      · rw [Verify.next, activityNext_of_ne _ _ _ _ own, Verify.next, activityNext_of_ne _ _ _ _ own]
        exact here
    | subagentStarted e | subagentFinished e | subagentError e =>
      rw [Verify.next, subagentNext_of_ne _ _ _ fun _ => Key.noConfusion, Verify.next,
        subagentNext_of_ne _ _ _ fun _ => Key.noConfusion]
      exact here
    | messagesSnapshot e => exact seedMessages_congr _ _ here
    | runStarted e => rfl
    | _ => exact here
  · exact next_local (fun bucket id equal => owner ⟨bucket, id, equal⟩) here event

/-- An event both streams have. -/
theorem SameApart.step {event : Event} (unaware : Unaware strange event) (allowed : Allows record event) :
    Allows other event ∧ SameApart strange (Verify.next record event) (Verify.next other event) :=
  ⟨same.allows unaware allowed, same.next unaware⟩

end

/-- An event that gives a strange entity an owner and does nothing else. -/
structure Harmless (strange : Bucket -> String -> Prop) (event : Event) : Prop where
  allowed : ∀ record : Record, record .phase = .active -> Allows record event
  strange : ∀ (record : Record) key, (∀ bucket id, strange bucket id -> key ≠ .owner bucket id) ->
    Verify.next record event key = record key

theorem harmless_toolCallResult {event : ToolCallResultEvent} (isStrange : strange .message event.messageId) :
    Harmless strange (.toolCallResult event) where
  allowed := fun _ active => ⟨active, rfl, trivial⟩
  strange := fun record _ apart => record.put_of_ne _ (apart .message _ isStrange)

theorem harmless_activitySnapshot {event : ActivitySnapshotEvent} (isStrange : strange .activity event.messageId) :
    Harmless strange (.activitySnapshot event) where
  allowed := fun _ active => ⟨active, rfl, trivial⟩
  strange := fun record _ apart => activityNext_of_ne record _ _ _ (apart .activity _ isStrange)

/-- Harmless events may be put in wherever a run is going on. -/
theorem SameApart.inserted (same : SameApart strange record other) {events : List Event}
    (harmless : ∀ event ∈ events, Harmless strange event)
    (active : events = [] ∨ record .phase = .active) :
    Admits other events ∧ SameApart strange record (advance other events) := by
  induction events generalizing other with
  | nil => exact ⟨trivial, same⟩
  | cons event rest ih =>
    have going := active.resolve_left (List.cons_ne_nil _ _)
    have first := harmless event List.mem_cons_self
    have later := ih
      (fun key apart => (first.strange other key apart).trans (same key apart))
      (List.forall_mem_cons.mp harmless).2 (.inr going)
    refine ⟨⟨first.allowed other ?_, later.1⟩, later.2⟩
    exact (same.of_not_owner fun _ _ => Key.noConfusion).trans going

end Insertion

end Verify
end AgUi
