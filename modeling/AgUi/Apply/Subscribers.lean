import AgUi.Apply.ToolResults

namespace AgUi
namespace Apply

open Library Protocol

/-!
# Activity events under subscribers

Before a handler writes, it runs the subscribers, and each may answer with
another message list.  The handlers of the two activity events look their
message up before they run them and write to the position they found after, on
whatever list the subscribers leave.

The write hits the message it is meant for exactly if that message still
stands at its old position, or the position is the end of a list without it.
The handlers of the streams look for their message after the subscribers ran.
-/

/-! ## Running subscribers -/

/-- What a subscriber returns.  One that returns the very list it was given
counts as returning none: references are compared. -/
structure SubscriberMutation extends AgentStateMutation where
  stopPropagation : Option Bool := none

inductive Answer where
  | nothing
  | mutation (returned : SubscriberMutation)
  | throws (typeError : Bool)

structure AgentSubscriber where
  onEvent : Event -> List Message -> Json -> Answer := fun _ _ _ => .nothing
  /-- With the activity found, and with whatever message was. -/
  onActivitySnapshotEvent : ActivitySnapshotEvent -> List Message -> Json -> Option Message -> Option Message ->
    Answer := fun _ _ _ _ _ => .nothing
  onActivityDeltaEvent : ActivityDeltaEvent -> List Message -> Json -> Message -> Answer :=
    fun _ _ _ _ => .nothing
  /-- Whether the callback throws; nothing else of it is read. -/
  onNewMessage : Message -> List (Option Message) -> Json -> Bool := fun _ _ _ => false

/-- What of a subscriber's failures is not swallowed: a type error under test,
and anything thrown on a new message. -/
inductive SubscriberError where
  | typeError
  | onNewMessage

/-- What is collected from the subscribers so far, and one mutation more. -/
def SubscriberMutation.merge (collected returned : SubscriberMutation) : SubscriberMutation where
  messages := returned.messages.or collected.messages
  state := returned.state.or collected.state
  stopPropagation := returned.stopPropagation

/-- Each subscriber sees what those before it left.  One that throws is
skipped, save for a type error under test. -/
def runSubscribersWithMutation (isTestEnvironment : Bool) (initialMessages : List Message) (initialState : Json)
    (executor : AgentSubscriber -> List Message -> Json -> Answer) :
    List AgentSubscriber -> SubscriberMutation -> Except SubscriberError SubscriberMutation
  | [], collected => .ok collected
  | subscriber :: rest, collected =>
    match executor subscriber (collected.messages.getD initialMessages) (collected.state.getD initialState) with
    | .nothing => runSubscribersWithMutation isTestEnvironment initialMessages initialState executor rest collected
    | .throws typeError =>
      if isTestEnvironment && typeError then .error .typeError
      else runSubscribersWithMutation isTestEnvironment initialMessages initialState executor rest collected
    | .mutation returned =>
      if returned.stopPropagation = some true then .ok (collected.merge returned)
      else
        runSubscribersWithMutation isTestEnvironment initialMessages initialState executor rest
          (collected.merge returned)

/-! ## Arrays -/

/-- `messages[index] = message`.  An index behind the end leaves holes. -/
def assign (index : Nat) (message : Message) (messages : List Message) : List (Option Message) :=
  if index < messages.length then (messages.set index message).map some
  else messages.map some ++ List.replicate (index - messages.length) none ++ [some message]

/-- `applyEventMetadata(messages[index], event)`, which does nothing to an index behind the end. -/
def mergeAt (index : Nat) (event : BaseEvent) (messages : List Message) : List (Option Message) :=
  match messages[index]? with
  | none => messages.map some
  | some target => (messages.set index (target.applyEventMetadata event)).map some

/-! ## The handlers -/

inductive ActivityEvent where
  | snapshot (event : ActivitySnapshotEvent)
  | delta (event : ActivityDeltaEvent)

namespace ActivityEvent

def toEvent : ActivityEvent -> Event
  | .snapshot event => .activitySnapshot event
  | .delta event => .activityDelta event

def messageId : ActivityEvent -> String
  | .snapshot event => event.messageId
  | .delta event => event.messageId

end ActivityEvent

/-- What the subscribers leave an activity event's handler with. -/
structure Heard where
  /-- The list the handler looks its message up in. -/
  before : List Message
  /-- What its subscribers make of that list. -/
  messages : List Message
  state : Json
  /-- Whether they answered with another list. -/
  replaced : Bool
  /-- Whether the handler returns without writing. -/
  returns : Bool
  emitsMessages : Bool
  emitsState : Bool

namespace Heard

/-- `existingIndex` and `existingMessage`, looked up before the subscribers run. -/
def existing (heard : Heard) (messageId : String) : Option (Nat × Message) :=
  (heard.before.findIdx? fun message => message.id = messageId).bind fun index =>
    heard.before[index]?.map fun message => (index, message)

def applyMutation (heard : Heard) (mutation : SubscriberMutation) : Heard :=
  { heard with
    messages := mutation.messages.getD heard.messages
    state := mutation.state.getD heard.state
    replaced := mutation.messages.isSome
    returns := mutation.stopPropagation = some true
    emitsMessages := heard.emitsMessages || mutation.messages.isSome
    emitsState := heard.emitsState || mutation.state.isSome }

end Heard

def isActivity (message : Message) : Bool :=
  message.role = .activity

/-- After the subscribers that hear every event. -/
def hearAny (isTestEnvironment : Bool) (subscribers : List AgentSubscriber) (messages : List Message) (state : Json)
    (event : ActivityEvent) : Except SubscriberError Heard :=
  match runSubscribersWithMutation isTestEnvironment messages state
      (fun subscriber => subscriber.onEvent event.toEvent) subscribers {} with
  | .error error => .error error
  | .ok mutation =>
    .ok
      { before := mutation.messages.getD messages
        messages := mutation.messages.getD messages
        state := mutation.state.getD state
        replaced := false
        returns := mutation.stopPropagation = some true
        emitsMessages := mutation.messages.isSome
        emitsState := mutation.state.isSome }

/-- After the subscribers of the activity event too.  They are not run for a
delta that finds no activity. -/
def hearActivity (isTestEnvironment : Bool) (subscribers : List AgentSubscriber) (heard : Heard) :
    ActivityEvent -> Except SubscriberError Heard
  | .snapshot event =>
    let existing := (heard.existing event.messageId).map Prod.snd
    (runSubscribersWithMutation isTestEnvironment heard.before heard.state
      (fun subscriber messages state =>
        subscriber.onActivitySnapshotEvent event messages state (existing.filter isActivity) existing)
      subscribers {}).map heard.applyMutation
  | .delta event =>
    match ((heard.existing event.messageId).map Prod.snd).filter isActivity with
    | none => .ok { heard with returns := true }
    | some activity =>
      (runSubscribersWithMutation isTestEnvironment heard.before heard.state
        (fun subscriber messages state => subscriber.onActivityDeltaEvent event messages state activity)
        subscribers {}).map heard.applyMutation

def hear (isTestEnvironment : Bool) (subscribers : List AgentSubscriber) (messages : List Message) (state : Json)
    (event : ActivityEvent) : Except SubscriberError Heard :=
  match hearAny isTestEnvironment subscribers messages state event with
  | .error error => .error error
  | .ok heard => if heard.returns then .ok heard else hearActivity isTestEnvironment subscribers heard event

/-- The list a snapshot leaves, and the message it created. -/
def writeSnapshot (heard : Heard) (event : ActivitySnapshotEvent) : List (Option Message) × Option Message :=
  let fresh := (activityMessage event).applyEventMetadata event.toBaseEvent
  match heard.existing event.messageId with
  | none => ((heard.messages ++ [fresh]).map some, some fresh)
  | some (index, existing) =>
    if isActivity existing then
      if event.replace.getD true then
        (assign index ((replaceActivity event existing).applyEventMetadata event.toBaseEvent) heard.messages, none)
      else
        (mergeAt index event.toBaseEvent heard.messages, none)
    else if event.replace.getD true then (assign index fresh heard.messages, some fresh)
    else (heard.messages.map some, none)

/-- An activity with the outcome of a patch. -/
def patchedActivity (event : ActivityDeltaEvent) (updated : Json) (message : Message) : Message :=
  { message with
    content := some (Content.ofJson updated)
    activityType := some event.activityType }

/-- The list a delta leaves, and whether the patch applied.  The metadata is
merged into the message that was found, which is in the list no longer if the
subscribers answered with another. -/
def writeDelta (applyPatch : ApplyPatch) (heard : Heard) (event : ActivityDeltaEvent) :
    List (Option Message) × Bool :=
  match heard.existing event.messageId with
  | none => (heard.messages.map some, false)
  | some (index, existing) =>
    let merged := existing.applyEventMetadata event.toBaseEvent
    let messages := if heard.replaced then heard.messages else heard.messages.set index merged
    match applyPatch ((merged.content.map Content.toJson).getD (.object [])) event.patch with
    | none => (messages.map some, false)
    | some updated => (assign index (patchedActivity event updated merged) messages, true)

structure ActivityOutcome where
  messages : List (Option Message)
  state : Json
  emitsMessages : Bool
  emitsState : Bool

/-- The list after an activity event, subscribers and all. -/
def applyActivityEvent (applyPatch : ApplyPatch) (isTestEnvironment : Bool) (subscribers : List AgentSubscriber)
    (messages : List Message) (state : Json) (event : ActivityEvent) : Except SubscriberError ActivityOutcome :=
  match hear isTestEnvironment subscribers messages state event with
  | .error error => .error error
  | .ok heard =>
    if heard.returns then .ok ⟨heard.messages.map some, heard.state, heard.emitsMessages, heard.emitsState⟩
    else
      match event with
      | .snapshot event =>
        let (written, created) := writeSnapshot heard event
        if created.any fun message =>
            subscribers.any fun subscriber => subscriber.onNewMessage message written heard.state then
          .error .onNewMessage
        else .ok ⟨written, heard.state, true, heard.emitsState⟩
      | .delta event =>
        let (written, patched) := writeDelta applyPatch heard event
        .ok ⟨written, heard.state, heard.emitsMessages || event.metadata.isSome || patched, heard.emitsState⟩

/-! ## Writes at a position -/

/-- Only the message under an id is another: it is replaced in its place, or put
at the end of a list without it. -/
def Framed (id : String) (before : List Message) (after : List (Option Message)) : Prop :=
  after = before.map some ∨
  (∃ index old new,
    before[index]? = some old ∧ old.id = id ∧ new.id = id ∧ after = (before.set index new).map some) ∨
  (id ∉ before.map Message.id ∧ ∃ new : Message, new.id = id ∧ after = (before ++ [new]).map some)

/-- A position at which a message under an id may be written. -/
def Writable (id : String) (index : Nat) (messages : List Message) : Prop :=
  (∃ old, messages[index]? = some old ∧ old.id = id) ∨
    (index = messages.length ∧ id ∉ messages.map Message.id)

theorem length_of_framed {id : String} {before : List Message} {after : List (Option Message)}
    (framed : Framed id before after) :
    after.length = before.length ∨ (id ∉ before.map Message.id ∧ after.length = before.length + 1) := by
  rcases framed with rfl | ⟨index, old, new, _, _, _, rfl⟩ | ⟨absent, new, _, rfl⟩
  · exact .inl (List.length_map _)
  · left
    rw [List.length_map, List.length_set]
  · right
    refine ⟨absent, ?_⟩
    rw [List.length_map, List.length_append]
    rfl

/-- A framed write within the list is to the message itself, or changes nothing. -/
theorem replaced_of_framed {id : String} {messages : List Message} {index : Nat} {old new : Message}
    (there : messages[index]? = some old) (framed : Framed id messages ((messages.set index new).map some)) :
    old.id = id ∨ new = old := by
  have inside : index < messages.length := (List.getElem?_eq_some_iff.mp there).1
  have written : (messages.set index new)[index]? = some new := List.getElem?_set_self inside
  rcases framed with same | ⟨other, replaced, changed, stood, was, _, same⟩ | ⟨_, fresh, _, same⟩
  · have unchanged := (List.map_inj_right fun _ _ => Option.some.inj).mp same
    rw [unchanged, there] at written
    exact .inr (Option.some.inj written).symm
  · have equal := (List.map_inj_right fun _ _ => Option.some.inj).mp same
    by_cases here : other = index
    · subst here
      rw [there] at stood
      rw [Option.some.inj stood]
      exact .inl was
    · rw [equal, List.getElem?_set_ne here, there] at written
      exact .inr (Option.some.inj written).symm
  · have lengths := congrArg List.length same
    simp only [List.length_map, List.length_set, List.length_append, List.length_singleton] at lengths
    omega

/-- A write within the list. -/
theorem framed_set_iff {id : String} {messages : List Message} {index : Nat} {old new : Message}
    (there : messages[index]? = some old) (named : new.id = id) :
    Framed id messages ((messages.set index new).map some) ↔ old.id = id := by
  constructor
  · intro framed
    rcases replaced_of_framed there framed with was | same
    · exact was
    · rw [← same]
      exact named
  · intro was
    exact .inr (.inl ⟨index, old, new, there, was, named, rfl⟩)

theorem framed_append_iff {id : String} {messages : List Message} {new : Message} (named : new.id = id) :
    Framed id messages ((messages ++ [new]).map some) ↔ id ∉ messages.map Message.id := by
  constructor
  · intro framed
    rcases length_of_framed framed with same | ⟨absent, _⟩
    · rw [List.length_map, List.length_append] at same
      exact absurd same (Nat.succ_ne_self _)
    · exact absent
  · intro absent
    exact .inr (.inr ⟨absent, new, named, rfl⟩)

theorem framed_assign_iff {id : String} {messages : List Message} {index : Nat} {new : Message}
    (named : new.id = id) : Framed id messages (assign index new messages) ↔ Writable id index messages := by
  unfold assign
  split
  · rename_i inside
    have there : messages[index]? = some messages[index] := List.getElem?_eq_getElem inside
    rw [framed_set_iff there named]
    constructor
    · intro was
      exact .inl ⟨messages[index], there, was⟩
    · rintro (⟨old, stood, was⟩ | ⟨impossible, _⟩)
      · rw [there] at stood
        rw [Option.some.inj stood]
        exact was
      · omega
  · rename_i outside
    by_cases next : index = messages.length
    · subst next
      rw [Nat.sub_self, List.replicate_zero, List.append_nil, ← List.map_singleton, ← List.map_append,
        framed_append_iff named]
      constructor
      · intro absent
        exact .inr ⟨rfl, absent⟩
      · rintro (⟨old, impossible, _⟩ | ⟨_, absent⟩)
        · rw [List.getElem?_eq_none (Nat.le_refl _)] at impossible
          cases impossible
        · exact absent
    · -- the list gets holes
      constructor
      · intro framed
        have lengths := length_of_framed framed
        simp only [List.length_append, List.length_map, List.length_replicate, List.length_singleton] at lengths
        omega
      · rintro (⟨old, impossible, _⟩ | ⟨same, _⟩)
        · rw [List.getElem?_eq_none (Nat.le_of_not_lt outside)] at impossible
          cases impossible
        · exact absurd same next

/-- Merging metadata may leave the message what it was. -/
theorem framed_mergeAt_iff {id : String} {messages : List Message} {index : Nat} {event : BaseEvent} :
    Framed id messages (mergeAt index event messages) ↔
      ∀ message, messages[index]? = some message ->
        message.id = id ∨ message.applyEventMetadata event = message := by
  unfold mergeAt
  cases there : messages[index]? with
  | none => exact iff_of_true (.inl rfl) (fun _ impossible => by cases impossible)
  | some target =>
    dsimp only
    constructor
    · rintro framed message same
      cases same
      exact replaced_of_framed there framed
    · intro own
      rcases own target rfl with was | same
      · exact .inr (.inl ⟨index, target, target.applyEventMetadata event, there, was, was, rfl⟩)
      · have unchanged : messages.set index target = messages := by
          have inside := (List.getElem?_eq_some_iff.mp there).1
          have value := (List.getElem?_eq_some_iff.mp there).2
          rw [← value]
          exact List.set_getElem_self inside
        rw [same, unchanged]
        exact .inl rfl

/-! ## The write of an activity event -/

/-- Of a snapshot: the subscribers left the message where it was, or the list
without it where it was not. -/
def SnapshotInPlace (heard : Heard) (event : ActivitySnapshotEvent) : Prop :=
  match heard.existing event.messageId with
  | none => event.messageId ∉ heard.messages.map Message.id
  | some (index, existing) =>
    if event.replace.getD true then Writable event.messageId index heard.messages
    else isActivity existing = true -> ∀ message, heard.messages[index]? = some message ->
      message.id = event.messageId ∨ message.applyEventMetadata event.toBaseEvent = message

/-- Of a delta: the patch fails, or the subscribers left the message where it was. -/
def DeltaInPlace (applyPatch : ApplyPatch) (heard : Heard) (event : ActivityDeltaEvent) : Prop :=
  match heard.existing event.messageId with
  | none => True
  | some (index, existing) =>
    (applyPatch (((existing.applyEventMetadata event.toBaseEvent).content.map Content.toJson).getD (.object []))
      event.patch).isSome = true -> Writable event.messageId index heard.messages

/-- What of the subscribers' answers decides where an activity event writes. -/
def WritesInPlace (applyPatch : ApplyPatch) (heard : Heard) : ActivityEvent -> Prop
  | .snapshot event => heard.returns = true ∨ SnapshotInPlace heard event
  | .delta event => heard.returns = true ∨ DeltaInPlace applyPatch heard event

theorem existing_spec {heard : Heard} {messageId : String} {index : Nat} {existing : Message}
    (found : heard.existing messageId = some (index, existing)) :
    heard.before[index]? = some existing ∧ existing.id = messageId := by
  rcases Option.bind_eq_some_iff.mp found with ⟨place, search, there⟩
  rcases Option.map_eq_some_iff.mp there with ⟨message, stood, same⟩
  cases same
  refine ⟨stood, ?_⟩
  rcases List.findIdx?_eq_some_iff_getElem.mp search with ⟨inside, named, _⟩
  rw [← (List.getElem?_eq_some_iff.mp stood).2]
  exact of_decide_eq_true named

theorem framed_writeSnapshot_iff (heard : Heard) (event : ActivitySnapshotEvent) :
    Framed event.messageId heard.messages (writeSnapshot heard event).1 ↔ SnapshotInPlace heard event := by
  unfold writeSnapshot SnapshotInPlace
  cases found : heard.existing event.messageId with
  | none => exact framed_append_iff rfl
  | some pair =>
    rcases pair with ⟨index, existing⟩
    have named := (existing_spec found).2
    dsimp only
    split
    · rename_i activity
      split
      · exact framed_assign_iff named
      · rw [framed_mergeAt_iff]
        exact ⟨fun own _ => own, fun own => own activity⟩
    · rename_i other
      split
      · exact framed_assign_iff rfl
      · exact iff_of_true (.inl rfl) (fun activity => absurd activity other)

theorem framed_writeDelta_iff (applyPatch : ApplyPatch) {heard : Heard} (event : ActivityDeltaEvent)
    (same : heard.replaced = false -> heard.messages = heard.before) :
    Framed event.messageId heard.messages (writeDelta applyPatch heard event).1 ↔
      DeltaInPlace applyPatch heard event := by
  unfold writeDelta DeltaInPlace
  cases found : heard.existing event.messageId with
  | none => exact iff_of_true (.inl rfl) trivial
  | some pair =>
    rcases pair with ⟨index, existing⟩
    rcases existing_spec found with ⟨there, named⟩
    dsimp only
    cases replaced : heard.replaced with
    | true =>
      simp only [if_true]
      cases applyPatch (((existing.applyEventMetadata event.toBaseEvent).content.map Content.toJson).getD
          (.object [])) event.patch with
      | none => exact iff_of_true (.inl rfl) (nofun)
      | some updated =>
        dsimp only
        rw [framed_assign_iff (by exact named)]
        exact ⟨fun writable _ => writable, fun writable => writable rfl⟩
    | false =>
      -- the message that was found is still in its place
      rw [← same replaced] at there
      have writable : Writable event.messageId index heard.messages := .inl ⟨existing, there, named⟩
      have inside : index < heard.messages.length := (List.getElem?_eq_some_iff.mp there).1
      refine iff_of_true ?_ (fun _ => writable)
      simp only [Bool.false_eq_true, if_false]
      cases applyPatch (((existing.applyEventMetadata event.toBaseEvent).content.map Content.toJson).getD
          (.object [])) event.patch with
      | none =>
        exact .inr (.inl ⟨index, existing, existing.applyEventMetadata event.toBaseEvent, there, named, named,
          rfl⟩)
      | some updated =>
        dsimp only
        rw [assign, if_pos (by rwa [List.length_set]), List.set_set]
        exact .inr (.inl ⟨index, existing,
          patchedActivity event updated (existing.applyEventMetadata event.toBaseEvent), there, named, named,
          rfl⟩)

/-- A handler that heard its subscribers keeps the list it looked in, unless they replaced it. -/
def Settled (heard : Heard) : Prop :=
  heard.replaced = false -> heard.messages = heard.before

theorem settled_of_map {heard after : Heard} {result : Except SubscriberError SubscriberMutation}
    (fresh : heard.messages = heard.before) (mapped : result.map heard.applyMutation = .ok after) :
    Settled after := by
  cases result with
  | error error => cases mapped
  | ok mutation =>
    cases mapped
    intro unreplaced
    have none : mutation.messages = none := Option.isNone_iff_eq_none.mp (Option.isSome_eq_false_iff.mp unreplaced)
    change mutation.messages.getD heard.messages = heard.before
    rw [none]
    exact fresh

theorem settled_of_hear {isTestEnvironment : Bool} {subscribers : List AgentSubscriber} {messages : List Message}
    {state : Json} {event : ActivityEvent} {heard : Heard}
    (hears : hear isTestEnvironment subscribers messages state event = .ok heard) : Settled heard := by
  unfold hear at hears
  cases any : hearAny isTestEnvironment subscribers messages state event with
  | error error =>
    rw [any] at hears
    cases hears
  | ok first =>
    have fresh : first.messages = first.before := by
      unfold hearAny at any
      split at any
      · cases any
      · cases any
        rfl
    rw [any] at hears
    dsimp only at hears
    split at hears
    · cases hears
      exact fun _ => fresh
    · cases event with
      | snapshot event => exact settled_of_map fresh hears
      | delta event =>
        dsimp only [hearActivity] at hears
        split at hears
        · cases hears
          exact fun _ => fresh
        · exact settled_of_map fresh hears

/-- With whatever subscribers, an activity event leaves every other message as
the subscribers left it, exactly if they left its own message in its place. -/
theorem applyActivityEvent_framed_iff (applyPatch : ApplyPatch) (isTestEnvironment : Bool)
    (subscribers : List AgentSubscriber) (messages : List Message) (state : Json) (event : ActivityEvent)
    {heard : Heard} {outcome : ActivityOutcome}
    (hears : hear isTestEnvironment subscribers messages state event = .ok heard)
    (applied : applyActivityEvent applyPatch isTestEnvironment subscribers messages state event = .ok outcome) :
    Framed event.messageId heard.messages outcome.messages ↔ WritesInPlace applyPatch heard event := by
  unfold applyActivityEvent at applied
  rw [hears] at applied
  dsimp only at applied
  cases returns : heard.returns with
  | true =>
    rw [returns, if_pos rfl] at applied
    cases applied
    cases event with
    | snapshot event | delta event => exact iff_of_true (.inl rfl) (.inl returns)
  | false =>
    rw [returns] at applied
    simp only [Bool.false_eq_true, if_false] at applied
    cases event with
    | snapshot event =>
      have placed : WritesInPlace applyPatch heard (.snapshot event) ↔ SnapshotInPlace heard event := by
        rw [WritesInPlace, returns]
        simp only [Bool.false_eq_true, false_or]
      dsimp only at applied
      split at applied
      · cases applied
      · cases applied
        exact (framed_writeSnapshot_iff heard event).trans placed.symm
    | delta event =>
      have placed : WritesInPlace applyPatch heard (.delta event) ↔ DeltaInPlace applyPatch heard event := by
        rw [WritesInPlace, returns]
        simp only [Bool.false_eq_true, false_or]
      cases applied
      exact (framed_writeDelta_iff applyPatch event (settled_of_hear hears)).trans placed.symm

/-- A subscriber that turns the list around. -/
def reorderingSubscriber : AgentSubscriber where
  onActivitySnapshotEvent := fun _ messages _ _ _ => .mutation { messages := some messages.reverse }

def plannedMessages : List Message :=
  [{ id := "p", role := .activity, activityType := some "PLAN" }, { id := "u", role := .user }]

def planSnapshot : ActivitySnapshotEvent where
  messageId := "p"
  activityType := "PLAN"
  content := .object []

/-- What the handler hears of the subscriber, and what it then writes. -/
def reordered : Heard where
  before := plannedMessages
  messages := plannedMessages.reverse
  state := .null
  replaced := true
  returns := false
  emitsMessages := true
  emitsState := false

def overwritten : ActivityOutcome where
  messages := (writeSnapshot reordered planSnapshot).1
  state := .null
  emitsMessages := true
  emitsState := false

example : overwritten.messages.map (fun message => message.map Message.id) = [some "p", some "p"] := by
  decide

theorem applyActivityEvent_framed_iff_reordered :
    Framed "p" reordered.messages overwritten.messages ↔
      WritesInPlace (fun _ _ => none) reordered (.snapshot planSnapshot) :=
  applyActivityEvent_framed_iff (fun _ _ => none) false [reorderingSubscriber] plannedMessages .null
    (.snapshot planSnapshot) rfl rfl

/-- The activity is written over the user's message and is there twice. -/
theorem reordered_not_framed :
    hear false [reorderingSubscriber] plannedMessages .null (.snapshot planSnapshot) = .ok reordered ∧
      applyActivityEvent (fun _ _ => none) false [reorderingSubscriber] plannedMessages .null
        (.snapshot planSnapshot) = .ok overwritten ∧
      ¬ Framed "p" reordered.messages overwritten.messages := by
  refine ⟨rfl, rfl, ?_⟩
  intro framed
  rcases (framed_writeSnapshot_iff reordered planSnapshot).mp framed with
    ⟨old, there, named⟩ | ⟨impossible, _⟩
  · cases there
    exact absurd named (by decide)
  · cases impossible

end Apply
end AgUi
