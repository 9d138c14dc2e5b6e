import AgUi.ManagedAgents.Account

namespace AgUi
namespace ManagedAgents

open Library Protocol Verify

/-!
# What a run delivers

A run works on what it decides to post.  The results of its batch answer the
calls that do not stay parked, each once, and its messages are those of the
history that follow the last one delivered.

`Balanced` says that a thread's record and its account agree.  Sends that land
keep them so, and with them a whole turn does, whether it runs to its end or
stops at a send that failed.
-/

/-! ## What a run posts -/

theorem answeredIds_append (first second : List UserEvent) :
    answeredIds (first ++ second) = answeredIds first ++ answeredIds second :=
  List.filterMap_append

theorem answeredIds_messages (texts : List String) : answeredIds (texts.map .message) = [] := by
  simp [answeredIds]

theorem saidTexts_messages (texts : List String) : saidTexts (texts.map .message) = texts := by
  unfold saidTexts
  rw [List.filterMap_map]
  exact List.filterMap_some

/-- Nothing but results. -/
def OnlyResults (events : List UserEvent) : Prop :=
  ∀ event ∈ events, ∃ id content isError,
    event = .customToolResult id content isError

theorem OnlyResults.said {events : List UserEvent} (only : OnlyResults events) : saidTexts events = [] := by
  apply List.filterMap_eq_nil_iff.mpr
  intro event member
  rcases only event member with ⟨id, content, isError, rfl⟩
  rfl

theorem OnlyResults.append {first second : List UserEvent} (only : OnlyResults first) (more : OnlyResults second) :
    OnlyResults (first ++ second) := by
  intro event member
  exact (List.mem_append.mp member).elim (only event) (more event)

theorem onlyResults_abandoned (ids : List String) :
    OnlyResults (ids.map fun id => toolResult id [.text abandonedToolText] true) := by
  intro event member
  rcases List.mem_map.mp member with ⟨id, _, rfl⟩
  exact ⟨id, _, _, rfl⟩

theorem answeredIds_abandoned (ids : List String) :
    answeredIds (ids.map fun id => toolResult id [.text abandonedToolText] true) = ids := by
  unfold answeredIds
  rw [List.filterMap_map]
  exact List.filterMap_some

/-- The results among the messages answer pending calls, each once, and what is
left pending is the rest. -/
structure Answers (pending : OrderedSet String) (result : List UserEvent × OrderedSet String) : Prop where
  only : OnlyResults result.1
  once : (answeredIds result.1).Nodup
  answered : ∀ id, id ∈ answeredIds result.1 ↔ pending.has id = true ∧ result.2.has id = false
  left : ∀ id, result.2.has id = true -> pending.has id = true

theorem answers_spec (pending : OrderedSet String) (messages : List InputMessage) :
    Answers pending (answers pending messages) := by
  induction messages generalizing pending with
  | nil =>
    refine ⟨fun _ impossible => absurd impossible List.not_mem_nil, List.nodup_nil, ?_, fun _ has => has⟩
    intro id
    refine iff_of_false List.not_mem_nil ?_
    rintro ⟨present, absent⟩
    exact Bool.false_ne_true (absent.symm.trans present)
  | cons message rest ih =>
    cases message with
    | user id content | other id => exact ih pending
    | tool id toolCallId content error =>
      rw [answers]
      split
      · rename_i present
        have later := ih (pending.erase toolCallId)
        have erased : ∀ id, (OrderedMap.erase pending toolCallId).has id = true ↔
            id ≠ toolCallId ∧ pending.has id = true := by
          intro id
          simp
        have listed : ∀ id, id ∈ answeredIds (toolResult toolCallId (toolResultBlocks content error)
            (error.getD "" ≠ "") :: (answers (pending.erase toolCallId) rest).1) ↔
            id = toolCallId ∨ id ∈ answeredIds (answers (pending.erase toolCallId) rest).1 :=
          fun _ => List.mem_cons
        have gone : (answers (pending.erase toolCallId) rest).2.has toolCallId = false := by
          apply Bool.eq_false_iff.mpr
          exact fun still => ((erased toolCallId).mp (later.left toolCallId still)).1 rfl
        constructor
        · intro event member
          rcases List.mem_cons.mp member with rfl | member
          · exact ⟨_, _, _, rfl⟩
          · exact later.only event member
        · refine List.nodup_cons.mpr ⟨?_, later.once⟩
          exact fun member => ((erased toolCallId).mp ((later.answered toolCallId).mp member).1).1 rfl
        · intro id
          rw [listed, later.answered, erased]
          constructor
          · rintro (rfl | ⟨⟨_, has⟩, absent⟩)
            · exact ⟨present, gone⟩
            · exact ⟨has, absent⟩
          · rintro ⟨has, absent⟩
            by_cases same : id = toolCallId
            · exact .inl same
            · exact .inr ⟨⟨same, has⟩, absent⟩
        · exact fun id still => ((erased id).mp (later.left id still)).2
      · exact ih pending

theorem has_ofList (ids : List String) (id : String) :
    (OrderedMap.ofList (ids.map fun id => (id, ()))).has id = true ↔ id ∈ ids := by
  rw [OrderedMap.has_ofList_iff, List.map_map]
  simp [Function.comp_def]

/-- What is posted in a run, for a record with these pending calls. -/
structure Posts (pending : List String) (texts : List String) (outbound : Outbound) : Prop where
  split : ∃ results, outbound.events = results ++ texts.map .message ∧ OnlyResults results
  once : (answeredIds outbound.events).Nodup
  answered : ∀ id, id ∈ answeredIds outbound.events ↔ id ∈ pending ∧ id ∉ outbound.stillParked
  left : ∀ id ∈ outbound.stillParked, id ∈ pending
  silent : outbound.stillParked ≠ [] -> texts = []

theorem outboundEvents_posts (record : SessionRecord) (messages : List InputMessage) :
    Posts record.pendingClientToolUseIds
      ((followUps (undelivered record.lastUserMessageId messages)).map Prod.snd) (outboundEvents record messages) := by
  have spec := answers_spec (OrderedMap.ofList (record.pendingClientToolUseIds.map fun id => (id, ()))) messages
  unfold outboundEvents
  dsimp only
  generalize answers _ messages = answered at spec ⊢
  have still : ∀ id, id ∈ answered.2.keys ↔ answered.2.has id = true := fun id => answered.2.mem_keys_iff id
  have sent :
      (followUps (undelivered record.lastUserMessageId messages)).map (fun message => UserEvent.message message.2) =
      ((followUps (undelivered record.lastUserMessageId messages)).map Prod.snd).map .message :=
    (List.map_map ..).symm
  split
  · rename_i last found
    constructor
    · exact ⟨_, congrArg _ sent, (onlyResults_abandoned answered.2.keys).append spec.only⟩
    · rw [answeredIds_append, answeredIds_append, sent, answeredIds_messages, List.append_nil,
        answeredIds_abandoned]
      refine List.nodup_append.mpr ⟨answered.2.keys_nodup, spec.once, ?_⟩
      rintro id remains other member rfl
      exact Bool.false_ne_true (((spec.answered id).mp member).2.symm.trans ((still id).mp remains))
    · intro id
      rw [answeredIds_append, answeredIds_append, sent, answeredIds_messages, List.append_nil,
        answeredIds_abandoned, List.mem_append, still, spec.answered, ← has_ofList record.pendingClientToolUseIds id]
      constructor
      · rintro (remains | ⟨pending, _⟩)
        · exact ⟨spec.left id remains, List.not_mem_nil⟩
        · exact ⟨pending, List.not_mem_nil⟩
      · rintro ⟨pending, _⟩
        cases remains : answered.2.has id with
        | true => exact .inl rfl
        | false => exact .inr ⟨pending, rfl⟩
    · exact fun _ impossible => absurd impossible List.not_mem_nil
    · exact fun impossible => absurd rfl impossible
  · rename_i found
    have silent := List.getLast?_eq_none_iff.mp found
    rw [silent]
    constructor
    · exact ⟨answered.1, rfl, spec.only⟩
    · rw [answeredIds_append]
      exact (List.append_nil (answeredIds answered.1)).symm ▸ spec.once
    · intro id
      rw [still, ← has_ofList record.pendingClientToolUseIds id, Bool.not_eq_true, ← spec.answered, List.map_nil,
        List.append_nil]
    · intro id remains
      exact (has_ofList _ id).mp (spec.left id ((still id).mp remains))
    · exact fun _ => rfl

/-- The last message of a run is the one its follow-ups end with. -/
theorem outboundEvents_lastUserMessageId (record : SessionRecord) (messages : List InputMessage) :
    (outboundEvents record messages).lastUserMessageId =
      (followUps (undelivered record.lastUserMessageId messages)).getLast?.map Prod.fst := by
  unfold outboundEvents
  dsimp only
  cases (followUps (undelivered record.lastUserMessageId messages)).getLast? with
  | none => rfl
  | some last => rfl

/-! ## What has been delivered -/

/-- Of these user messages the texts `said` have been delivered: those of all
that have text, from some message on and up to the last one delivered. -/
inductive Delivered (users : List (String × UserContent)) : Option String -> List String -> Prop
  | nothing : Delivered users none []
  | upTo {before after : List (String × UserContent)} {id : String} {content : UserContent}
      {skipped said : List String} (split : users = before ++ (id, content) :: after)
      (texts : (followUps (before ++ [(id, content)])).map Prod.snd = skipped ++ said) :
      Delivered users (some id) said

theorem followUps_append (first second : List (String × UserContent)) :
    followUps (first ++ second) = followUps first ++ followUps second :=
  List.filterMap_append

/-- The last follow-up comes from the last message that has text. -/
theorem followUps_last {users : List (String × UserContent)} {last : String × String}
    (found : (followUps users).getLast? = some last) :
    ∃ before content after,
      users = before ++ (last.1, content) :: after ∧ followUps (before ++ [(last.1, content)]) = followUps users := by
  rcases List.getLast?_eq_some_iff.mp found with ⟨earlier, texts⟩
  rcases List.filterMap_eq_append_iff.mp texts with ⟨first, second, rfl, firstTexts, secondTexts⟩
  rcases List.filterMap_eq_cons_iff.mp secondTexts with ⟨textless, message, after, rfl, none, one, nothing⟩
  have named : message = (last.1, message.2) := by
    split at one
    · cases one
    · exact Prod.ext (congrArg Prod.fst (Option.some.inj one) : message.1 = last.1) rfl
  have empty : followUps textless = [] := List.filterMap_eq_nil_iff.mpr none
  have rest : followUps after = [] := nothing
  refine ⟨first ++ textless, message.2, after, ?_, ?_⟩
  · rw [← named, List.append_assoc]
  · rw [← named, followUps_append, followUps_append, followUps_append, empty,
      show textless ++ message :: after = textless ++ [message] ++ after by simp, followUps_append, followUps_append,
      rest, empty, List.append_nil, List.append_nil, List.nil_append]

theorem Delivered.extend {users more : List (String × UserContent)} {last : Option String} {said : List String}
    (delivered : Delivered users last said) (grown : users <+: more) : Delivered more last said := by
  rcases grown with ⟨added, rfl⟩
  cases delivered with
  | nothing => exact .nothing
  | @upTo before after id content skipped said split texts =>
    refine @Delivered.upTo _ before (after ++ added) id content skipped said ?_ texts
    rw [split, List.append_assoc]
    rfl

/-- The delivered texts are a stretch of the history's. -/
theorem Delivered.stretch {users : List (String × UserContent)} {last : Option String} {said : List String}
    (delivered : Delivered users last said) :
    ∃ skipped rest, (followUps users).map Prod.snd = skipped ++ said ++ rest := by
  cases delivered with
  | nothing => exact ⟨(followUps users).map Prod.snd, [], by rw [List.append_nil, List.append_nil]⟩
  | @upTo before after id content skipped said split texts =>
    refine ⟨skipped, (followUps after).map Prod.snd, ?_⟩
    rw [split, show before ++ (id, content) :: after = before ++ [(id, content)] ++ after by simp, followUps_append,
      List.map_append, texts]

/-- What the run delivers follows on. -/
theorem Delivered.deliver {messages : List InputMessage} {lastUser : Option String} {said : List String}
    (delivered : Delivered (userMessages messages) lastUser said)
    (unique : ((userMessages messages).map Prod.fst).Nodup) {last : String × String}
    (found : (followUps (undelivered lastUser messages)).getLast? = some last) :
    Delivered (userMessages messages) (some last.1)
      (said ++ (followUps (undelivered lastUser messages)).map Prod.snd) := by
  rcases followUps_last found with ⟨middle, content, after, split, texts⟩
  cases delivered with
  | nothing =>
    have newest : undelivered none messages = (userMessages messages).drop ((userMessages messages).length - 1) := by
      unfold undelivered
      dsimp only
      rw [List.findIdx?_eq_none_iff.mpr (by simp)]
    have whole := List.take_append_drop ((userMessages messages).length - 1) (userMessages messages)
    rw [← newest, split] at whole
    generalize (userMessages messages).take ((userMessages messages).length - 1) = older at whole
    apply @Delivered.upTo _ (older ++ middle) after last.1 content ((followUps older).map Prod.snd)
    · rw [List.append_assoc]
      exact whole.symm
    · rw [List.append_assoc, followUps_append, texts, List.map_append]
      rfl
  | @upTo before rest id earlier skipped said users delivered =>
    have later : undelivered (some id) messages = rest := by
      have absent : ∀ message ∈ before, some message.1 ≠ some id := by
        intro message member same
        rw [users, List.map_append, List.map_cons] at unique
        exact (List.nodup_append.mp unique).2.2 message.1 (List.mem_map_of_mem member) id List.mem_cons_self
          (Option.some.inj same)
      have index : (userMessages messages).findIdx? (fun message => some message.1 = some id) = some before.length := by
        rw [users, List.findIdx?_append, List.findIdx?_eq_none_iff.mpr (by simpa using absent)]
        simp [List.findIdx?_cons]
      unfold undelivered
      dsimp only
      rw [index]
      dsimp only
      rw [users, List.drop_append]
      simp
    rw [later] at split texts ⊢
    apply @Delivered.upTo _ (before ++ [(id, earlier)] ++ middle) after last.1 content skipped
    · rw [users, split]
      simp
    · rw [List.append_assoc, followUps_append, texts, List.map_append, delivered, List.append_assoc]

/-! ## Sending -/

section

variable {options : TurnOptions} {outbound : Outbound} {start : Books}

/-- Record and account agree, and later calls are new to the account. -/
structure Balanced (users : List (String × UserContent)) (future : List SessionEvent) (books : Books) : Prop where
  pending : ∀ id, id ∈ books.1.pendingClientToolUseIds ↔ id ∈ books.2.awaiting
  once : books.2.answered.Nodup
  settled : ∀ id ∈ books.2.answered, id ∉ books.2.awaiting
  unanswered : ∀ id ∈ toolUseIds future, id ∉ books.2.answered
  unawaited : ∀ id ∈ toolUseIds future, id ∉ books.2.awaiting
  delivered : Delivered users books.1.lastUserMessageId books.2.said

theorem Balanced.later {users : List (String × UserContent)} {rest fewer : List SessionEvent} {books : Books}
    (balanced : Balanced users rest books) (fewerIds : ∀ id ∈ toolUseIds fewer, id ∈ toolUseIds rest) :
    Balanced users fewer books :=
  { balanced with
    unanswered := fun id member => balanced.unanswered id (fewerIds id member)
    unawaited := fun id member => balanced.unawaited id (fewerIds id member) }

theorem Balanced.extend {users more : List (String × UserContent)} {rest : List SessionEvent} {books : Books}
    (balanced : Balanced users rest books) (grown : users <+: more) : Balanced more rest books :=
  { balanced with delivered := balanced.delivered.extend grown }

/-- The results of a batch that answers all that is pending, as the account reads them. -/
theorem awaiting_answered {pending texts : List String} {outbound : Outbound} (posts : Posts pending texts outbound)
    (all : outbound.stillParked = []) {awaiting : List String} (same : ∀ id, id ∈ pending ↔ id ∈ awaiting)
    {events : List UserEvent} (ids : answeredIds events = answeredIds outbound.events) :
    awaiting.filter (fun id => id ∉ answeredIds events) = [] := by
  apply List.filter_eq_nil_iff.mpr
  intro id member
  rw [ids, decide_eq_true_eq, not_not, posts.answered, all]
  exact ⟨(same id).mpr member, List.not_mem_nil⟩

/-- How the sends leave the books. -/
inductive Sent (options : TurnOptions) (outbound : Outbound) (start : Books)
    (users : List (String × UserContent)) (future : List SessionEvent) (lastUser : Option String)
    (said : List String) : Turn × Bool -> Prop
  | all {turn : Turn} (kept : Kept options outbound start lastUser said future turn) :
      Sent options outbound start users future lastUser said (turn, true)
  | part {turn : Turn} (balanced : Balanced users future (books options outbound start turn))
      (returned : Returned turn.log) : Sent options outbound start users future lastUser said (turn, false)

variable {users : List (String × UserContent)} {future : List SessionEvent} {lastUser : Option String}
  {said : List String}

theorem Kept.balanced {turn : Turn}
    (kept : Kept options outbound start lastUser said future turn) (delivered : Delivered users lastUser said) :
    Balanced users future (books options outbound start turn) where
  pending := kept.pending
  once := kept.once
  settled := kept.settled
  unanswered := kept.unanswered
  unawaited id member awaited :=
    Bool.false_ne_true ((kept.unparked id member).symm.trans ((kept.parks id).mpr awaited))
  delivered := by
    rw [kept.lastUser, kept.said]
    exact delivered

/-- A turn that has shown nothing yet, in a session that waits on nothing. -/
theorem Balanced.kept {log : List Trace}
    (balanced : Balanced users future (books options outbound start { log := log })) (returned : Returned log)
    (nothing : (books options outbound start { log := log }).2.awaiting = []) :
    Kept options outbound start (books options outbound start { log := log }).1.lastUserMessageId
      (books options outbound start { log := log }).2.said future { log := log } where
  lastUser := rfl
  said := rfl
  once := balanced.once
  returned := returned
  parks id := by
    rw [nothing]
    exact iff_of_false Bool.false_ne_true List.not_mem_nil
  pending := balanced.pending
  acked _ _ := rfl
  asked _ _ := rfl
  settled := balanced.settled
  unacked _ _ := rfl
  unasked _ _ := rfl
  unparked _ _ := rfl
  unanswered := balanced.unanswered

variable {results : List UserEvent}

theorem answeredIds_results {texts : List String}
    (split : outbound.events = results ++ texts.map .message) : answeredIds results = answeredIds outbound.events := by
  rw [split, answeredIds_append, answeredIds_messages, List.append_nil]

theorem filter_results (only : OnlyResults results) (texts : List String) :
    (results ++ texts.map UserEvent.message).filter (fun event => !event.isFollowUp) = results := by
  rw [List.filter_append, List.filter_eq_self.mpr, List.filter_eq_nil_iff.mpr, List.append_nil]
  · intro event member
    rcases List.mem_map.mp member with ⟨text, _, rfl⟩
    exact Bool.false_ne_true
  · intro event member
    rcases only event member with ⟨id, content, isError, rfl⟩
    rfl

theorem filter_messages (only : OnlyResults results) (texts : List String) :
    (results ++ texts.map UserEvent.message).filter UserEvent.isFollowUp = texts.map .message := by
  rw [List.filter_append, List.filter_eq_nil_iff.mpr, List.filter_eq_self.mpr, List.nil_append]
  · intro event member
    rcases List.mem_map.mp member with ⟨text, _, rfl⟩
    rfl
  · intro event member
    rcases only event member with ⟨id, content, isError, rfl⟩
    exact Bool.false_ne_true

variable {texts : List String}

/-- The results land, the calls they answer are off the books. -/
theorem sendResults_sent (balanced : Balanced users future start)
    (posts : Posts start.1.pendingClientToolUseIds texts outbound) (all : outbound.stillParked = [])
    (script : TurnScript) (returns : script.resultsSentReturns = true) :
    Sent options outbound start users future start.1.lastUserMessageId start.2.said
      (sendResults script outbound.events) := by
  rcases posts.split with ⟨results, split, only⟩
  have ids := answeredIds_results split
  have nothing := awaiting_answered posts all balanced.pending ids
  unfold sendResults
  dsimp only
  rw [split, filter_results only]
  split
  · rename_i empty
    rw [empty] at nothing
    have unawaited : start.2.awaiting = [] := by
      rw [← nothing]
      exact (List.filter_eq_self.mpr fun _ _ => decide_eq_true List.not_mem_nil).symm
    exact .all (balanced.kept (fun _ impossible => absurd impossible List.not_mem_nil) unawaited)
  · split
    · rw [returns]
      have after : books options outbound start
          (Turn.record (Turn.post {} results) [.called .resultsSent true]) =
          ({ start.1 with pendingClientToolUseIds := [] },
            { start.2 with
              awaiting := []
              answered := start.2.answered ++ answeredIds results }) := by
        rw [books_record, Turn.post, books_record]
        simp [books, booksOf, follow, Account.enter, Account.post, only.said, Run.onCallback]
        exact fun _ id member => by simpa using List.filter_eq_nil_iff.mp nothing id member
      have returned : Returned (Turn.record (Turn.post {} results) [.called .resultsSent true]).log := by
        exact List.forall_mem_cons.mpr ⟨rfl, returned_singleton rfl⟩
      have pendingOf : ∀ id ∈ answeredIds results, id ∈ start.2.awaiting := by
        intro id member
        exact (balanced.pending id).mp ((posts.answered id).mp (ids ▸ member)).1
      have even : Balanced users future (books options outbound start
          (Turn.record (Turn.post {} results) [.called .resultsSent true])) := by
        rw [after]
        constructor
        · exact fun _ => Iff.rfl
        · refine List.nodup_append.mpr ⟨balanced.once, ids ▸ posts.once, ?_⟩
          rintro id earlier other member rfl
          exact balanced.settled id earlier (pendingOf id member)
        · exact fun _ _ => List.not_mem_nil
        · intro id member answered
          rcases List.mem_append.mp answered with earlier | now
          · exact balanced.unanswered id member earlier
          · exact balanced.unawaited id member (pendingOf id now)
        · exact fun _ _ => List.not_mem_nil
        · exact balanced.delivered
      have kept := even.kept returned (congrArg (fun books => books.2.awaiting) after)
      exact .all { kept with
        lastUser := congrArg (fun books => books.1.lastUserMessageId) after
        said := congrArg (fun books => books.2.said) after }
    · exact .part balanced fun _ impossible => absurd impossible List.not_mem_nil

/-- The messages land and are on the books as delivered. -/
theorem Kept.sendMessages {turn : Turn} (kept : Kept options outbound start lastUser said future turn) {id : String}
    (named : id ≠ "") (newest : outbound.lastUserMessageId = some id) (texts : List String) :
    Kept options outbound start (some id) (said ++ texts) future
      ((turn.post (texts.map .message)).record [.called .followUpsSent true]) := by
  have after : books options outbound start ((turn.post (texts.map .message)).record [.called .followUpsSent true]) =
      ({ (books options outbound start turn).1 with lastUserMessageId := some id },
        { (books options outbound start turn).2 with
          said := (books options outbound start turn).2.said ++ texts }) := by
    rw [books_record, Turn.post, books_record]
    simp [booksOf, follow, Account.enter, Account.post, answeredIds_messages, saidTexts_messages,
      Run.onCallback, newest,
      named]
  constructor
  · constructor
    · rw [after]
    · rw [after]
      exact congrArg (fun said => said ++ texts) kept.said
    · rw [after]
      exact kept.once
    · refine returned_append (returned_append kept.returned ?_) ?_
      · exact returned_singleton rfl
      · exact returned_singleton rfl
  · rw [after]
    exact kept.parks
  · rw [after]
    exact kept.pending
  · exact kept.acked
  · exact kept.asked
  · rw [after]
    exact kept.settled
  · exact kept.unacked
  · exact kept.unasked
  · exact kept.unparked
  · rw [after]
    exact kept.unanswered

/-- The messages that land are on the books as delivered. -/
theorem sendOutbound_sent (balanced : Balanced users future start)
    (posts : Posts start.1.pendingClientToolUseIds texts outbound) (all : outbound.stillParked = [])
    (script : TurnScript) (resultsReturn : script.resultsSentReturns = true)
    (followUpsReturn : script.followUpsSentReturns = true)
    (deliver : texts ≠ [] -> ∃ id, id ≠ "" ∧ outbound.lastUserMessageId = some id ∧
      Delivered users (some id) (start.2.said ++ texts)) :
    ∃ lastUser said, Delivered users lastUser said ∧
      Sent options outbound start users future lastUser said (sendOutbound script outbound.events) := by
  have results : Sent options outbound start users future start.1.lastUserMessageId start.2.said _ :=
    sendResults_sent balanced posts all script resultsReturn
  rcases posts.split with ⟨events, split, only⟩
  unfold sendOutbound
  generalize sendResults script outbound.events = sent at results
  cases results with
  | part unbalanced returned => exact ⟨_, _, balanced.delivered, .part unbalanced returned⟩
  | all kept =>
    dsimp only
    rw [split, filter_messages only]
    split
    · exact ⟨_, _, balanced.delivered, .all kept⟩
    · rename_i present
      have worded : texts ≠ [] := fun none => present (congrArg (List.map UserEvent.message) none)
      rcases deliver worded with ⟨id, named, newest, delivered⟩
      split
      · rw [followUpsReturn]
        exact ⟨_, _, delivered, .all (kept.sendMessages named newest texts)⟩
      · exact ⟨_, _, balanced.delivered, .part (kept.balanced balanced.delivered) kept.returned⟩

/-! ## A whole turn -/

theorem Leaves.quiet {turn later : Turn} {exit : Exit}
    (leaves : Leaves options outbound start lastUser said future (turn, some exit)) (quiet : Quiet turn later) :
    Leaves options outbound start lastUser said future (later, some exit) := by
  cases leaves with
  | threw kept => exact .threw (kept.quiet quiet)
  | finished kept idle =>
    refine .finished (kept.quiet quiet) ?_
    rw [quiet.books]
    exact idle
  | parked kept idle =>
    refine .parked (kept.quiet quiet) ?_
    rw [quiet.books]
    exact idle
  | failed kept => exact .failed (kept.quiet quiet)
  | ended kept => exact .ended (kept.quiet quiet)
  | interrupted cleared => exact .interrupted (cleared.quiet quiet)

/-- How a turn leaves the books: by what its stream did, or by a send that failed. -/
inductive Turned (options : TurnOptions) (outbound : Outbound) (start : Books)
    (users : List (String × UserContent)) (future : List SessionEvent) : Turn × Exit -> Prop
  | left {turn : Turn} {exit : Exit} {lastUser : Option String} {said : List String}
      (delivered : Delivered users lastUser said)
      (leaves : Leaves options outbound start lastUser said future (turn, some exit)) :
      Turned options outbound start users future (turn, exit)
  | stopped {turn : Turn} (balanced : Balanced users future (books options outbound start turn))
      (returned : Returned turn.log) : Turned options outbound start users future (turn, .threw)

theorem consumeStream_leaves (port : Port) (script : TurnScript) {turn : Turn}
    (kept : Kept options outbound start lastUser said (script.events.map Prod.fst ++ future) turn)
    (distinct : (toolUseIds (script.events.map Prod.fst ++ future)).Nodup)
    (returns : ∀ step ∈ script.events, step.2.parks = true) :
    Leaves options outbound start lastUser said future
      ((consumeStream port options script turn).1, some (consumeStream port options script turn).2) := by
  have leaves := kept.consume port distinct returns
  unfold consumeStream
  generalize turn.consume port options script.events = result at leaves
  rcases result with ⟨later, _ | exit⟩
  · cases leaves with
    | running kept =>
      dsimp only
      split
      · exact .threw kept
      · have closed := kept.quiet (Quiet.closeAll port later)
        split
        · exact .threw closed
        · exact closed.fail port _ _
  · exact leaves

theorem runTurn_turned (port : Port) (script : TurnScript)
    (balanced : Balanced users (script.events.map Prod.fst ++ future) start)
    (posts : Posts start.1.pendingClientToolUseIds texts outbound) (all : outbound.stillParked = [])
    (resultsReturn : script.resultsSentReturns = true) (followUpsReturn : script.followUpsSentReturns = true)
    (parksReturn : ∀ step ∈ script.events, step.2.parks = true)
    (deliver : texts ≠ [] -> ∃ id, id ≠ "" ∧ outbound.lastUserMessageId = some id ∧
      Delivered users (some id) (start.2.said ++ texts))
    (distinct : (toolUseIds (script.events.map Prod.fst ++ future)).Nodup) :
    Turned options outbound start users future (runTurn port options script outbound.events) := by
  have fewer : ∀ id ∈ toolUseIds future, id ∈ toolUseIds (script.events.map Prod.fst ++ future) :=
    fun id member => ((List.sublist_append_right _ future).filterMap _).subset member
  unfold runTurn
  split
  · have sends : ∃ lastUser said, Delivered users lastUser said ∧
        Sent options outbound start users _ lastUser said _ :=
      sendOutbound_sent balanced posts all script resultsReturn followUpsReturn deliver
    rcases sends with ⟨lastUser, said, delivered, sent⟩
    generalize sendOutbound script outbound.events = result at sent
    cases sent with
    | part balanced returned => exact .stopped (balanced.later fewer) returned
    | all kept =>
      exact .left delivered ((consumeStream_leaves port script kept distinct parksReturn).quiet (Quiet.closeAll port _))
  · exact .stopped (balanced.later fewer) fun _ impossible => absurd impossible List.not_mem_nil

end

end ManagedAgents
end AgUi
