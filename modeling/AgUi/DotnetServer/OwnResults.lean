import Mathlib.Data.List.Induction
import AgUi.DotnetServer.Continuation

namespace AgUi
namespace DotnetServer

open Library Protocol

/-!
# Which result a resumed call is given

A continuation is to answer every call with its own result.  Here are what
that says of a history and of what `ProcessContinuation` makes of it, and
exactly which histories it holds for: results are collected under the id of
their call but declared under the name of their tool, so an unanswered call
must not share its tool with an answered one.
-/

/-! ## Answers in a history -/

variable (clientToolNames : List String)

/-- Some result is for the call. -/
def Answered (contents : List AIContent) (callId : String) : Prop :=
  ∃ result, AIContent.functionResult callId result ∈ contents

/-- The call is answered with this text. -/
def AnsweredWith (contents : List AIContent) (callId text : String) : Prop :=
  ∃ result, AIContent.functionResult callId result ∈ contents ∧ result.getD "" = text

def asClientCall : AIContent -> Option FunctionCallContent
  | .functionCall call => if clientToolNames.contains call.name then some call else none
  | _ => none

/-- The calls of client tools, in order. -/
def clientCalls (contents : List AIContent) : List FunctionCallContent :=
  contents.filterMap (asClientCall clientToolNames)

/-- The tool that the last client call with an id names. -/
def lastNamed (contents : List AIContent) (callId : String) : Option String :=
  (((clientCalls clientToolNames contents).filter fun call => call.callId = callId).getLast?).map
    FunctionCallContent.name

/-- A result for the id stands after a client call with that id. -/
def ClientAnswered (contents : List AIContent) (callId : String) : Prop :=
  ∃ before result after,
    contents = before ++ AIContent.functionResult callId result :: after ∧
      (lastNamed clientToolNames before callId).isSome

/-- Some call of the client tool has been answered. -/
def AnsweredTool (contents : List AIContent) (toolName : String) : Prop :=
  ∃ callId, ClientAnswered clientToolNames contents callId ∧
    lastNamed clientToolNames contents callId = some toolName

/-! ## What a continuation is to do -/

/-- An assistant message with an unanswered call. -/
def LeftOpen (contents : List AIContent) (message : ChatMessage) : Prop :=
  message.role = .assistant ∧
    ∃ call, AIContent.functionCall call ∈ message.contents ∧ ¬ Answered contents call.callId

/-- The last message left open, with what is before and after it. -/
structure LastOpen (history before : List ChatMessage) (message : ChatMessage) (later : List ChatMessage) : Prop where
  split : history = before ++ message :: later
  leftOpen : LeftOpen (historyContents history) message
  last : ∀ other ∈ later, ¬ LeftOpen (historyContents history) other

/-- How the contents of the message become new contents and a list of
responses: a call with its own result stays, any other call becomes one
request, with one approved response of the same id. -/
inductive Resumed (contents : List AIContent) :
    List AIContent -> List AIContent -> List AIContent -> Prop where
  | nil : Resumed contents [] [] []
  | kept {content : AIContent} {old new responses : List AIContent}
      (own : ∀ call, content = .functionCall call -> Answered contents call.callId)
      (rest : Resumed contents old new responses) :
      Resumed contents (content :: old) (content :: new) responses
  | approved {call : FunctionCallContent} {requestId : String} {old new responses : List AIContent}
      (unanswered : ¬ Answered contents call.callId)
      (rest : Resumed contents old new responses) :
      Resumed contents (.functionCall call :: old) (.toolApprovalRequest requestId call :: new)
        (.toolApprovalResponse requestId true call :: responses)

/-- A declared proxy for the tool returns the text. -/
def BoundTo (tools : List AITool) (toolName text : String) : Prop :=
  ∃ aiFunction, AITool.function aiFunction ∈ tools ∧ aiFunction.name = toolName ∧
    aiFunction.proxyResult = some text

/-- Every call of the last open message is answered with its own result, now
or when the approved calls are invoked by the name of their tool. -/
structure AnswersOwn (history : List ChatMessage) (after : Configured) : Prop where
  resumed : ∀ before message later, LastOpen history before message later ->
    ∃ new responses,
      after.messages = before ++ { role := message.role, contents := new } :: later ++
        [{ role := .user, contents := responses }] ∧
      Resumed (historyContents history) message.contents new responses ∧
      ∀ requestId call, AIContent.toolApprovalResponse requestId true call ∈ responses ->
        call.name ∈ clientToolNames ->
        ∀ text, BoundTo (after.tools.getD []) call.name text ->
          AnsweredWith (historyContents history) call.callId text
  closed : (∀ message ∈ history, ¬ LeftOpen (historyContents history) message) ->
    after.messages = history

/-- No unanswered call of the last open message shares its tool with a call
that has been answered. -/
def NoSharedTool (history : List ChatMessage) : Prop :=
  ∀ before message later, LastOpen history before message later ->
    ∀ call, AIContent.functionCall call ∈ message.contents -> ¬ Answered (historyContents history) call.callId ->
      ¬ AnsweredTool clientToolNames (historyContents history) call.name

/-! ## What is collected -/

variable {clientToolNames}

variable (contents : List AIContent)

theorem clientCalls_concat (content : AIContent) :
    clientCalls clientToolNames (contents ++ [content]) =
      clientCalls clientToolNames contents ++ (asClientCall clientToolNames content).toList := by
  rw [clientCalls, List.filterMap_append, ← clientCalls]
  cases called : asClientCall clientToolNames content with
  | none => rw [List.filterMap_cons_none called]; rfl
  | some call => rw [List.filterMap_cons_some called]; rfl

theorem lastNamed_of_not_called {contents : List AIContent} {content : AIContent} (callId : String)
    (uncalled : asClientCall clientToolNames content = none) :
    lastNamed clientToolNames (contents ++ [content]) callId = lastNamed clientToolNames contents callId := by
  rw [lastNamed, clientCalls_concat, uncalled, Option.toList_none, List.append_nil, ← lastNamed]

theorem lastNamed_of_called {contents : List AIContent} {content : AIContent} {call : FunctionCallContent}
    (callId : String) (called : asClientCall clientToolNames content = some call) :
    lastNamed clientToolNames (contents ++ [content]) callId =
      if callId = call.callId then some call.name else lastNamed clientToolNames contents callId := by
  rw [lastNamed, clientCalls_concat, called, Option.toList_some, List.filter_append]
  by_cases same : callId = call.callId
  · have kept : [call].filter (fun call => decide (call.callId = callId)) = [call] :=
      List.filter_cons_of_pos (decide_eq_true same.symm)
    rw [if_pos same, kept, List.getLast?_append, List.getLast?_singleton]
    rfl
  · have dropped : [call].filter (fun call => decide (call.callId = callId)) = [] :=
      List.filter_cons_of_neg (by simpa using fun equal => same equal.symm)
    rw [if_neg same, dropped, List.append_nil]
    rfl

theorem collect_concat (content : AIContent) :
    collect clientToolNames (contents ++ [content]) =
      (collect clientToolNames contents).visit clientToolNames content := by
  rw [collect, List.foldl_append]
  rfl

/-- A step in the visit is a client call, a result, or nothing. -/
theorem visit_cases (collected : Collected) (content : AIContent) :
    (∃ call, asClientCall clientToolNames content = some call ∧
      collected.visit clientToolNames content =
        { collected with callIdToName := collected.callIdToName.set call.callId call.name }) ∨
    (∃ callId result, content = .functionResult callId result) ∨
    (asClientCall clientToolNames content = none ∧ collected.visit clientToolNames content = collected ∧
      ∀ callId result, content ≠ .functionResult callId result) := by
  cases content with
  | functionCall call =>
    by_cases client : clientToolNames.contains call.name = true
    · exact Or.inl ⟨call, if_pos client, if_pos client⟩
    · exact Or.inr (Or.inr ⟨if_neg client, if_neg client, fun _ _ same => AIContent.noConfusion same⟩)
  | functionResult callId result => exact Or.inr (Or.inl ⟨callId, result, rfl⟩)
  | toolApprovalRequest requestId call | other content =>
    exact Or.inr (Or.inr ⟨rfl, rfl, fun _ _ same => AIContent.noConfusion same⟩)
  | toolApprovalResponse requestId approved call =>
    exact Or.inr (Or.inr ⟨rfl, rfl, fun _ _ same => AIContent.noConfusion same⟩)

theorem collect_callIdToName (callId : String) :
    (collect clientToolNames contents).callIdToName.get? callId = lastNamed clientToolNames contents callId := by
  induction contents using List.reverseRecOn with
  | nil => rfl
  | append_singleton contents content ih =>
    rw [collect_concat]
    rcases visit_cases (collect clientToolNames contents) content with
      ⟨call, called, visited⟩ | ⟨resultId, result, rfl⟩ | ⟨uncalled, visited, _⟩
    · rw [visited, lastNamed_of_called callId called, OrderedMap.get?_set, ih]
    · rw [lastNamed_of_not_called callId rfl]
      exact ih
    · rw [visited, lastNamed_of_not_called callId uncalled, ih]

theorem answered_concat {contents : List AIContent} {content : AIContent} {callId : String} :
    Answered (contents ++ [content]) callId ↔
      Answered contents callId ∨ ∃ result, content = .functionResult callId result := by
  simp only [Answered, List.mem_append, List.mem_singleton, exists_or, eq_comm]

theorem collect_resolvedCallIds (callId : String) :
    (collect clientToolNames contents).resolvedCallIds.has callId = true ↔ Answered contents callId := by
  induction contents using List.reverseRecOn with
  | nil => simp [collect, Answered]
  | append_singleton contents content ih =>
    rw [collect_concat, answered_concat, ← ih]
    rcases visit_cases (collect clientToolNames contents) content with
      ⟨call, called, visited⟩ | ⟨resultId, result, rfl⟩ | ⟨_, visited, silent⟩
    · rw [visited]
      refine (or_iff_left ?_).symm
      rintro ⟨result, rfl⟩
      cases called
    · change (OrderedSet.add _ resultId).has callId = true ↔ _
      rw [OrderedSet.has_add, Bool.or_eq_true, decide_eq_true_iff, or_comm]
      refine or_congr_right ⟨fun same => ⟨result, by rw [same]⟩, ?_⟩
      rintro ⟨_, same⟩
      exact (AIContent.functionResult.inj same).1.symm
    · rw [visited]
      exact (or_iff_left (fun ⟨result, same⟩ => silent callId result same)).symm

theorem clientAnswered_concat {contents : List AIContent} {content : AIContent} {callId : String} :
    ClientAnswered clientToolNames (contents ++ [content]) callId ↔
      ClientAnswered clientToolNames contents callId ∨
      (∃ result, content = .functionResult callId result) ∧
        (lastNamed clientToolNames contents callId).isSome := by
  constructor
  · rintro ⟨before, result, after, split, named⟩
    rcases List.eq_nil_or_concat after with rfl | ⟨after, last, rfl⟩
    · rcases List.append_inj' split rfl with ⟨rfl, same⟩
      exact Or.inr ⟨⟨result, (List.cons.inj same).1⟩, named⟩
    · rw [List.concat_eq_append, ← List.cons_append, ← List.append_assoc] at split
      rcases List.append_inj' split rfl with ⟨rfl, _⟩
      exact Or.inl ⟨before, result, after, rfl, named⟩
  · rintro (⟨before, result, after, rfl, named⟩ | ⟨⟨result, rfl⟩, named⟩)
    · refine ⟨before, result, after ++ [content], ?_, named⟩
      rw [List.append_assoc, List.cons_append]
    · exact ⟨contents, result, [], rfl, named⟩

theorem has_iff_isSome {V : Type} (map : OrderedMap String V) (key : String) :
    map.has key = true ↔ (map.get? key).isSome := Iff.rfl

theorem collect_clientCallResults (callId : String) :
    (collect clientToolNames contents).clientCallResults.has callId = true ↔
      ClientAnswered clientToolNames contents callId := by
  induction contents using List.reverseRecOn with
  | nil => simp [collect, ClientAnswered]
  | append_singleton contents content ih =>
    rw [collect_concat, clientAnswered_concat, ← ih]
    rcases visit_cases (collect clientToolNames contents) content with
      ⟨call, called, visited⟩ | ⟨resultId, result, rfl⟩ | ⟨_, visited, silent⟩
    · rw [visited]
      refine (or_iff_left ?_).symm
      rintro ⟨⟨result, rfl⟩, _⟩
      cases called
    · rw [Collected.visit, ← collect_callIdToName, ← has_iff_isSome]
      dsimp only
      have same : (∃ other, AIContent.functionResult resultId result = .functionResult callId other) ↔
          callId = resultId := by
        constructor
        · rintro ⟨_, equal⟩
          exact (AIContent.functionResult.inj equal).1.symm
        · rintro rfl
          exact ⟨result, rfl⟩
      rw [same]
      split
      next called =>
        rw [OrderedMap.has_set, Bool.or_eq_true, decide_eq_true_iff, or_comm]
        refine or_congr_right ⟨fun equal => ⟨equal, ?_⟩, And.left⟩
        rw [equal]
        exact called
      next uncalled =>
        refine (or_iff_left ?_).symm
        rintro ⟨rfl, called⟩
        exact uncalled called
    · rw [visited]
      exact (or_iff_left (fun ⟨⟨result, same⟩, _⟩ => silent callId result same)).symm

theorem mem_of_lastNamed {contents : List AIContent} {callId toolName : String}
    (named : lastNamed clientToolNames contents callId = some toolName) : toolName ∈ clientToolNames := by
  rcases Option.map_eq_some_iff.mp named with ⟨call, last, rfl⟩
  have member := List.mem_of_mem_filter (List.mem_of_getLast? last)
  rcases List.mem_filterMap.mp member with ⟨content, _, called⟩
  cases content with
  | functionCall other =>
    rw [asClientCall] at called
    split at called
    next client =>
      rw [← Option.some.inj called]
      exact List.contains_iff_mem.mp client
    next => cases called
  | functionResult | toolApprovalRequest | toolApprovalResponse | other => cases called

/-! ## What is declared -/

theorem cachedResult_isSome_iff (toolName : String) :
    (cachedResult (collect clientToolNames contents) toolName).isSome ↔
      AnsweredTool clientToolNames contents toolName := by
  rw [cachedResult, Option.isSome_map, List.find?_isSome]
  constructor
  · rintro ⟨⟨callId, text⟩, member, named⟩
    refine ⟨callId, ?_, ?_⟩
    · rw [← collect_clientCallResults, OrderedMap.has_eq_true_iff]
      exact ⟨text, (OrderedMap.mem_entries_iff _ _ _).mp member⟩
    · rw [← collect_callIdToName]
      exact eq_of_beq named
  · rintro ⟨callId, clientAnswered, named⟩
    rw [← collect_clientCallResults, OrderedMap.has_eq_true_iff] at clientAnswered
    rcases clientAnswered with ⟨text, found⟩
    refine ⟨(callId, text), (OrderedMap.mem_entries_iff _ _ _).mpr found, ?_⟩
    dsimp only
    rw [collect_callIdToName, named]
    exact beq_self_eq_true _

/-- A proxy stands among the redeclared tools exactly under the names of the
client tools of which a call was answered. -/
theorem boundTo_redeclared_iff (tools : List AGUITool) (contents : List AIContent) (toolName : String)
    (names : clientToolNames = (asAITools tools).map AITool.name) :
    (∃ text, BoundTo ((asAITools tools).map (redeclare (collect clientToolNames contents))) toolName text) ↔
      AnsweredTool clientToolNames contents toolName := by
  rw [← cachedResult_isSome_iff]
  constructor
  · rintro ⟨text, aiFunction, member, rfl, returns⟩
    rcases List.mem_map.mp member with ⟨tool, declared, redeclared⟩
    rcases List.mem_map.mp declared with ⟨aguiTool, _, rfl⟩
    rw [redeclare] at redeclared
    split at redeclared
    next result cached =>
      cases redeclared
      exact Option.isSome_of_eq_some cached
    next => cases redeclared
  · intro cached
    rcases Option.isSome_iff_exists.mp cached with ⟨text, found⟩
    have client : toolName ∈ clientToolNames := by
      rcases (cachedResult_isSome_iff _ _).mp cached with ⟨_, _, named⟩
      exact mem_of_lastNamed named
    rw [names] at client
    rcases List.mem_map.mp client with ⟨tool, declared, rfl⟩
    refine ⟨text, .approvalRequired (.proxy tool.name tool.functionDescription text), ?_, rfl, rfl⟩
    refine List.mem_map.mpr ⟨tool, declared, ?_⟩
    rw [redeclare, found]

/-! ## What is approved -/

theorem Resumed.answered_or_approved {contents old new responses : List AIContent}
    (resumed : Resumed contents old new responses) {call : FunctionCallContent}
    (called : AIContent.functionCall call ∈ old) :
    Answered contents call.callId ∨
      ∃ requestId, AIContent.toolApprovalResponse requestId true call ∈ responses := by
  induction resumed with
  | nil => cases called
  | kept own _ ih =>
    rcases List.mem_cons.mp called with same | rest
    · exact Or.inl (own call same.symm)
    · exact ih rest
  | @approved first requestId _ _ _ _ _ ih =>
    rcases List.mem_cons.mp called with same | rest
    · cases same
      exact Or.inr ⟨requestId, List.mem_cons_self⟩
    · rcases ih rest with answered | ⟨requestId, member⟩
      · exact Or.inl answered
      · exact Or.inr ⟨requestId, List.mem_cons_of_mem _ member⟩

theorem Resumed.called_of_approved {contents old new responses : List AIContent}
    (resumed : Resumed contents old new responses) {requestId : String} {call : FunctionCallContent}
    (approved : AIContent.toolApprovalResponse requestId true call ∈ responses) :
    AIContent.functionCall call ∈ old ∧ ¬ Answered contents call.callId := by
  induction resumed with
  | nil => cases approved
  | kept _ _ ih =>
    rcases ih approved with ⟨member, unanswered⟩
    exact ⟨List.mem_cons_of_mem _ member, unanswered⟩
  | approved unanswered _ ih =>
    rcases List.mem_cons.mp approved with same | rest
    · cases same
      exact ⟨List.mem_cons_self, unanswered⟩
    · rcases ih rest with ⟨member, open'⟩
      exact ⟨List.mem_cons_of_mem _ member, open'⟩

section

variable {resolvedCallIds : OrderedSet String} {contents : List AIContent}
  (resolves : ∀ callId, resolvedCallIds.has callId = true ↔ Answered contents callId)

include resolves

theorem resumed_approveUnresolved (old : List AIContent) :
    Resumed contents old (approveUnresolved resolvedCallIds old).1 (approveUnresolved resolvedCallIds old).2 := by
  induction old with
  | nil => exact .nil
  | cons content old ih =>
    cases content with
    | functionCall call =>
      rw [approveUnresolved]
      by_cases resolved : resolvedCallIds.has call.callId = true
      · rw [if_pos resolved]
        refine .kept (fun other same => ?_) ih
        cases same
        exact (resolves _).mp resolved
      · rw [if_neg resolved]
        exact .approved (mt (resolves _).mpr resolved) ih
    | functionResult | toolApprovalRequest | toolApprovalResponse | other =>
      exact .kept (fun _ same => AIContent.noConfusion same) ih

theorem leftOpen_iff (message : ChatMessage) :
    LeftOpen contents message ↔
      message.role = .assistant ∧ message.contents.any (unresolved resolvedCallIds) = true := by
  refine and_congr_right fun _ => ?_
  rw [List.any_eq_true]
  constructor
  · rintro ⟨call, member, unanswered⟩
    refine ⟨_, member, ?_⟩
    rw [unresolved, Bool.not_eq_true', Bool.eq_false_iff]
    exact mt (resolves _).mp unanswered
  · rintro ⟨content, member, pending⟩
    cases content with
    | functionCall call =>
      refine ⟨call, member, mt (resolves _).mpr ?_⟩
      rwa [unresolved, Bool.not_eq_true', Bool.eq_false_iff] at pending
    | functionResult | toolApprovalRequest | toolApprovalResponse | other => cases pending

theorem approveLast_of_closed {newestFirst : List ChatMessage}
    (closed : ∀ message ∈ newestFirst, ¬ LeftOpen contents message) :
    approveLast resolvedCallIds newestFirst = (newestFirst, []) := by
  induction newestFirst with
  | nil => rfl
  | cons message earlier ih =>
    have shut := closed message List.mem_cons_self
    rw [leftOpen_iff resolves] at shut
    rw [approveLast, if_neg shut, ih (List.forall_mem_cons.mp closed).2]

theorem approveLast_of_leftOpen {later : List ChatMessage} {message : ChatMessage} (earlier : List ChatMessage)
    (leftOpen : LeftOpen contents message)
    (last : ∀ other ∈ later, ¬ LeftOpen contents other) :
    approveLast resolvedCallIds (later ++ message :: earlier) =
      (later ++ { role := message.role, contents := (approveUnresolved resolvedCallIds message.contents).1 } :: earlier,
        (approveUnresolved resolvedCallIds message.contents).2) := by
  induction later with
  | nil => exact if_pos ((leftOpen_iff resolves message).mp leftOpen)
  | cons first later ih =>
    have shut := last first List.mem_cons_self
    rw [leftOpen_iff resolves] at shut
    rw [List.cons_append, approveLast, if_neg shut,
      ih (List.forall_mem_cons.mp last).2]
    rfl

end

/-! ## The continuation -/

variable {tools : Option (List AGUITool)}

theorem toChatRequestContext_of_continuation {history : List ChatMessage}
    (continued : (toChatRequestContext tools history).isContinuation = true) :
    toChatRequestContext tools history =
      processContinuation none (asAITools (tools.getD [])) (clientToolNamesOf tools) history := by
  cases tools with
  | none => cases continued
  | some tools =>
    cases tools with
    | nil => cases continued
    | cons tool tools =>
      change (if _ then _ else _ : Configured).isContinuation = true at continued
      change (if _ then _ else _ : Configured) = _
      split at continued
      next found => exact if_pos found
      next => cases continued

/-- The messages after a continuation, where a message was left open. -/
theorem messages_of_lastOpen (clientTools : List AITool) {history before later : List ChatMessage}
    {message : ChatMessage} (lastOpen : LastOpen history before message later) :
    ∃ new responses,
      (processContinuation none clientTools clientToolNames history).messages =
        before ++ { role := message.role, contents := new } :: later ++ [{ role := .user, contents := responses }] ∧
      Resumed (historyContents history) message.contents new responses := by
  have resolves : ∀ callId, (collect clientToolNames (historyContents history)).resolvedCallIds.has callId = true ↔
      Answered (historyContents history) callId := collect_resolvedCallIds _
  have resumed := resumed_approveUnresolved resolves message.contents
  refine ⟨_, _, ?_, resumed⟩
  have reversed : history.reverse = later.reverse ++ message :: before.reverse := by
    rw [lastOpen.split, List.reverse_append, List.reverse_cons, List.append_assoc]
    rfl
  have last : ∀ other ∈ later.reverse, ¬ LeftOpen (historyContents history) other :=
    fun other member => lastOpen.last other (List.mem_reverse.mp member)
  have approved := approveLast_of_leftOpen resolves before.reverse lastOpen.leftOpen last
  rw [← reversed] at approved
  have some : (approveUnresolved
      (collect clientToolNames (historyContents history)).resolvedCallIds message.contents).2.isEmpty = false := by
    rcases lastOpen.leftOpen with ⟨_, call, called, unanswered⟩
    rcases resumed.answered_or_approved called with answered | ⟨_, member⟩
    · exact absurd answered unanswered
    · exact List.isEmpty_eq_false_iff.mpr (List.ne_nil_of_mem member)
  rw [processContinuation]
  dsimp only
  rw [approved, some]
  simp

theorem messages_of_closed {clientTools : List AITool} {history : List ChatMessage}
    (closed : ∀ message ∈ history, ¬ LeftOpen (historyContents history) message) :
    (processContinuation none clientTools clientToolNames history).messages = history := by
  have resolves : ∀ callId, (collect clientToolNames (historyContents history)).resolvedCallIds.has callId = true ↔
      Answered (historyContents history) callId := collect_resolvedCallIds _
  have shut : ∀ message ∈ history.reverse, ¬ LeftOpen (historyContents history) message :=
    fun message member => closed message (List.mem_reverse.mp member)
  have approved := approveLast_of_closed resolves shut
  rw [processContinuation]
  dsimp only
  rw [approved]
  simp

theorem boundTo_continuation_iff (tools : Option (List AGUITool)) (history : List ChatMessage) (toolName : String) :
    (∃ text, BoundTo
      ((processContinuation none (asAITools (tools.getD [])) (clientToolNamesOf tools) history).tools.getD [])
      toolName text) ↔ AnsweredTool (clientToolNamesOf tools) (historyContents history) toolName :=
  boundTo_redeclared_iff (tools.getD []) (historyContents history) toolName rfl

theorem noSharedTool_of_answersOwn {history : List ChatMessage}
    (continued : (toChatRequestContext tools history).isContinuation = true)
    (answers : AnswersOwn (clientToolNamesOf tools) history (toChatRequestContext tools history)) :
    NoSharedTool (clientToolNamesOf tools) history := by
  intro before message later lastOpen call called unanswered shared
  rcases answers.resumed before message later lastOpen with ⟨new, responses, _, resumed, own⟩
  rcases resumed.answered_or_approved called with answered | ⟨requestId, approved⟩
  · exact unanswered answered
  · have client : call.name ∈ clientToolNamesOf tools := by
      rcases shared with ⟨_, _, named⟩
      exact mem_of_lastNamed named
    rw [← boundTo_continuation_iff, ← toChatRequestContext_of_continuation continued] at shared
    rcases shared with ⟨text, bound⟩
    rcases own requestId call approved client text bound with ⟨result, member, _⟩
    exact unanswered ⟨result, member⟩

theorem answersOwn_of_noSharedTool {history : List ChatMessage}
    (continued : (toChatRequestContext tools history).isContinuation = true)
    (unshared : NoSharedTool (clientToolNamesOf tools) history) :
    AnswersOwn (clientToolNamesOf tools) history (toChatRequestContext tools history) := by
  rw [toChatRequestContext_of_continuation continued]
  refine ⟨fun before message later lastOpen => ?_, messages_of_closed⟩
  rcases messages_of_lastOpen (asAITools (tools.getD [])) lastOpen with ⟨new, responses, messages, resumed⟩
  refine ⟨new, responses, messages, resumed, fun requestId call approved _ text bound => ?_⟩
  rcases resumed.called_of_approved approved with ⟨called, unanswered⟩
  refine absurd ?_ (unshared before message later lastOpen call called unanswered)
  exact (boundTo_continuation_iff tools history call.name).mp ⟨text, bound⟩

/-- A continuation answers every call with its own result exactly where no
unanswered call of the last open message shares its tool with an answered one. -/
theorem continuation_answers_own_iff (tools : Option (List AGUITool)) (history : List ChatMessage)
    (continued : (toChatRequestContext tools history).isContinuation = true) :
    AnswersOwn (clientToolNamesOf tools) history (toChatRequestContext tools history) ↔
      NoSharedTool (clientToolNamesOf tools) history :=
  ⟨noSharedTool_of_answersOwn continued, answersOwn_of_noSharedTool continued⟩

def locate : AGUITool :=
  { name := "locate", description := "Where the user is" }

/-- Two calls in one turn, the first of a client tool. -/
def turnOf (secondName : String) : ChatMessage :=
  { role := .assistant,
    contents := [.functionCall { callId := "1", name := "locate" },
      .functionCall { callId := "2", name := secondName }] }

def firstAnswer : ChatMessage :=
  { role := .tool, contents := [.functionResult "1" (some "Oslo")] }

theorem continuation_answers_own_iff_mixed :
    AnswersOwn ["locate"] [turnOf "weather", firstAnswer]
      (toChatRequestContext (some [locate]) [turnOf "weather", firstAnswer]) ↔
      NoSharedTool ["locate"] [turnOf "weather", firstAnswer] :=
  continuation_answers_own_iff (some [locate]) [turnOf "weather", firstAnswer] rfl

/-- Called twice and answered once: the second call reads the answer of the first. -/
theorem continuation_answers_with_other :
    ¬ AnswersOwn ["locate"] [turnOf "locate", firstAnswer]
      (toChatRequestContext (some [locate]) [turnOf "locate", firstAnswer]) := by
  intro answers
  have unshared : NoSharedTool (clientToolNamesOf (some [locate])) [turnOf "locate", firstAnswer] :=
    noSharedTool_of_answersOwn rfl answers
  have unanswered : ¬ Answered (historyContents [turnOf "locate", firstAnswer]) "2" := by
    rintro ⟨result, member⟩
    simp [historyContents, turnOf, firstAnswer] at member
  have lastOpen : LastOpen [turnOf "locate", firstAnswer] [] (turnOf "locate") [firstAnswer] := by
    refine ⟨rfl, ⟨rfl, _, List.mem_cons_of_mem _ List.mem_cons_self, unanswered⟩, ?_⟩
    intro other member
    rw [List.mem_singleton.mp member]
    rintro ⟨assistant, _⟩
    cases assistant
  refine unshared _ _ _ lastOpen { callId := "2", name := "locate" } (List.mem_cons_of_mem _ List.mem_cons_self)
    unanswered ⟨"1", ?_, rfl⟩
  exact ⟨(turnOf "locate").contents, some "Oslo", [], rfl, rfl⟩

end DotnetServer
end AgUi
