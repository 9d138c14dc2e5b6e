import AgUi.Apply.Reducer

namespace AgUi
namespace Apply

open Library Protocol

/-!
# What a list of messages says

Two observations carry everything the reducer keeps, whatever the order of
the list: the messages under an id, each without its tool calls (`faces`), and
the tool calls under an id, each with the message it hangs on (`placements`).
Both are lists, since nothing stops two messages or two calls from sharing an
id; a search finds the head.

The lemmas say how each edit of the list reads in the two observations.
-/

/-- A message without its tool calls. -/
def bare (message : Message) : Message :=
  { message with toolCalls := none }

/-- The messages with an id, without their calls. -/
def faces (messages : List Message) (id : String) : List Message :=
  (messages.map bare).filter fun message => message.id = id

/-- A tool call and the id of the message it hangs on. -/
abbrev Placement := String × ToolCall

/-- The calls of a message, each with the message that holds it. -/
def holdings (message : Message) : List Placement :=
  message.calls.map fun call => (message.id, call)

/-- Where a call stands: in which messages, and as what. -/
def placements (messages : List Message) (toolCallId : String) : List Placement :=
  (messages.flatMap holdings).filter fun placement => placement.2.id = toolCallId

/-! ## Searches -/

variable (messages : List Message)

theorem findMessage_bare (id : String) :
    (findMessage messages id).map bare = (faces messages id).head? := by
  rw [faces, List.filter_map, List.head?_map, List.head?_filter]
  rfl

theorem findMessage_eq_none_iff (id : String) :
    findMessage messages id = none ↔ faces messages id = [] := by
  rw [← List.head?_eq_none_iff, ← findMessage_bare, Option.map_eq_none_iff]

theorem findMessage_eq_some_head {messages : List Message} {id : String} {found : Message}
    (search : findMessage messages id = some found) :
    ∃ rest, faces messages id = bare found :: rest := by
  have head := findMessage_bare messages id
  rw [search, Option.map_some] at head
  exact List.head?_eq_some_iff.mp head.symm

variable (message : Message)

theorem holdings_any (toolCallId : String) :
    ((holdings message).any fun placement => placement.2.id = toolCallId) = message.hasCall toolCallId := by
  rw [holdings, List.any_map]
  rfl

theorem head?_flatMap_filter (toolCallId : String) :
    (placements messages toolCallId).head? =
      (findOwner messages toolCallId).bind fun owner =>
        (owner.calls.find? fun call => call.id = toolCallId).map fun call => (owner.id, call) := by
  rw [placements, List.head?_filter]
  induction messages with
  | nil => rfl
  | cons message rest ih =>
    rw [List.flatMap_cons, List.find?_append, findOwner, List.find?_cons, ih]
    cases holds : message.hasCall toolCallId with
    | true =>
      have found : (message.calls.find? fun call => call.id = toolCallId).isSome := by
        rw [List.find?_isSome]
        simpa [Message.hasCall] using holds
      rcases Option.isSome_iff_exists.mp found with ⟨call, search⟩
      simp only [holdings, List.find?_map, Function.comp_def, search, Option.map_some,
        Option.some_or, Option.bind_some]
    | false =>
      have missed : (holdings message).find? (fun placement => placement.2.id = toolCallId) = none := by
        rw [List.find?_eq_none]
        rw [← holdings_any, List.any_eq_false] at holds
        exact holds
      rw [missed, Option.none_or]
      rfl

theorem findCall_eq (toolCallId : String) :
    findCall messages toolCallId = (placements messages toolCallId).head?.map Prod.snd := by
  rw [head?_flatMap_filter, findCall, Option.map_bind]
  congr 1
  funext owner
  simp only [Function.comp_apply, Option.map_map, Function.comp_def, Option.map_id']

theorem findCall_eq_none_iff (toolCallId : String) :
    findCall messages toolCallId = none ↔ placements messages toolCallId = [] := by
  rw [findCall_eq, Option.map_eq_none_iff, List.head?_eq_none_iff]

/-! ## Appending -/

theorem faces_append (left right : List Message) (id : String) :
    faces (left ++ right) id = faces left id ++ faces right id := by
  rw [faces, List.map_append, List.filter_append]
  rfl

theorem faces_singleton (id : String) :
    faces [message] id = if message.id = id then [bare message] else [] := by
  by_cases same : message.id = id <;> simp [faces, bare, same]

theorem faces_cons (rest : List Message) (id : String) :
    faces (message :: rest) id = (if message.id = id then [bare message] else []) ++ faces rest id := by
  rw [← faces_singleton, ← faces_append, List.singleton_append]

theorem placements_append (left right : List Message) (toolCallId : String) :
    placements (left ++ right) toolCallId = placements left toolCallId ++ placements right toolCallId := by
  rw [placements, List.flatMap_append, List.filter_append]
  rfl

theorem placements_cons (rest : List Message) (toolCallId : String) :
    placements (message :: rest) toolCallId =
      ((holdings message).filter fun placement => placement.2.id = toolCallId) ++
        placements rest toolCallId := by
  rw [placements, List.flatMap_cons, List.filter_append]
  rfl

theorem holdings_of_none {message : Message} (none : message.toolCalls = none) : holdings message = [] := by
  rw [holdings, Message.calls, none]
  rfl

theorem placements_cons_of_none {message : Message} (none : message.toolCalls = none)
    (rest : List Message) (toolCallId : String) :
    placements (message :: rest) toolCallId = placements rest toolCallId := by
  rw [placements_cons, holdings_of_none none]
  rfl

/-! ## Editing a message -/

theorem faces_updateMessage {id : String} {change : Message -> Message} (seen : Message -> Message)
    (keeps : ∀ message, message.id = id -> (seen message).id = id)
    (reads : ∀ message, bare (change message) = seen (bare message))
    (messages : List Message) (other : String) :
    faces (updateMessage id change messages) other =
      if other = id then (faces messages other).modifyHead seen else faces messages other := by
  have moved : (updateMessage id change messages).map bare =
      updateFirst (fun message => message.id = id) seen (messages.map bare) :=
    updateFirst.map_of_commutes bare (fun message => message.id = id) seen (fun _ => rfl) reads messages
  rw [faces, moved]
  split
  · rename_i same
    subst same
    apply updateFirst.filter_self
    intro message found
    exact decide_eq_true (keeps message (of_decide_eq_true found))
  · rename_i different
    apply updateFirst.filter_of_apart
    intro message found
    have named := of_decide_eq_true found
    exact ⟨decide_eq_false fun equal => different (equal.symm.trans named),
      decide_eq_false fun equal => different (equal.symm.trans (keeps message named))⟩

/-- An edit of tool calls does not show on the messages. -/
theorem faces_of_bare {test : Message -> Bool} {change : Message -> Message}
    (same : ∀ message, bare (change message) = bare message) (messages : List Message) (id : String) :
    faces (updateFirst test change messages) id = faces messages id := by
  rw [faces, updateFirst.map_of_same bare (fun message _ => same message)]
  rfl

/-- An edit of other fields does not show on the tool calls. -/
theorem placements_updateMessage {id : String} {change : Message -> Message} {messages : List Message}
    (same : ∀ target, findMessage messages id = some target ->
      holdings (change target) = holdings target) (toolCallId : String) :
    placements (updateMessage id change messages) toolCallId = placements messages toolCallId := by
  cases search : findMessage messages id with
  | none => rw [updateMessage, updateFirst.of_absent search]
  | some target =>
    rcases updateFirst.exists_split search with ⟨before, after, whole, changed, _, _⟩
    rw [updateMessage, changed]
    rw [whole, placements_append, placements_append, placements_cons, placements_cons, same target search]

/-! ## Editing a tool call -/

theorem bare_updateCall (toolCallId : String) (change : ToolCall -> ToolCall) :
    bare (message.updateCall toolCallId change) = bare message := rfl

theorem calls_updateCall (toolCallId : String) (change : ToolCall -> ToolCall) :
    (message.updateCall toolCallId change).calls =
      updateFirst (fun call => call.id = toolCallId) change message.calls := by
  rw [Message.calls, Message.calls, Message.updateCall]
  cases message.toolCalls <;> rfl

theorem holdings_updateCall (toolCallId : String) (change : ToolCall -> ToolCall) :
    holdings (message.updateCall toolCallId change) =
      updateFirst (fun placement => placement.2.id = toolCallId)
        (fun placement => (placement.1, change placement.2)) (holdings message) := by
  rw [holdings, calls_updateCall]
  exact updateFirst.map_of_commutes (fun call => (message.id, call))
    (fun placement => placement.2.id = toolCallId) (fun placement => (placement.1, change placement.2))
    (fun _ => rfl) (fun _ => rfl) message.calls

theorem placements_updateToolCall {toolCallId : String} {change : ToolCall -> ToolCall}
    (keeps : ∀ call, (change call).id = call.id) (messages : List Message) (other : String) :
    placements (updateToolCall toolCallId change messages) other =
      if other = toolCallId then
        (placements messages other).modifyHead fun placement => (placement.1, change placement.2)
      else placements messages other := by
  have moved : (updateToolCall toolCallId change messages).flatMap holdings =
      updateFirst (fun placement => placement.2.id = toolCallId)
        (fun placement => (placement.1, change placement.2)) (messages.flatMap holdings) :=
    updateFirst.flatMap_of_part holdings (fun message => (holdings_any message toolCallId).symm)
      (fun message _ => holdings_updateCall message toolCallId change) messages
  rw [placements, moved]
  split
  · rename_i same
    subst same
    apply updateFirst.filter_self
    intro placement found
    rwa [keeps]
  · rename_i different
    apply updateFirst.filter_of_apart
    intro placement found
    have named := of_decide_eq_true found
    rw [keeps, named]
    exact ⟨decide_eq_false (Ne.symm different), decide_eq_false (Ne.symm different)⟩

/-- Hanging a new call on a message that is there. -/
theorem placements_pushCall {messages : List Message} {id : String} {target : Message}
    (search : findMessage messages id = some target) (call : ToolCall)
    (fresh : placements messages call.id = []) (toolCallId : String) :
    placements (updateMessage id (fun message => message.pushCall call) messages) toolCallId =
      if toolCallId = call.id then [(id, call)] else placements messages toolCallId := by
  rcases updateFirst.exists_split search with ⟨before, after, whole, changed, named, _⟩
  have same : target.id = id := of_decide_eq_true named
  have held : holdings (target.pushCall call) = holdings target ++ [(id, call)] := by
    rw [holdings, holdings, ← same]
    exact List.map_append
  rw [updateMessage, changed, placements_append, placements_cons, held, List.filter_append]
  rw [whole, placements_append, placements_cons] at fresh
  by_cases other : toolCallId = call.id
  · subst other
    simp only [List.append_eq_nil_iff] at fresh
    simp [fresh.1, fresh.2.1, fresh.2.2]
  · have apart : call.id ≠ toolCallId := fun equal => other equal.symm
    rw [if_neg other, whole, placements_append, placements_cons]
    simp [apart]

end Apply
end AgUi
