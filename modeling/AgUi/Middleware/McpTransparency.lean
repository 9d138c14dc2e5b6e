import AgUi.Chunks.Assembly
import AgUi.Middleware.Mcp

namespace AgUi
namespace Middleware
namespace Mcp

open Library Protocol Chunks Apply Verify

/-!
# When the MCP middleware does not interfere

A run without an open call of an MCP tool is documented to be forwarded
verbatim.  A stream of the agent may carry several runs, though, and of every
`RUN_FINISHED` in it the middleware keeps only the last, which it shows at the
end of the stream and not at all after a `RUN_ERROR`.
-/

def finish? : Event -> Option RunFinishedEvent
  | .runFinished event => some event
  | _ => none

def isFinish (event : Event) : Bool :=
  (finish? event).isSome

/-- Nothing stands behind a `RUN_FINISHED`, and no `RUN_ERROR` before it. -/
def Undisturbed (events : List Event) : Prop :=
  ∀ before finish after, events = before ++ Event.runFinished finish :: after ->
    after = [] ∧ ∀ error, Event.runError error ∉ before

/-- What the consumer is shown of a run that is not continued. -/
def shown (events : List Event) : List Event :=
  events.filter (fun event => !isFinish event) ++
    if events.any isError then [] else (events.filterMap finish?).getLast?.toList.map Event.runFinished

/-- The messages the reducer has come to by the end of the stream. -/
def finalHistory (messages : List Message) (observed : List EventWithState) : List Message :=
  (observed.getLast?.map EventWithState.messages).getD messages

/-! ## What is shown -/

theorem isFinish_iff (event : Event) : isFinish event = true ↔ ∃ finish, event = .runFinished finish := by
  cases event <;> simp [isFinish, finish?]

theorem isError_iff (event : Event) : isError event = true ↔ ∃ error, event = .runError error := by
  cases event <;> simp [isError, Event.type]

/-- One event, as the middleware takes it in. -/
theorem next_first (progress : RunProgress) (observed : EventWithState) :
    progress.next false observed =
      { latestMessages := observed.messages
        errored := progress.errored || isError observed.event
        bufferedRunFinished := (finish? observed.event).or progress.bufferedRunFinished
        forwarded := progress.forwarded ++ [observed.event].filter fun event => !isFinish event } := by
  unfold RunProgress.next
  cases event : observed.event <;> simp [RunProgress.forward, isError, finish?, isFinish, Event.type]

/-- A whole stream, as the middleware takes it in. -/
theorem hear_stream (observed : List EventWithState) (progress : RunProgress) :
    observed.foldl (RunProgress.next false) progress =
      { latestMessages := finalHistory progress.latestMessages observed
        errored := progress.errored || (observed.map EventWithState.event).any isError
        bufferedRunFinished :=
          ((observed.map EventWithState.event).filterMap finish?).getLast?.or progress.bufferedRunFinished
        forwarded :=
          progress.forwarded ++ (observed.map EventWithState.event).filter fun event => !isFinish event } := by
  induction observed using List.reverseRecOn with
  | nil => simp [finalHistory]
  | append_singleton observed last ih =>
    rw [List.foldl_append, ih, List.foldl_cons, List.foldl_nil, next_first]
    cases finished : finish? last.event <;>
      simp [finalHistory, finished, Bool.or_assoc, List.filterMap_append]

theorem output_flush (bufferedRunFinished : Option RunFinishedEvent) :
    output (flush bufferedRunFinished) = bufferedRunFinished.toList.map Event.runFinished := by
  cases bufferedRunFinished <;> rfl

variable {suppressed : Bool}

/-- With no call to execute, the consumer is shown the stream and then what was held back. -/
theorem output_runWith {applyPatch : ApplyPatch} {toolMap : String -> Bool} {world : McpWorld}
    {input : RunInput} {expanded : List Event} {final : TransformState}
    (expands : runNext suppressed (world.downstream 0) = (expanded, .ok final)) (loop : Loop)
    (idle : ourCalls toolMap
      (finalHistory input.messages
        (runNextWithState applyPatch suppressed input (world.nextMessages 0) (world.downstream 0)).1) = []) :
    output (runWith applyPatch suppressed toolMap world loop 0 input [] false) = shown expanded := by
  have events := runNextWithState_events applyPatch suppressed input (world.nextMessages 0) (world.downstream 0)
  have ended : (runNextWithState applyPatch suppressed input (world.nextMessages 0) (world.downstream 0)).2 =
      .ok final := by
    unfold runNextWithState
    rw [expands]
  rw [expands] at events
  unfold runWith
  dsimp only
  rw [List.append_nil, ended, hear_stream, events, output_starts, output_append, output_forwards]
  dsimp only
  unfold onRunComplete shown
  dsimp only
  rw [idle, Bool.false_or, List.nil_append, Option.or_none]
  cases expanded.any isError with
  | true => rfl
  | false => exact congrArg (_ ++ ·) (output_flush _)

/-! ## When it is the stream itself -/

theorem finish_not_mem_quiet (events : List Event) {finish : RunFinishedEvent} :
    Event.runFinished finish ∉ events.filter fun event => !isFinish event := by
  intro member
  have quiet := (List.mem_filter.mp member).2
  cases quiet

theorem Undisturbed.shown {events : List Event} (undisturbed : Undisturbed events) : shown events = events := by
  by_cases finished : ∃ finish, Event.runFinished finish ∈ events
  · rcases finished with ⟨finish, member⟩
    rcases List.append_of_mem member with ⟨before, after, rfl⟩
    rcases undisturbed before finish after rfl with ⟨rfl, fine⟩
    have quiet : ∀ event ∈ before, isFinish event = false := by
      intro event early
      rw [← Bool.not_eq_true]
      intro finishes
      rcases (isFinish_iff event).mp finishes with ⟨other, rfl⟩
      rcases List.append_of_mem early with ⟨first, second, rfl⟩
      have nothing := undisturbed first other (second ++ [Event.runFinished finish]) (by simp)
      exact List.cons_ne_nil _ _ (List.append_eq_nil_iff.mp nothing.1).2
    have kept : before.filter (fun event => !isFinish event) = before :=
      List.filter_eq_self.mpr fun event early => by rw [quiet event early]; rfl
    have unerring : (before ++ [Event.runFinished finish]).any isError = false := by
      refine List.any_eq_false.mpr fun event among errs => ?_
      rcases (isError_iff event).mp errs with ⟨error, rfl⟩
      rcases List.mem_append.mp among with early | last
      · exact fine error early
      · cases List.mem_singleton.mp last
    rw [Mcp.shown, unerring, List.filter_append, kept, List.filterMap_append]
    simp [isFinish, finish?]
  · have quiet : ∀ event ∈ events, finish? event = none := by
      intro event member
      cases event with
      | runFinished finish => exact absurd ⟨finish, member⟩ finished
      | _ => rfl
    have kept : events.filter (fun event => !isFinish event) = events :=
      List.filter_eq_self.mpr fun event member => by rw [isFinish, quiet event member]; rfl
    have held : events.filterMap finish? = [] := List.filterMap_eq_nil_iff.mpr quiet
    rw [Mcp.shown, kept, held]
    split <;> exact List.append_nil _

theorem undisturbed_of_shown {events : List Event} (same : shown events = events) : Undisturbed events := by
  rintro before finish after rfl
  have member : Event.runFinished finish ∈ shown (before ++ Event.runFinished finish :: after) := by
    rw [same]
    exact List.mem_append_right _ List.mem_cons_self
  unfold shown at same member
  split at member
  · rw [List.append_nil] at member
    exact absurd member (finish_not_mem_quiet _)
  · rename_i fine
    rw [if_neg fine] at same
    have unerring : ∀ error, Event.runError error ∉ before := by
      intro error early
      exact fine (List.any_eq_true.mpr ⟨_, List.mem_append_left _ early, rfl⟩)
    refine ⟨?_, unerring⟩
    rcases List.eq_nil_or_concat after with rfl | ⟨others, last, rfl⟩
    · rfl
    · exfalso
      -- the stream would end in the event held back, and everything before it be kept
      cases held : ((before ++ Event.runFinished finish :: others.concat last).filterMap finish?).getLast? with
      | none =>
        rw [held] at member
        rw [Option.toList_none, List.map_nil, List.append_nil] at member
        exact finish_not_mem_quiet _ member
      | some other =>
        rw [held] at same
        have split : (before ++ Event.runFinished finish :: others) ++ [last] =
            before ++ Event.runFinished finish :: others.concat last := by
          simp
        have parts := List.append_inj_left' (same.trans split.symm) rfl
        have kept : Event.runFinished finish ∈ before ++ Event.runFinished finish :: others :=
          List.mem_append_right _ List.mem_cons_self
        rw [← parts] at kept
        exact finish_not_mem_quiet _ kept

theorem shown_eq_iff (events : List Event) : shown events = events ↔ Undisturbed events :=
  ⟨undisturbed_of_shown, Undisturbed.shown⟩

/-! ## Before and after the chunks are expanded -/

/-- With nothing pending, every event comes out as one at least. -/
theorem transformChunks_emits {state after : TransformState} {event : Event}
    {emitted : List Event} (idle : state.lanes = OrderedMap.empty)
    (step : transformChunks suppressed state event = .ok (after, emitted)) : emitted ≠ [] := by
  unfold transformChunks at step
  cases chunk : chunkArm? event with
  | none =>
    rw [chunk] at step
    have passed : (passThrough state event).2 = emitted := congrArg Prod.snd (Except.ok.inj step)
    rw [← passed, passThrough]
    cases closing event with
    | lane owner | allLanes => exact List.append_ne_nil_of_right_ne_nil _ (List.cons_ne_nil _ _)
    | nothing => exact List.cons_ne_nil _ _
  | some arm =>
    rw [chunk] at step
    rcases expandChunk_eq_ok step with ⟨lane, assembly, _, assembled, _, rfl⟩
    cases assemble_assembled assembled with
    | continues pending held same =>
      rw [idle] at held
      cases held
    | opens pending opener apart =>
      refine List.append_ne_nil_of_right_ne_nil _ ?_
      unfold ChunkArm.opening
      dsimp only
      split
      · exact List.cons_ne_nil _ _
      · split <;> exact List.cons_ne_nil _ _

/-- A `RUN_FINISHED` closes what is pending and comes out last. -/
theorem runs_runFinished {state final : TransformState} {before after expanded : List Event}
    {finish : RunFinishedEvent}
    (runs : Stage.Runs (transformChunks suppressed) state (before ++ Event.runFinished finish :: after)
      expanded final) :
    ∃ early late, expanded = early ++ Event.runFinished finish :: late ∧
      early.filter isFinish = before.filter isFinish ∧ early.filter isError = before.filter isError ∧
      (late = [] ↔ after = []) := by
  rcases runs.exists_middle with ⟨middle, one, rest, rfl, head, tail⟩
  rcases tail.of_cons with ⟨closed, output, late, rfl, step, others⟩
  have passed : passThrough middle (.runFinished finish) = (closed, output) := Except.ok.inj step
  have ends : output = middle.lanes.entries.map (fun entry => entry.2.endEvent) ++ [Event.runFinished finish] :=
    (congrArg Prod.snd passed).symm
  have idle : closed.lanes = OrderedMap.empty := (congrArg (fun pair => pair.1.lanes) passed).symm
  have closings : ∀ keep : Event -> Bool, (∀ pending : PendingStream, keep pending.endEvent = false) ->
      (middle.lanes.entries.map fun entry => entry.2.endEvent).filter keep = [] := by
    intro keep ignores
    refine List.filter_eq_nil_iff.mpr fun event member kept => ?_
    rcases List.mem_map.mp member with ⟨entry, _, rfl⟩
    rw [ignores entry.2] at kept
    cases kept
  refine ⟨one ++ middle.lanes.entries.map fun entry => entry.2.endEvent, late, ?_, ?_, ?_, ?_⟩
  · rw [ends]
    simp
  · rw [List.filter_append, closings isFinish (by intro pending; cases pending <;> rfl), List.append_nil]
    refine filter_expansion ?_ ?_ head <;> intro event
    · cases event <;> simp [Event.isChunk, isFinish, finish?]
    · cases event <;> simp [isStreamed, starts?, streams?, ends?, isFinish, finish?]
  · rw [List.filter_append, closings isError (by intro pending; cases pending <;> rfl), List.append_nil]
    refine filter_expansion ?_ ?_ head <;> intro event
    · cases event <;> simp [Event.isChunk, isError, Event.type]
    · cases event <;> simp [isStreamed, starts?, streams?, ends?, isError, Event.type]
  · constructor
    · rintro rfl
      cases after with
      | nil => rfl
      | cons event rest =>
        rcases others.of_cons with ⟨_, emitted, _, nothing, first, _⟩
        exact absurd (List.append_eq_nil_iff.mp nothing.symm).1 (transformChunks_emits idle first)
    · rintro rfl
      cases others
      rfl

theorem undisturbed_expansion {final : TransformState} {events expanded : List Event}
    (runs : Stage.Runs (transformChunks suppressed) {} events expanded final) :
    Undisturbed expanded ↔ Undisturbed events := by
  have errs : ∀ error : RunErrorEvent, ∀ one other : List Event,
      one.filter isError = other.filter isError -> (Event.runError error ∈ one ↔ Event.runError error ∈ other) := by
    intro error one other same
    have kept : ∀ list : List Event,
        Event.runError error ∈ list ↔ Event.runError error ∈ list.filter isError := by
      intro list
      rw [List.mem_filter]
      exact ⟨fun member => ⟨member, rfl⟩, fun member => member.1⟩
    rw [kept one, kept other, same]
  constructor
  · rintro undisturbed before finish after rfl
    rcases runs_runFinished runs with ⟨early, late, rfl, _, errors, nothing⟩
    rcases undisturbed early finish late rfl with ⟨last, fine⟩
    exact ⟨nothing.mp last, fun error member => fine error ((errs error early before errors).mpr member)⟩
  · rintro undisturbed before finish after rfl
    have source : Event.runFinished finish ∈ events := by
      have kept : (before ++ Event.runFinished finish :: after).filter isFinish = events.filter isFinish := by
        refine filter_expansion ?_ ?_ runs <;> intro event
        · cases event <;> simp [Event.isChunk, isFinish, finish?]
        · cases event <;> simp [isStreamed, starts?, streams?, ends?, isFinish, finish?]
      have member : Event.runFinished finish ∈ events.filter isFinish := by
        rw [← kept]
        exact List.mem_filter.mpr ⟨List.mem_append_right _ List.mem_cons_self, rfl⟩
      exact (List.mem_filter.mp member).1
    rcases List.append_of_mem source with ⟨first, second, rfl⟩
    rcases undisturbed first finish second rfl with ⟨rfl, fine⟩
    rcases runs_runFinished runs with ⟨early, late, same, finishes, errors, nothing⟩
    cases nothing.mpr rfl
    have unfinished : ∀ other, Event.runFinished other ∉ early := by
      intro other member
      have kept : Event.runFinished other ∈ first.filter isFinish := by
        rw [← finishes]
        exact List.mem_filter.mpr ⟨member, rfl⟩
      rcases List.append_of_mem (List.mem_filter.mp kept).1 with ⟨one, two, rfl⟩
      have impossible := undisturbed one other (two ++ [Event.runFinished finish]) (by simp)
      exact List.cons_ne_nil _ _ (List.append_eq_nil_iff.mp impossible.1).2
    rcases List.eq_nil_or_concat after with rfl | ⟨others, last, rfl⟩
    · have parts := List.append_inj_left' same rfl
      rw [parts]
      exact ⟨rfl, fun error member => fine error ((errs error early first errors).mp member)⟩
    · exfalso
      have split : (before ++ Event.runFinished finish :: others) ++ [last] = early ++ [Event.runFinished finish] := by
        rw [← same]
        simp
      have parts := List.append_inj_left' split rfl
      exact unfinished finish (parts ▸ List.mem_append_right _ List.mem_cons_self)

/-! ## Transparency -/

/-- With nothing to execute, the consumer is shown the agent's stream exactly
if there are no servers or the stream is undisturbed: at most one run finishes
in it, that run is the last, and no run failed before it. -/
theorem run_transparent_iff (applyPatch : ApplyPatch) (suppressed : Bool) (toolMap : String -> Bool)
    (world : McpWorld) (mcpServers : List String) (requested : Option Rat) (input : RunInput)
    {expanded : List Event} {final : TransformState}
    (expands : runNext suppressed (world.downstream 0) = (expanded, .ok final))
    (idle : ourCalls toolMap
      (finalHistory input.messages
        (runNextWithState applyPatch suppressed input (world.nextMessages 0) (world.downstream 0)).1) = []) :
    output (run applyPatch suppressed toolMap world mcpServers requested input) = expanded ↔
      mcpServers = [] ∨ Undisturbed (world.downstream 0) := by
  cases mcpServers with
  | nil =>
    refine iff_of_true ?_ (.inl rfl)
    unfold run
    rw [expands]
    dsimp only [List.isEmpty_nil]
    rw [if_pos rfl]
    rw [output_starts, output_append, output_forwards]
    exact List.append_nil _
  | cons server others =>
    have runs := (Stage.runs_iff_run _ _ _ _).mpr expands
    have same : output (run applyPatch suppressed toolMap world (server :: others) requested input) =
        shown expanded := by
      unfold run
      rw [if_neg (by simp)]
      cases maxIterations requested with
      | zero => exact output_runWith expands none idle
      | succ remaining => exact output_runWith expands _ idle
    rw [same, shown_eq_iff, undisturbed_expansion runs]
    exact ⟨.inr, fun either => either.resolve_left (List.cons_ne_nil _ _)⟩

/-- An agent whose one stream is `events`. -/
def oneStream (events : List Event) : McpWorld where
  downstream _ := events
  nextMessages _ := []
  randomUUID _ _ := "uuid"
  executeToolCall _ _ _ := ""

/-- A run in which nothing of the middleware is asked for. -/
def spokenRun : List Event :=
  [.runStarted { threadId := "t", runId := "r" },
   .textMessageChunk { messageId := some "m", delta := some "hi" },
   .runFinished { threadId := "t", runId := "r" }]

theorem run_transparent_spokenRun :
    output (run (fun _ _ => none) false (fun _ => true) (oneStream spokenRun) ["server0"] none { runId := "r" }) =
        (runNext false spokenRun).1 ↔
      ["server0"] = [] ∨ Undisturbed spokenRun :=
  run_transparent_iff _ _ _ (oneStream spokenRun) _ _ _ rfl (by decide)

/-- Two runs on one stream: the consumer is not shown that the first one finished. -/
theorem twoRuns_not_transparent :
    accepted (emptyRun ++ emptyRun) = true ∧
      ourCalls (fun _ => true)
        (finalHistory []
          (runNextWithState (fun _ _ => none) false { runId := "q" } [] (emptyRun ++ emptyRun)).1) = [] ∧
      (runNext false (emptyRun ++ emptyRun)).1 = emptyRun ++ emptyRun ∧
      output (run (fun _ _ => none) false (fun _ => true) (oneStream (emptyRun ++ emptyRun)) ["server0"] none
        { runId := "q" }) ≠ emptyRun ++ emptyRun := by
  refine ⟨by decide, by decide, rfl, ?_⟩
  intro same
  have shorter := congrArg List.length same
  revert shorter
  decide

end Mcp
end Middleware
end AgUi
