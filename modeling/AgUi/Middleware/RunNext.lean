import AgUi.Chunks.Brackets

namespace AgUi
namespace Middleware

open Library Protocol Chunks

/-!
# What a middleware sees of the agent behind it

`Middleware.runNext` expands chunks, so that no middleware has to know them.
Expanding adds and removes nothing but events of the three streamed kinds,
and a stream without chunks is passed on as it is.
-/

/-- The events handed on, and how the stream ends. -/
def runNext (suppressed : Bool) (events : List Event) : List Event × Except ChunkError TransformState :=
  (transformChunks suppressed).run {} events

/-- A START, CONTENT or END of a text message, a tool call or a reasoning message. -/
def isStreamed (event : Event) : Bool :=
  (starts? event).isSome || (streams? event).isSome || (ends? event).isSome

theorem passThrough_idle (event : Event) : passThrough {} event = ({}, [event]) := by
  rw [passThrough]
  cases closing event <;> rfl

/-- Without chunks there is nothing to expand. -/
theorem runNext_of_chunkFree (suppressed : Bool) {events : List Event}
    (chunkFree : ∀ event ∈ events, event.isChunk = false) :
    runNext suppressed events = (events, .ok {}) := by
  rw [runNext]
  induction events with
  | nil => rfl
  | cons event rest ih =>
    have later := ih (List.forall_mem_cons.mp chunkFree).2
    have plain : chunkArm? event = none := by
      have notChunk := chunkFree event List.mem_cons_self
      cases event <;> first | rfl | cases notChunk
    have step : transformChunks suppressed {} event = .ok ({}, [event]) := by
      rw [transformChunks, plain]
      exact congrArg Except.ok (passThrough_idle event)
    rw [Stage.run, step]
    simp only [later, List.singleton_append]

theorem isStreamed_synthesized {arm : ChunkArm} {open? : Option PendingStream} {pending : PendingStream}
    {event : Event} (synthesized : Synthesized arm open? pending event) : isStreamed event = true := by
  cases synthesized with
  | closing held same => cases held <;> rfl
  | start | carrying remainder same | content delta => cases pending <;> rfl

/-- Of events that are not streamed, a step emits what it was given. -/
theorem filter_transformChunks {suppressed : Bool} {keep : Event -> Bool}
    (ignoresChunks : ∀ event, event.isChunk = true -> keep event = false)
    (ignoresStreamed : ∀ event, isStreamed event = true -> keep event = false)
    {state after : TransformState} {event : Event} {output : List Event}
    (step : transformChunks suppressed state event = .ok (after, output)) :
    output.filter keep = [event].filter keep := by
  have closed : ∀ pendings : List PendingStream, (pendings.map PendingStream.endEvent).filter keep = [] := by
    intro pendings
    rw [List.filter_eq_nil_iff]
    intro ended member
    rcases List.mem_map.mp member with ⟨pending, _, rfl⟩
    rw [ignoresStreamed pending.endEvent (by cases pending <;> rfl)]
    exact Bool.false_ne_true
  unfold transformChunks at step
  cases chunk : chunkArm? event with
  | none =>
    rw [chunk] at step
    have emitted : (passThrough state event).2 = output := congrArg Prod.snd (Except.ok.inj step)
    rw [← emitted, passThrough]
    cases closing event with
    | lane owner =>
      have last := closed (state.lanes.get? owner).toList
      rw [List.filter_append]
      simp only [closeLane]
      cases held : state.lanes.get? owner with
      | none => rfl
      | some pending =>
        rw [held] at last
        exact congrArg (· ++ [event].filter keep) last
    | allLanes =>
      have last := closed (state.lanes.entries.map Prod.snd)
      rw [List.map_map] at last
      rw [List.filter_append]
      exact congrArg (· ++ [event].filter keep) last
    | nothing => rfl
  | some arm =>
    rw [chunk] at step
    rcases expandChunk_eq_ok step with ⟨lane, assembly, _, assembled, _, rfl⟩
    have isChunk : event.isChunk = true := by
      cases event <;> first | rfl | cases chunk
    rw [List.filter_cons_of_neg (by rw [ignoresChunks event isChunk]; exact Bool.false_ne_true), List.filter_nil,
      List.filter_eq_nil_iff]
    intro emitted member
    rw [ignoresStreamed emitted
      (isStreamed_synthesized (synthesized_of_mem (assemble_assembled assembled) member))]
    exact Bool.false_ne_true

theorem filter_expansion {suppressed : Bool} {keep : Event -> Bool}
    (ignoresChunks : ∀ event, event.isChunk = true -> keep event = false)
    (ignoresStreamed : ∀ event, isStreamed event = true -> keep event = false)
    {state final : TransformState} {events expanded : List Event}
    (runs : Stage.Runs (transformChunks suppressed) state events expanded final) :
    expanded.filter keep = events.filter keep := by
  induction runs with
  | nil state => rfl
  | @cons state after final event output rest outputs step tail ih =>
    rw [List.filter_append, filter_transformChunks ignoresChunks ignoresStreamed step, ih,
      ← List.filter_append, List.singleton_append]

/-! ## Expanding twice -/

/-- What a step emits is no chunk. -/
theorem isChunk_transformChunks {suppressed : Bool} {state after : TransformState} {event : Event}
    {output : List Event} (step : transformChunks suppressed state event = .ok (after, output)) :
    ∀ emitted ∈ output, emitted.isChunk = false := by
  have streamed : ∀ event, isStreamed event = true -> event.isChunk = false := by
    intro event streams
    cases event <;> first | rfl | cases streams
  have ended : ∀ pending : PendingStream, pending.endEvent.isChunk = false :=
    fun pending => streamed _ (by cases pending <;> rfl)
  intro emitted member
  unfold transformChunks at step
  cases chunk : chunkArm? event with
  | none =>
    have plain : event.isChunk = false := by
      cases event <;> first | rfl | cases chunk
    rw [chunk] at step
    rw [← show (passThrough state event).2 = output from congrArg Prod.snd (Except.ok.inj step), passThrough] at member
    cases closes : closing event with
    | lane owner =>
      rw [closes] at member
      rcases List.mem_append.mp member with closed | own
      · unfold closeLane at closed
        split at closed
        · cases closed
        · exact List.mem_singleton.mp closed ▸ ended _
      · exact List.mem_singleton.mp own ▸ plain
    | allLanes =>
      rw [closes] at member
      rcases List.mem_append.mp member with closed | own
      · rcases List.mem_map.mp closed with ⟨entry, _, rfl⟩
        exact ended entry.2
      · exact List.mem_singleton.mp own ▸ plain
    | nothing =>
      rw [closes] at member
      exact List.mem_singleton.mp member ▸ plain
  | some arm =>
    rw [chunk] at step
    rcases expandChunk_eq_ok step with ⟨lane, assembly, _, assembled, _, rfl⟩
    exact streamed _ (isStreamed_synthesized (synthesized_of_mem (assemble_assembled assembled) member))

theorem isChunk_run (suppressed : Bool) (state : TransformState) (events : List Event) :
    ∀ emitted ∈ ((transformChunks suppressed).run state events).1, emitted.isChunk = false := by
  induction events generalizing state with
  | nil => exact List.forall_mem_nil _
  | cons event rest ih =>
    rw [Stage.run]
    cases step : transformChunks suppressed state event with
    | error failure => exact List.forall_mem_nil _
    | ok result => exact List.forall_mem_append.mpr ⟨isChunk_transformChunks step, ih result.1⟩

/-- One middleware behind the other expands every chunk once: no chunk is left
for the outer one, which passes on what it gets, also of a stream that broke off. -/
theorem runNext_idempotent (suppressed again : Bool) (events : List Event) :
    (∀ emitted ∈ (runNext suppressed events).1, emitted.isChunk = false) ∧
      runNext again (runNext suppressed events).1 = ((runNext suppressed events).1, .ok {}) := by
  have chunkFree := isChunk_run suppressed {} events
  exact ⟨chunkFree, runNext_of_chunkFree again chunkFree⟩

end Middleware
end AgUi
