import Rayo.Task.HandlerTask

/-!
# What wakes a task

A task that is neither finished nor in the middle of a turn is stepped by one queued handle or by
one registration on one future. The bookkeeping of `finish` and of the end of a turn disturbs no
source.
-/

namespace Rayo.HandlerTask

open Asyncio World

/-- What is known of a task between events. -/
structure Sourced (t : TaskId) (l : Local) : Prop where
  source : ∃ source : Option Source, l.world.SourceIs t source ∧
    source.bind Source.future = l.task.state.waitingOn ∧
    (source.isSome = true ↔ l.task.phase = .idle ∧ l.task.state.finished = false)
  unfinished : l.task.phase ≠ .idle → l.task.state.finished = false
  paired : l.task.state.coroutine.isSome = l.task.state.context.isSome
  stepping : l.task.phase = .stepping → l.task.state.coroutine.isSome = true
  calledOnce : l.task.factoryCalls ≤ 1
  uncalled : l.task.phase = .idle → l.task.state.finished = false →
    l.task.state.coroutine = none → l.task.factoryCalls = 0

/-- A task in the middle of a turn: nothing else will step it. -/
structure Unsourced (t : TaskId) (l : Local) : Prop where
  source : l.world.SourceIs t none
  waitingOn : l.task.state.waitingOn = none
  unfinished : l.task.state.finished = false
  paired : l.task.state.coroutine.isSome = l.task.state.context.isSome
  calledOnce : l.task.factoryCalls ≤ 1

/-- A task that is in its turn has no source. -/
theorem Unsourced.of_busy {t : TaskId} {l : Local} (h : Sourced t l)
    (hbusy : l.task.phase ≠ .idle) : Unsourced t l := by
  obtain ⟨source, hsource, hwaiting, hsome⟩ := h.source
  cases source with
  | some source => exact absurd (hsome.mp rfl).1 hbusy
  | none => exact ⟨hsource, hwaiting.symm, h.unfinished hbusy, h.paired, h.calledOnce⟩

/-- Python code has control: the turn is not over. -/
theorem Unsourced.sourced {t : TaskId} {l : Local} (h : Unsourced t l)
    (hbusy : l.task.phase ≠ .idle)
    (hstepping : l.task.phase = .stepping → l.task.state.coroutine.isSome = true) :
    Sourced t l where
  source := ⟨none, h.source, h.waitingOn.symm, by simp [hbusy]⟩
  unfinished _ := h.unfinished
  paired := h.paired
  stepping := hstepping
  calledOnce := h.calledOnce
  uncalled hidle := absurd hidle hbusy

/-- The turn has ended with a new source. -/
theorem Unsourced.sourced_of_some {t : TaskId} {l l' : Local} (h : Unsourced t l)
    {source : Source} (hsource : l'.world.SourceIs t (some source))
    (hwaiting : l'.task.state.waitingOn = source.future) (hphase : l'.task.phase = .idle)
    (hfinished : l'.task.state.finished = l.task.state.finished)
    (hcoroutine : l'.task.state.coroutine = l.task.state.coroutine)
    (hcontext : l'.task.state.context = l.task.state.context)
    (hcalls : l'.task.factoryCalls = l.task.factoryCalls)
    (hstarted : l.task.state.coroutine.isSome = true) : Sourced t l' where
  source := ⟨some source, hsource, hwaiting.symm, by simp [hphase, hfinished, h.unfinished]⟩
  unfinished hbusy := absurd hphase hbusy
  paired := by rw [hcoroutine, hcontext, h.paired]
  stepping hstep := by simp [hphase] at hstep
  calledOnce := hcalls ▸ h.calledOnce
  uncalled _ _ hnone := by simp [← hcoroutine, hnone] at hstarted

/-- A finished task has no source and needs none. -/
structure Done (t : TaskId) (l : Local) : Prop where
  source : l.world.SourceIs t none
  waitingOn : l.task.state.waitingOn = none
  finished : l.task.state.finished = true
  paired : l.task.state.coroutine.isSome = l.task.state.context.isSome
  calledOnce : l.task.factoryCalls ≤ 1

/-- A finished task that is idle is sourced. -/
theorem Done.sourced {t : TaskId} {l : Local} (h : Done t l) (hphase : l.task.phase = .idle) :
    Sourced t l where
  source := ⟨none, h.source, h.waitingOn.symm, by simp [h.finished]⟩
  unfinished hbusy := absurd hphase hbusy
  paired := h.paired
  stepping hstep := by simp [hphase] at hstep
  calledOnce := h.calledOnce
  uncalled _ hunfinished := by simp [h.finished] at hunfinished

/-- A task in a turn has no source as long as nothing is queued for it and its state stays. -/
theorem Unsourced.congr {t : TaskId} {l k : Local} (h : Unsourced t l)
    (hworld : Undisturbed l.world k.world)
    (hwaiting : k.task.state.waitingOn = l.task.state.waitingOn)
    (hfinished : k.task.state.finished = l.task.state.finished)
    (hcoroutine : k.task.state.coroutine = l.task.state.coroutine)
    (hcontext : k.task.state.context = l.task.state.context)
    (hcalls : k.task.factoryCalls = l.task.factoryCalls) : Unsourced t k where
  source := hworld.sourceIs h.source
  waitingOn := hwaiting.trans h.waitingOn
  unfinished := hfinished.trans h.unfinished
  paired := by rw [hcoroutine, hcontext, h.paired]
  calledOnce := hcalls ▸ h.calledOnce

/-- A response disturbs no source. -/
theorem undisturbed_send (t : TaskId) (response : HandlerResponse) (l : Local) :
    Undisturbed l.world (send t response l).world := by
  unfold send
  split
  · exact .of_eq rfl rfl rfl
  · exact .refl _

/-- A response leaves the state of its task as it is. -/
@[simp] theorem send_state (t : TaskId) (response : HandlerResponse) (l : Local) :
    (send t response l).task.state = l.task.state := by
  unfold send
  split <;> rfl

/-- A response leaves the phase of its task as it is. -/
@[simp] theorem send_phase (t : TaskId) (response : HandlerResponse) (l : Local) :
    (send t response l).task.phase = l.task.phase := by
  unfold send
  split <;> rfl

/-- A response calls no handler. -/
@[simp] theorem send_factoryCalls (t : TaskId) (response : HandlerResponse) (l : Local) :
    (send t response l).task.factoryCalls = l.task.factoryCalls := by
  unfold send
  split <;> rfl

/-- A task that deregisters disturbs no source. -/
theorem undisturbed_unregister (faults : Faults) (t : TaskId) (wasRegistered : Bool)
    (w : World LoopHandles) : Undisturbed w (unregister faults t wasRegistered w) := by
  rw [unregister_eq]
  exact .of_eq rfl rfl rfl

/-- Callbacks that are fired disturb no source. -/
theorem undisturbed_fireCallbacks (faults : Faults) (t : TaskId)
    (callbacks : List (Value × Value)) (w : World LoopHandles) :
    Undisturbed w (fireCallbacks faults t callbacks w) := by
  rw [fireCallbacks_eq]
  refine ⟨fun t' => ?_, fun _ => rfl, fun _ => rfl, id⟩
  rw [handlesOf, List.filter_append, handlesOf, List.append_right_eq_self,
    List.filter_eq_nil_iff]
  intro h hh
  obtain ⟨c, -, rfl⟩ := List.mem_map.mp hh
  exact Bool.false_ne_true

/-- A task that finishes disturbs no source. -/
theorem undisturbed_finish (faults : Faults) (t : TaskId) (response : HandlerResponse)
    (completion : CompletionKind) (l : Local) :
    Undisturbed l.world (finish faults t response completion l).world := by
  unfold finish
  split
  · exact undisturbed_send t response l
  · refine Undisturbed.trans ?_ (undisturbed_send t response _)
    exact (undisturbed_unregister faults t _ _).trans (undisturbed_fireCallbacks faults t _ _)

/-- A task that leaves its context disturbs no source. -/
theorem undisturbed_leave (faults : Faults) (l : Local) :
    Undisturbed l.world (leave faults l).world := by
  unfold leave
  dsimp only
  split <;> split <;> exact .of_eq rfl rfl rfl

/-- A task is idle once it has left its context. -/
@[simp] theorem leave_task (faults : Faults) (l : Local) :
    (leave faults l).task = { l.task with phase := .idle } := by
  unfold leave
  dsimp only
  split <;> split <;> rfl

/-- What `finish` leaves of an unfinished task's state. -/
theorem finish_task (faults : Faults) (t : TaskId) (response : HandlerResponse)
    (completion : CompletionKind) {l : Local} (hunfinished : l.task.state.finished = false) :
    (finish faults t response completion l).task.state = l.task.state.complete completion ∧
      (finish faults t response completion l).task.phase = l.task.phase ∧
      (finish faults t response completion l).task.factoryCalls = l.task.factoryCalls := by
  unfold finish
  simp [hunfinished, setState, setWorld]

/-- A completed task is finished. -/
@[simp] theorem complete_finished (st : TaskState) (completion : CompletionKind) :
    (st.complete completion).finished = true := by
  cases completion <;> rfl

/-- A completed task awaits nothing. -/
@[simp] theorem complete_waitingOn (st : TaskState) (completion : CompletionKind) :
    (st.complete completion).waitingOn = none := by
  cases completion <;> rfl

/-- A completed task keeps its coroutine. -/
@[simp] theorem complete_coroutine (st : TaskState) (completion : CompletionKind) :
    (st.complete completion).coroutine = st.coroutine := by
  cases completion <;> rfl

/-- A completed task keeps its context. -/
@[simp] theorem complete_context (st : TaskState) (completion : CompletionKind) :
    (st.complete completion).context = st.context := by
  cases completion <;> rfl

/-- A response is no observation. -/
theorem send_log (t : TaskId) (response : HandlerResponse) (l : Local) :
    (send t response l).world.log = l.world.log := by
  unfold send
  split <;> rfl

/-- A task finishes without an observation. -/
theorem finish_log (faults : Faults) (t : TaskId) (response : HandlerResponse)
    (completion : CompletionKind) (l : Local) :
    (finish faults t response completion l).world.log = l.world.log := by
  unfold finish
  split
  · exact send_log t response l
  · simp [send_log, fireCallbacks_eq, unregister_eq]

/-- A task leaves its context without an observation. -/
theorem leave_log (faults : Faults) (l : Local) :
    (leave faults l).world.log = l.world.log := by
  unfold leave
  dsimp only
  split <;> split <;> rfl

/-- A task that finishes in its turn is done. -/
theorem Unsourced.finish {t : TaskId} {l : Local} (h : Unsourced t l) (faults : Faults)
    (response : HandlerResponse) (completion : CompletionKind) :
    Done t (finish faults t response completion l) := by
  obtain ⟨hstate, -, hcalls⟩ := finish_task faults t response completion h.unfinished
  exact ⟨(undisturbed_finish faults t response completion l).sourceIs h.source,
    by rw [hstate, complete_waitingOn], by rw [hstate, complete_finished],
    by rw [hstate, complete_coroutine, complete_context, h.paired], hcalls ▸ h.calledOnce⟩

/-- A task that is done is sourced once it has left its context. -/
theorem Done.leave {t : TaskId} {l : Local} (h : Done t l) (faults : Faults) :
    Sourced t (leave faults l) := by
  refine Done.sourced ⟨(undisturbed_leave faults l).sourceIs h.source, ?_, ?_, ?_, ?_⟩ ?_
  · simpa using h.waitingOn
  · simpa using h.finished
  · simpa using h.paired
  · simpa using h.calledOnce
  · simp

end Rayo.HandlerTask
