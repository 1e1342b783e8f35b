import Rayo.Task.CompletionOrder

/-!
# What a turn does to asyncio's registry

A turn puts its task into the registry when it builds the coroutine, and not before. Nothing else in
a turn touches the registry, the coroutine or the flag that says whether asyncio has accepted.
-/

namespace Rayo.Lifecycle

open Asyncio HandlerTask

/-- What the start of a task sets. -/
def enlistment (l : Local) : Option Value × Bool × List TaskId :=
  (l.task.state.coroutine, l.task.state.registeredWithAsyncio, l.world.registered)

section

variable {faults : Faults} {t : TaskId} {l l' : Local}

/-- A task that leaves its context stays enlisted as it was. -/
@[simp] theorem enlistment_leave : enlistment (leave faults l) = enlistment l := by
  unfold leave
  dsimp only
  split <;> split <;> rfl

/-- A turn up to the advance of its coroutine leaves the task enlisted as it was. -/
theorem enlistment_advance (faults : Faults) (t : TaskId) (turn : Turn) (l : Local) :
    enlistment (HandlerTask.advance faults t turn l) = enlistment l := by
  unfold HandlerTask.advance
  dsimp only
  split
  · split
    · rfl
    · split
      · split <;> rfl
      · rfl
  · rfl

/-- A turn of a task that it does not find cancelled begins without touching the registry. -/
theorem enlistment_call {finishedFuture : Option FutureId}
    (hnone : cancelledUnstarted l.task.state = false) :
    enlistment (HandlerTask.call faults t finishedFuture l) = enlistment l := by
  unfold HandlerTask.call
  dsimp only
  split
  · rfl
  · next hfinished =>
    split
    · next hunbuilt =>
      have hcancel : l.task.state.mustCancel = false := by
        simpa [cancelledUnstarted, hfinished, hunbuilt] using hnone
      simp only [takeTurn, hcancel, Bool.false_eq_true, if_false]
      rfl
    · rw [enlistment_advance]
      rfl

/-- A task that is rescheduled or aborted stays enlisted as it was. -/
theorem enlistment_rescheduleOrAbort :
    enlistment (HandlerTask.rescheduleOrAbort faults t l) = enlistment l := by
  unfold HandlerTask.rescheduleOrAbort
  split
  · rfl
  · rw [enlistment_leave]
    rfl

/-- A callback on a future leaves the task enlisted as it was. -/
theorem enlistment_addDoneCallback (f : FutureId) :
    enlistment (HandlerTask.setWorld l (l.world.addDoneCallback f t)) = enlistment l := by
  simp only [enlistment, setWorld_world, setWorld_task, World.addDoneCallback]
  split <;> rfl

/-- A task that parks stays enlisted as it was. -/
theorem enlistment_parkOnFuture (faults : Faults) (t : TaskId) (f : FutureId) (l : Local) :
    enlistment (HandlerTask.parkOnFuture faults t f l).1 = enlistment l := by
  unfold HandlerTask.parkOnFuture
  dsimp only
  split
  · rfl
  · split
    · rfl
    · split
      · rfl
      · split
        · rfl
        · exact enlistment_addDoneCallback f

/-- The cancellation of an awaited future leaves the task enlisted as it was. -/
theorem enlistment_cancelAwaited (f : FutureId) (message : Option Value) :
    enlistment (HandlerTask.setWorld l (l.world.cancelAwaited t f message)) = enlistment l := by
  simp only [enlistment, setWorld_world, setWorld_task, World.cancelAwaited, World.cancelFuture,
    World.note]
  split <;> rfl

/-- A cancellation that was requested in mid-step leaves the task enlisted as it was. -/
theorem enlistment_applyCancelRequestedMidStep :
    enlistment (HandlerTask.applyCancelRequestedMidStep t l) = enlistment l := by
  unfold HandlerTask.applyCancelRequestedMidStep
  split
  · dsimp only
    split <;> exact enlistment_cancelAwaited _ _
  · rfl

/-- What becomes of a yielded value leaves the task enlisted as it was. -/
theorem enlistment_yieldStep (y : Yielded) :
    enlistment (HandlerTask.yieldStep faults t y l) = enlistment l := by
  cases y with
  | none => exact enlistment_rescheduleOrAbort
  | object typeName => exact enlistment_rescheduleOrAbort
  | future f =>
    have hpark := enlistment_parkOnFuture faults t f l
    unfold HandlerTask.yieldStep
    dsimp only
    split
    · next l' hcase =>
      rw [hcase] at hpark
      rw [enlistment_leave, enlistment_applyCancelRequestedMidStep, hpark]
    · next l' e hcase =>
      rw [hcase] at hpark
      exact enlistment_rescheduleOrAbort.trans hpark
    · next l' hcase =>
      rw [hcase] at hpark
      exact hpark

/-- A start that gets so far registers the task. -/
theorem enlistment_start (hfaults : faults.registerTask = false) (turn : Turn)
    (coroutine context : Value) :
    enlistment (HandlerTask.start faults t turn coroutine context l) = enlistment l ∨
      enlistment (HandlerTask.start faults t turn coroutine context l) =
        (some coroutine, true, l.world.registered.insert t) := by
  unfold HandlerTask.start
  dsimp only
  split
  · exact .inl rfl
  · right
    simp only [hfaults, Bool.false_eq_true, if_false]
    rw [enlistment_advance]
    rfl

/-- The registry after a start in which asyncio accepts the task. -/
def Enlists (t : TaskId) (l l' : Local) : Prop :=
  enlistment l' = enlistment l ∨
    l'.task.state.coroutine.isSome = true ∧ l'.task.state.registeredWithAsyncio = true ∧
      t ∈ l'.world.registered

/-- A turn that does not end its task registers it with asyncio when it starts it. -/
theorem Enlists.resume {respond : Value → HandlerResponse} {input : Input}
    (hfaults : faults.registerTask = false)
    (hnone : endingOfInput respond l.task.phase input = none) :
    Enlists t l (HandlerTask.resume respond faults t input l) := by
  cases hphase : l.task.phase <;> cases input <;>
    simp only [endingOfInput, hphase, reduceCtorEq] at hnone <;>
    simp only [HandlerTask.resume, hphase]
  case building.factoryReturned turn coroutine context =>
    rcases enlistment_start (t := t) (l := l) hfaults turn coroutine context with hsame | hstarted
    · exact .inl hsame
    · simp only [enlistment, Prod.mk.injEq] at hstarted
      obtain ⟨hcoroutine, hflag, hregistered⟩ := hstarted
      exact .inr ⟨by rw [hcoroutine]; rfl, hflag, by simp [hregistered]⟩
  case stepping.yielded y => exact .inl (enlistment_yieldStep y)
  all_goals exact .inl rfl

end

end Rayo.Lifecycle
