import Rayo.Asyncio.Task
import Rayo.Task.WakeSource

/-!
# What corresponds to what in the two kinds of tasks

`HandlerTask` and `asyncio.Task` keep the pending message, the deferred error and the cancellation
flag in different places. The correspondence of their states holds between callbacks, and that of
their queues and futures does not see the exceptions that handles carry.
-/

namespace Rayo.HandlerTask

open Asyncio World

/-- A handle without the exception it carries. -/
def bareHandle : Handle → Handle
  | .step t _ => .step t none
  | h => h

/-- The observation is one of an operation on a running coroutine, a future or a task. -/
def drives : Observation → Bool
  | .threwUnstarted .. | .turnLost _ => false
  | _ => true

/-- The trace of a log: what drives coroutines and futures, with the texts of protocol errors
left out. -/
def driving (log : List Observation) : List Observation :=
  (log.filter drives).map Observation.erase

/-- The two loops share their futures, their queues up to the exceptions that handles carry,
and their traces. -/
structure WorldRel (w : World LoopHandles) (v : World Unit) : Prop where
  loop : w.loop = v.loop
  futures : w.futures = v.futures
  ready : w.ready.map bareHandle = v.ready.map bareHandle
  trace : driving w.log = driving v.log

/-- An unfinished task. The exception that a handle of the reference carries is the deferred
error here, and a cancellation that is pending while a future is awaited has been refused by
it for good. -/
structure Active (t : TaskId) (l : Local) (m : Task.Local) : Prop where
  started : l.task.state.coroutine.isSome = m.task.started
  mustCancel : l.task.state.mustCancel = m.task.mustCancel
  message : m.task.mustCancel = true → l.task.state.cancelMessage = m.task.cancelMessage
  counted : m.task.mustCancel = true → m.task.numCancelsRequested ≠ 0
  waitingOn : l.task.state.waitingOn = m.task.futWaiter
  deferred : ∀ e, .step t e ∈ m.world.ready →
    l.task.state.deferredThrow.map Exception.erase = e.map Exception.erase
  undeferred : l.task.phase = .stepping ∨ l.task.state.waitingOn.isSome = true →
    l.task.state.deferredThrow = none
  refused : m.task.mustCancel = true → ∀ f, l.task.state.waitingOn = some f →
    l.world.acceptsCancel f = false
  unstarted : m.task.started = false →
    l.task.state.deferredThrow = none ∧ l.task.state.waitingOn = none
  paired : l.task.state.coroutine.isSome = l.task.state.context.isSome

/-- The task of the handler and its counterpart. -/
structure TaskRel (t : TaskId) (l : Local) (m : Task.Local) : Prop where
  finished : l.task.state.finished = m.task.outcome.isSome
  idle : l.task.phase = .idle ↔ m.task.running = false
  stepping : l.task.phase = .stepping ↔ m.task.running = true
  count : l.task.state.cancelRequests = m.task.numCancelsRequested
  callbacks : l.task.state.doneCallbacks = m.task.callbacks
  active : m.task.outcome = none → Active t l m

/-- What one task does leaves the others related. -/
structure Apart (t : TaskId) (w w' : World LoopHandles) (v v' : World Unit) : Prop where
  steps : ∀ t', t' ≠ t → ∀ e, .step t' e ∈ v'.ready → .step t' e ∈ v.ready
  refuses : ∀ f, w.acceptsCancel f = false → w'.acceptsCancel f = false

/-- A pair of turns keeps the correspondence. -/
structure Paired (t : TaskId) (w : World LoopHandles) (v : World Unit) (l : Local)
    (m : Task.Local) : Prop where
  world : WorldRel l.world m.world
  task : TaskRel t l m
  apart : Apart t w l.world v m.world

section

variable {t : TaskId} {w w' : World LoopHandles} {v v' : World Unit} {l : Local} {m : Task.Local}

/-- Two pairs of steps that leave the others related do so together. -/
theorem Apart.trans {w'' : World LoopHandles} {v'' : World Unit} (h : Apart t w w' v v')
    (h' : Apart t w' w'' v' v'') : Apart t w w'' v v'' :=
  ⟨fun t' ht e he => h.steps t' ht e (h'.steps t' ht e he),
    fun f hf => h'.refuses f (h.refuses f hf)⟩

/-- Steps that queue no handle of another task and touch no future leave the others related. -/
theorem Apart.of_eq (hready : ∀ t', t' ≠ t → ∀ e, .step t' e ∈ v'.ready → .step t' e ∈ v.ready)
    (hfutures : w'.futures = w.futures) : Apart t w w' v v' :=
  ⟨hready, fun f hf => by simpa only [acceptsCancel, hfutures] using hf⟩

/-- A pair of turns keeps the correspondence also after steps that leave the others related. -/
theorem Paired.after (h : Paired t w' v' l m) (happart : Apart t w w' v v') : Paired t w v l m :=
  ⟨h.world, h.task, happart.trans h.apart⟩

/-- The correspondence is about the loop, the futures, the queue and the log alone. -/
theorem WorldRel.left (h : WorldRel w v) (hloop : w'.loop = w.loop)
    (hfutures : w'.futures = w.futures) (hready : w'.ready = w.ready) (hlog : w'.log = w.log) :
    WorldRel w' v :=
  ⟨hloop.trans h.loop, hfutures.trans h.futures, hready ▸ h.ready, hlog ▸ h.trace⟩

/-- Related loops agree on whether a future can be cancelled. -/
theorem WorldRel.acceptsCancel (h : WorldRel w v) (f : FutureId) :
    w.acceptsCancel f = v.acceptsCancel f := by
  simp only [World.acceptsCancel, h.futures]

/-- Observations with the same trace keep loops related. -/
theorem WorldRel.note (h : WorldRel w v) {o o' : Observation} (ho : driving [o] = driving [o']) :
    WorldRel (w.note o) (v.note o') := by
  refine ⟨h.loop, h.futures, h.ready, ?_⟩
  have hcons (o : Observation) (log : List Observation) :
      driving (o :: log) = driving [o] ++ driving log := by
    simp only [driving, List.filter_cons]
    split <;> simp
  simp only [World.note]
  rw [hcons, hcons o', ho, h.trace]

/-- Handles that differ in their exceptions alone keep loops related. -/
theorem WorldRel.callSoon (h : WorldRel w v) {handle handle' : Handle}
    (hbare : bareHandle handle = bareHandle handle') :
    WorldRel (w.callSoon handle) (v.callSoon handle') :=
  ⟨h.loop, h.futures, by simp [World.callSoon, h.ready, hbare], h.trace⟩

/-- The same future keeps loops related. -/
theorem WorldRel.setFuture (h : WorldRel w v) (f : FutureId) (future : Future) :
    WorldRel (w.setFuture f future) (v.setFuture f future) :=
  ⟨h.loop, by simp [World.setFuture, h.futures], h.ready, h.trace⟩

/-- The same completion of a future keeps loops related. -/
theorem WorldRel.complete (h : WorldRel w v) (f : FutureId) (status : Status) :
    WorldRel (w.complete f status) (v.complete f status) :=
  ⟨h.loop, by simp [World.complete, World.setFuture, h.futures],
    by simp [World.complete, h.ready, h.futures], h.trace⟩

/-- The same cancellation of a future keeps loops related. -/
theorem WorldRel.cancelFuture (h : WorldRel w v) (f : FutureId) (message : Option Value) :
    WorldRel (w.cancelFuture f message) (v.cancelFuture f message) := by
  unfold World.cancelFuture
  rw [h.futures]
  split
  · exact h.complete f _
  · exact h

/-- The same cancellation of an awaited future keeps loops related. -/
theorem WorldRel.cancelAwaited (h : WorldRel w v) (f : FutureId) (message : Option Value) :
    WorldRel (w.cancelAwaited t f message) (v.cancelAwaited t f message) :=
  (h.cancelFuture f message).note (by rw [h.acceptsCancel])

/-- A task that registers on the same future keeps loops related. -/
theorem WorldRel.addDoneCallback (h : WorldRel w v) (f : FutureId) :
    WorldRel (w.addDoneCallback f t) (v.addDoneCallback f t) := by
  unfold World.addDoneCallback
  rw [h.futures]
  split
  · exact h.setFuture f _
  · exact h.callSoon rfl

variable {ρ : Type} {u : World ρ}

/-- Whether a future can be cancelled depends on its status and on its mode. -/
theorem acceptsCancel_setFuture {f f' : FutureId} {x : Future}
    (hstatus : x.status = (u.futures f).status)
    (hmode : x.cancelMode = (u.futures f).cancelMode) :
    (u.setFuture f x).acceptsCancel f' = u.acceptsCancel f' := by
  by_cases hf : f' = f
  · simp [World.acceptsCancel, World.setFuture, hf, hstatus, hmode]
  · simp [World.acceptsCancel, World.setFuture, hf]

/-- No future can be cancelled again because another one completes. -/
theorem acceptsCancel_complete {f f' : FutureId} {status : Status} (hstatus : status ≠ .pending)
    (hrefuses : u.acceptsCancel f' = false) : (u.complete f status).acceptsCancel f' = false := by
  by_cases hf : f' = f
  · simp [World.acceptsCancel, World.complete, World.setFuture, hf, hstatus]
  · simpa [World.acceptsCancel, World.complete, World.setFuture, hf] using hrefuses

/-- No future can be cancelled again because an awaited one is cancelled. -/
theorem acceptsCancel_cancelAwaited {f f' : FutureId} {v : Option Value}
    (hrefuses : u.acceptsCancel f' = false) :
    (u.cancelAwaited t f v).acceptsCancel f' = false := by
  have hkeep : (u.cancelFuture f v).acceptsCancel f' = false := by
    unfold World.cancelFuture
    split
    · exact acceptsCancel_complete (by simp) hrefuses
    · exact hrefuses
  exact hkeep

/-- A callback on a future does not make any one easier to cancel. -/
theorem acceptsCancel_addDoneCallback {f f' : FutureId} :
    (u.addDoneCallback f t).acceptsCancel f' = u.acceptsCancel f' := by
  unfold World.addDoneCallback
  split
  · exact acceptsCancel_setFuture rfl rfl
  · rfl

/-- No handle that steps a task comes from a future. -/
theorem step_mem_cancelAwaited {f : FutureId} {v : Option Value} {t' : TaskId}
    {e : Option Exception} (h : .step t' e ∈ (u.cancelAwaited t f v).ready) :
    .step t' e ∈ u.ready := by
  have hcancel : .step t' e ∈ (u.cancelFuture f v).ready := h
  unfold World.cancelFuture at hcancel
  split at hcancel
  · simpa [World.complete] using hcancel
  · exact hcancel

/-- A callback on a future queues no step. -/
theorem step_mem_addDoneCallback {f : FutureId} {t' : TaskId} {e : Option Exception}
    (h : .step t' e ∈ (u.addDoneCallback f t).ready) : .step t' e ∈ u.ready := by
  unfold World.addDoneCallback at h
  split at h
  · exact h
  · simpa [World.callSoon] using h

end

end Rayo.HandlerTask
