import Rayo.Task.Correspondence
import Rayo.Task.PlainHandlers

/-!
# Calls on the two kinds of tasks

`cancel`, `uncancel`, `cancelling` and the methods for done callbacks give both callers the same
values and keep the correspondence.
-/

namespace Rayo.HandlerTask

open Asyncio World

variable {t : TaskId} {l : Local} {m : Task.Local}

/-- The correspondence depends on the worlds only through the queue and the refusals. -/
theorem TaskRel.frame (h : TaskRel t l m) {w : World LoopHandles} {v : World Unit}
    (hsteps : ∀ e, .step t e ∈ v.ready → .step t e ∈ m.world.ready)
    (hrefuses : ∀ f, l.world.acceptsCancel f = false → w.acceptsCancel f = false) :
    TaskRel t ⟨w, l.task⟩ ⟨v, m.task⟩ where
  finished := h.finished
  idle := h.idle
  stepping := h.stepping
  count := h.count
  callbacks := h.callbacks
  active houtcome :=
    have hactive := h.active houtcome
    { started := hactive.started
      mustCancel := hactive.mustCancel
      message := hactive.message
      counted := hactive.counted
      waitingOn := hactive.waitingOn
      deferred := fun e he => hactive.deferred e (hsteps e he)
      undeferred := hactive.undeferred
      refused := fun hmust f hf => hrefuses f (hactive.refused hmust f hf)
      unstarted := hactive.unstarted
      paired := hactive.paired }

/-- Without overflow both count one more request. -/
theorem TaskRel.request_count (h : TaskRel t l m)
    (hbound : m.task.numCancelsRequested + 1 < 2 ^ 32) (message : Option Value) :
    (HandlerTask.countRequest message l.task.state).cancelRequests =
      m.task.numCancelsRequested + 1 := by
  have hcount : (HandlerTask.countRequest message l.task.state).cancelRequests =
      (m.task.numCancelsRequested + 1) % 2 ^ 32 := by
    rw [← h.count]
    rfl
  rw [hcount, Nat.mod_eq_of_lt hbound]

/-- A request for cancellation has been counted and is pending in both. -/
theorem TaskRel.deferred (h : TaskRel t l m) (houtcome : m.task.outcome = none)
    (hbound : m.task.numCancelsRequested + 1 < 2 ^ 32) (message : Option Value)
    (hrefused : ∀ f, l.task.state.waitingOn = some f → l.world.acceptsCancel f = false) :
    TaskRel t
      (setState l { countRequest message l.task.state with mustCancel := true })
      ⟨m.world, { m.task with
        numCancelsRequested := m.task.numCancelsRequested + 1
        mustCancel := true
        cancelMessage := message }⟩ where
  finished := h.finished
  idle := h.idle
  stepping := h.stepping
  count := h.request_count hbound message
  callbacks := h.callbacks
  active _ :=
    have hactive := h.active houtcome
    { started := hactive.started
      mustCancel := rfl
      message := fun _ => rfl
      counted := fun _ => Nat.succ_ne_zero _
      waitingOn := hactive.waitingOn
      deferred := hactive.deferred
      undeferred := hactive.undeferred
      refused := fun _ => hrefused
      unstarted := hactive.unstarted
      paired := hactive.paired }

/-- A request has been counted and passed on to the awaited future. -/
theorem TaskRel.absorbed (h : TaskRel t l m) (houtcome : m.task.outcome = none)
    (hbound : m.task.numCancelsRequested + 1 < 2 ^ 32) (message : Option Value) {f : FutureId}
    (hwaiting : l.task.state.waitingOn = some f) (haccepts : l.world.acceptsCancel f = true) :
    TaskRel t (setState l (countRequest message l.task.state))
      ⟨m.world, { m.task with numCancelsRequested := m.task.numCancelsRequested + 1 }⟩ := by
  have hactive := h.active houtcome
  have hmust : m.task.mustCancel = false := by
    by_contra hmust
    have hrefused := hactive.refused (by simpa using hmust) f hwaiting
    simp [haccepts] at hrefused
  refine ⟨h.finished, h.idle, h.stepping, ?_, h.callbacks, fun _ => ⟨hactive.started,
    hactive.mustCancel, fun hm => ?_, fun hm => ?_, hactive.waitingOn, hactive.deferred,
    hactive.undeferred, fun hm => ?_, hactive.unstarted, hactive.paired⟩⟩
  · exact h.request_count hbound message
  all_goals exact absurd (hmust.symm.trans hm) (by simp)

/-- The same cancellation of an awaited future leaves the others related. -/
theorem Apart.cancelAwaited {w : World LoopHandles} {v : World Unit} {f : FutureId}
    {message : Option Value} :
    Apart t w (w.cancelAwaited t f message) v (v.cancelAwaited t f message) :=
  ⟨fun _ _ _ he => step_mem_cancelAwaited he, fun _ hf => acceptsCancel_cancelAwaited hf⟩

/-- Both tasks answer `cancel` in the same way. -/
theorem Paired.cancelTask (respond : Value → HandlerResponse) (built : TaskId → Value × Value)
    (h : TaskRel t l m) (hworld : WorldRel l.world m.world)
    (hbound : m.task.numCancelsRequested + 1 < 2 ^ 32) (message : Option Value) :
    Paired t l.world m.world (Loop.cancelTask (plain respond built) t message l)
      (Loop.cancelTask Task.driver t message m) := by
  have hfinished := h.finished
  have hasked (f : FutureId) := hworld.cancelAwaited (t := t) f message
  have haccepts := hworld.acceptsCancel
  refine cancel_cases (P := fun r => Paired t l.world m.world
      { r.1 with world := r.1.world.note (.cancelReturned t r.2) }
      (Loop.cancelTask Task.driver t message m))
    (fun hdone => ?_) (fun f hunfinished hwaiting haccept => ?_)
    (fun f hunfinished hwaiting hrefuse => ?_) fun hunfinished hwaiting => ?_
  · have houtcome : m.task.outcome.isSome = true := hfinished ▸ hdone
    simp only [Loop.cancelTask, Task.driver, Task.cancel_of_done houtcome]
    exact ⟨hworld.note rfl, h.frame (fun _ he => he) fun _ hf => hf,
      .of_eq (fun _ _ _ he => he) rfl⟩
  all_goals
    have houtcome : m.task.outcome = none := by
      rw [hunfinished] at hfinished
      simpa using hfinished.symm
    have hwaiter := (h.active houtcome).waitingOn.symm.trans hwaiting
  · simp only [Loop.cancelTask, Task.driver,
      Task.cancel_of_accepts houtcome hwaiter (haccepts f ▸ haccept)]
    exact ⟨(hasked f).note rfl, (h.absorbed houtcome hbound message hwaiting haccept).frame
      (w := (l.world.cancelAwaited t f message).note _)
      (v := (m.world.cancelAwaited t f message).note _)
      (fun _ he => step_mem_cancelAwaited (t := t) he)
      (fun _ hf => acceptsCancel_cancelAwaited (t := t) hf),
      .trans .cancelAwaited (.of_eq (fun _ _ _ he => he) rfl)⟩
  · simp only [Loop.cancelTask, Task.driver,
      Task.cancel_of_refuses houtcome hwaiter (haccepts f ▸ hrefuse)]
    have hdeferred := h.deferred houtcome hbound message fun f' hf' => by
      obtain rfl : f = f' := by simpa [hwaiting] using hf'
      exact hrefuse
    exact ⟨(hasked f).note rfl, hdeferred.frame
      (w := (l.world.cancelAwaited t f message).note _)
      (v := (m.world.cancelAwaited t f message).note _)
      (fun _ he => step_mem_cancelAwaited (t := t) he)
      (fun _ hf => acceptsCancel_cancelAwaited (t := t) hf),
      .trans .cancelAwaited (.of_eq (fun _ _ _ he => he) rfl)⟩
  · simp only [Loop.cancelTask, Task.driver, Task.cancel_of_none houtcome hwaiter]
    have hdeferred := h.deferred houtcome hbound message fun f' hf' => by simp [hwaiting] at hf'
    exact ⟨hworld.note rfl, hdeferred.frame (fun _ he => he) fun _ hf => hf,
      .of_eq (fun _ _ _ he => he) rfl⟩

/-- Both tasks answer `uncancel` in the same way. -/
theorem Paired.uncancelTask (respond : Value → HandlerResponse) (built : TaskId → Value × Value)
    (h : TaskRel t l m) (hworld : WorldRel l.world m.world) :
    Paired t l.world m.world (Loop.uncancelTask (plain respond built) t l)
      (Loop.uncancelTask Task.driver t m) := by
  have hcount := h.count
  by_cases hzero : m.task.numCancelsRequested = 0
  · have hflag (houtcome : m.task.outcome = none) : m.task.mustCancel = false := by
      by_contra hmust
      exact (h.active houtcome).counted (by simpa using hmust) hzero
    simp only [Loop.uncancelTask, plain, driver, Task.driver, Task.uncancel, hzero, if_true,
      uncancel, hcount]
    refine ⟨hworld.note rfl, ⟨h.finished, h.idle, h.stepping, hzero.symm, h.callbacks,
      fun houtcome => ?_⟩, .of_eq (fun _ _ _ he => he) rfl⟩
    have hactive := h.active houtcome
    exact ⟨hactive.started, (hflag houtcome).symm, hactive.message, hactive.counted,
      hactive.waitingOn, hactive.deferred, hactive.undeferred, hactive.refused,
      hactive.unstarted, hactive.paired⟩
  · simp only [Loop.uncancelTask, plain, driver, Task.driver, Task.uncancel, hzero, if_false,
      uncancel, hcount]
    refine ⟨hworld.note rfl, ⟨h.finished, h.idle, h.stepping, rfl, h.callbacks,
      fun houtcome => ?_⟩, .of_eq (fun _ _ _ he => he) rfl⟩
    have hactive := h.active houtcome
    -- The request is withdrawn only with the last count.
    have hkept (hmust : (if m.task.numCancelsRequested - 1 = 0 then false
        else m.task.mustCancel) = true) :
        m.task.numCancelsRequested - 1 ≠ 0 ∧ m.task.mustCancel = true := by
      split at hmust
      · cases hmust
      · next hleft => exact ⟨hleft, hmust⟩
    exact ⟨hactive.started, by rw [hactive.mustCancel],
      fun hmust => hactive.message (hkept hmust).2, fun hmust => (hkept hmust).1,
      hactive.waitingOn, hactive.deferred, hactive.undeferred,
      fun hmust => hactive.refused (hkept hmust).2, hactive.unstarted, hactive.paired⟩

/-- Both tasks answer `cancelling` in the same way. -/
theorem Paired.cancellingTask (respond : Value → HandlerResponse) (built : TaskId → Value × Value)
    (h : TaskRel t l m) (hworld : WorldRel l.world m.world) :
    Paired t l.world m.world (Loop.cancellingTask (plain respond built) t l)
      (Loop.cancellingTask Task.driver t m) := by
  refine ⟨hworld.note ?_, h.frame (fun _ he => he) fun _ hf => hf, .of_eq (fun _ _ _ he => he) rfl⟩
  simp only [plain, driver, Task.driver, cancelling, h.count]

/-- Both tasks take another done callback. -/
theorem Paired.addDoneCallback (h : TaskRel t l m) (hworld : WorldRel l.world m.world)
    (callback context : Value) :
    Paired t l.world m.world (addDoneCallback t callback context l)
      (Task.addDoneCallback t callback context m) := by
  have hfinished := h.finished
  cases hdone : m.task.outcome.isSome with
  | true =>
    simp only [HandlerTask.addDoneCallback, Task.addDoneCallback, hdone, hfinished.trans hdone,
      if_true]
    exact ⟨hworld.callSoon rfl, h.frame (fun _ he => by simpa [callSoon] using he) fun _ hf => hf,
      .of_eq (fun _ _ _ he => by simpa [callSoon] using he) rfl⟩
  | false =>
    simp only [HandlerTask.addDoneCallback, Task.addDoneCallback, hdone, hfinished.trans hdone,
      Bool.false_eq_true, if_false]
    refine ⟨hworld, ⟨hdone.symm, h.idle, h.stepping, h.count, ?_, fun houtcome => ?_⟩,
      .of_eq (fun _ _ _ he => he) rfl⟩
    · simp only [setState_state, h.callbacks]
    · have hactive := h.active houtcome
      exact ⟨hactive.started, hactive.mustCancel, hactive.message, hactive.counted,
        hactive.waitingOn, hactive.deferred, hactive.undeferred, hactive.refused,
        hactive.unstarted, hactive.paired⟩

/-- Both tasks drop a done callback. -/
theorem Paired.removeDoneCallback (respond : Value → HandlerResponse)
    (built : TaskId → Value × Value) (h : TaskRel t l m) (hworld : WorldRel l.world m.world)
    (callback : Value) :
    Paired t l.world m.world (Loop.removeDoneCallback (plain respond built) callback l)
      (Loop.removeDoneCallback Task.driver callback m) := by
  refine ⟨hworld, ⟨h.finished, h.idle, h.stepping, h.count, ?_, fun houtcome => ?_⟩,
    .of_eq (fun _ _ _ he => he) rfl⟩
  · exact congrArg (List.filter _) h.callbacks
  · have hactive := h.active houtcome
    exact ⟨hactive.started, hactive.mustCancel, hactive.message, hactive.counted,
      hactive.waitingOn, hactive.deferred, hactive.undeferred, hactive.refused,
      hactive.unstarted, hactive.paired⟩

/-- Two new tasks. -/
theorem TaskRel.new {w : World LoopHandles} {v : World Unit}
    (hsteps : ∀ e, .step t e ∈ v.ready → e = none) :
    TaskRel t ⟨w, HandlerTask.new⟩ ⟨v, Task.new⟩ where
  finished := rfl
  idle := by simp [HandlerTask.new, Task.new]
  stepping := by simp [HandlerTask.new, Task.new]
  count := rfl
  callbacks := rfl
  active _ :=
    { started := rfl
      mustCancel := rfl
      message := nofun
      counted := nofun
      waitingOn := rfl
      deferred := fun e he => by rw [hsteps e he]; rfl
      undeferred := fun _ => rfl
      refused := nofun
      unstarted := fun _ => ⟨rfl, rfl⟩
      paired := rfl }

/-- Control can come back in the same ways. -/
theorem TaskRel.accepts_eq (h : TaskRel t l m) (input : Input) :
    accepts l.task input = Task.accepts m.task input := by
  cases hrunning : m.task.running with
  | false => cases input <;> simp [accepts, Task.accepts, h.idle.mpr hrunning, hrunning]
  | true => cases input <;> simp [accepts, Task.accepts, h.stepping.mpr hrunning, hrunning]

end Rayo.HandlerTask
