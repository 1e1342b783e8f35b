import Rayo.Task.TurnStart

/-!
# The two kinds of tasks end a turn

What a coroutine hands back decides how the turn ends: with a handle for the next iteration, with a
future that both tasks wait for, or with the end of both tasks.
-/

namespace Rayo.HandlerTask

open Asyncio World

variable {t : TaskId} {l : Local} {m : Task.Local}

/-- Both coroutines have yielded something to go on from in the next iteration. -/
theorem Paired.requeue (h : Active t l m) (hworld : WorldRel l.world m.world)
    (hunfinished : l.task.state.finished = false) (houtcome : m.task.outcome = none)
    (hcount : l.task.state.cancelRequests = m.task.numCancelsRequested)
    (hcallbacks : l.task.state.doneCallbacks = m.task.callbacks)
    (hwaiting : l.task.state.waitingOn = none) (hstarted : m.task.started = true)
    (hnone : ∀ e, .step t e ∉ m.world.ready) {e e' : Option Exception}
    (he : e.map Exception.erase = e'.map Exception.erase) :
    Paired t l.world m.world
      (rescheduleOrAbort .none t (setState l { l.task.state with deferredThrow := e }))
      (Task.requeue t e' m) where
  world := (hworld.callSoon
    (show bareHandle (.step t none) = bareHandle (.step t e') from rfl)).left rfl rfl rfl rfl
  task := {
    finished := by simpa [rescheduleOrAbort, Faults.none, Task.requeue, houtcome]
      using! hunfinished
    idle := by simp [rescheduleOrAbort, Faults.none, Task.requeue]
    stepping := by simp [rescheduleOrAbort, Faults.none, Task.requeue]
    count := hcount
    callbacks := hcallbacks
    active := fun _ => {
      started := h.started
      mustCancel := h.mustCancel
      message := h.message
      counted := h.counted
      waitingOn := h.waitingOn
      deferred := fun e'' hmem => by
        have hcases : .step t e'' ∈ m.world.ready ∨ e'' = e' := by
          simpa [Task.requeue, callSoon] using hmem
        rcases hcases with hold | rfl
        · exact absurd hold (hnone e'')
        · exact he
      undeferred := fun hor => by
        rcases hor with hstep | hsome
        · simp [rescheduleOrAbort, Faults.none] at hstep
        · exact absurd hsome (by simp [rescheduleOrAbort, Faults.none, hwaiting])
      refused := fun _ f hf => by
        simp [rescheduleOrAbort, Faults.none, hwaiting] at hf
      unstarted := fun hnot => absurd (hstarted.symm.trans hnot) (by simp)
      paired := h.paired } }
  apart := .of_eq (fun t' ht e'' hmem => by
    simpa [Task.requeue, callSoon, ht] using hmem) rfl

/-- Both tasks are registered on the future `f`, with `must` as the flag. -/
theorem Paired.parked (h : Active t l m) (hunfinished : l.task.state.finished = false)
    (houtcome : m.task.outcome = none)
    (hcount : l.task.state.cancelRequests = m.task.numCancelsRequested)
    (hcallbacks : l.task.state.doneCallbacks = m.task.callbacks)
    (hdeferred : l.task.state.deferredThrow = none) (hstarted : m.task.started = true)
    (hnone : ∀ e, .step t e ∉ m.world.ready) {f : FutureId} {must : Bool}
    {w : World LoopHandles} {v : World Unit} (hworld : WorldRel w v)
    (hsteps : ∀ t' e, .step t' e ∈ v.ready → .step t' e ∈ m.world.ready)
    (hrefuses : ∀ f', l.world.acceptsCancel f' = false → w.acceptsCancel f' = false)
    (hmust : must = true → m.task.mustCancel = true ∧ w.acceptsCancel f = false) :
    Paired t l.world m.world
      (leave .none ⟨w, { l.task with
        state := { l.task.state with waitingOn := some f, mustCancel := must } }⟩)
      ⟨v, { m.task with futWaiter := some f, running := false, mustCancel := must }⟩ where
  world := hworld.left rfl rfl rfl rfl
  task := {
    finished := by simp [hunfinished, houtcome]
    idle := by simp
    stepping := by simp
    count := hcount
    callbacks := hcallbacks
    active := fun _ => {
      started := by simpa using h.started
      mustCancel := by simp
      message := fun hm => by simpa using h.message (hmust hm).1
      counted := fun hm => h.counted (hmust hm).1
      waitingOn := by simp
      deferred := fun e hmem => absurd (hsteps t e hmem) (hnone e)
      undeferred := fun _ => by simpa using hdeferred
      refused := fun hm f' hf => by
        obtain rfl : f = f' := by simpa using hf
        exact (hmust hm).2
      unstarted := fun hnot => absurd (hstarted.symm.trans hnot) (by simp)
      paired := by simpa using h.paired } }
  apart := ⟨fun t' _ e hmem => hsteps t' e hmem, hrefuses⟩

/-- Both register on the future, and pass a cancellation of this step on to it. -/
theorem Paired.await (h : Active t l m) (hworld : WorldRel l.world m.world)
    (hunfinished : l.task.state.finished = false) (houtcome : m.task.outcome = none)
    (hcount : l.task.state.cancelRequests = m.task.numCancelsRequested)
    (hcallbacks : l.task.state.doneCallbacks = m.task.callbacks)
    (hdeferred : l.task.state.deferredThrow = none) (hstarted : m.task.started = true)
    (hnone : ∀ e, .step t e ∉ m.world.ready) (f : FutureId) :
    Paired t l.world m.world
      (leave .none (applyCancelRequestedMidStep t
        (setWorld (setState l { l.task.state with waitingOn := some f })
          ((l.world.setFuture f { l.world.futures f with blocking := false }).addDoneCallback
            f t))))
      (Task.await t f m) := by
  have hregistered : WorldRel
      ((l.world.setFuture f { l.world.futures f with blocking := false }).addDoneCallback f t)
      ((m.world.setFuture f { m.world.futures f with blocking := false }).addDoneCallback f t) := by
    rw [hworld.futures]
    exact (hworld.setFuture f _).addDoneCallback f
  have hsteps (t' : TaskId) (e : Option Exception) (hmem : .step t' e ∈ ((m.world.setFuture f
      { m.world.futures f with blocking := false }).addDoneCallback f t).ready) :
      .step t' e ∈ m.world.ready :=
    step_mem_addDoneCallback (u := m.world.setFuture f _) hmem
  have hrefuses (f' : FutureId) (hf : l.world.acceptsCancel f' = false) :
      ((l.world.setFuture f { l.world.futures f with blocking := false }).addDoneCallback
        f t).acceptsCancel f' = false := by
    rw [acceptsCancel_addDoneCallback]
    exact (acceptsCancel_setFuture (x := { l.world.futures f with blocking := false }) rfl
      rfl).trans hf
  generalize hw : (l.world.setFuture f
    { l.world.futures f with blocking := false }).addDoneCallback f t = w at *
  generalize hv : (m.world.setFuture f
    { m.world.futures f with blocking := false }).addDoneCallback f t = v at *
  have hpark (must : Bool) {w' : World LoopHandles} {v' : World Unit} (hrel : WorldRel w' v')
      (hsub : ∀ t' e, .step t' e ∈ v'.ready → .step t' e ∈ v.ready)
      (hkeep : ∀ f', w.acceptsCancel f' = false → w'.acceptsCancel f' = false)
      (hmust : must = true → m.task.mustCancel = true ∧ w'.acceptsCancel f = false) :=
    Paired.parked h hunfinished houtcome hcount hcallbacks hdeferred hstarted hnone (f := f) hrel
      (fun t' e he => hsteps t' e (hsub t' e he)) (fun f' hf => hkeep f' (hrefuses f' hf)) hmust
  have hflag := h.mustCancel
  cases hmust : m.task.mustCancel with
  | false =>
    have hparked := hpark false hregistered (fun _ _ he => he) (fun _ hf => hf) nofun
    simpa [applyCancelRequestedMidStep, Task.await, hv, hflag, hmust, setWorld, setState]
      using! hparked
  | true =>
    have hmessage := h.message hmust
    have hasked := hregistered.cancelAwaited (t := t) f m.task.cancelMessage
    have haccepts := hregistered.acceptsCancel f
    have hparked (must : Bool) (hm : must = true → w.acceptsCancel f = false) :=
      hpark must hasked (fun _ _ he => step_mem_cancelAwaited he)
        (fun _ hf => acceptsCancel_cancelAwaited hf)
        fun h' => ⟨hmust, acceptsCancel_cancelAwaited (hm h')⟩
    cases haccept : w.acceptsCancel f with
    | true =>
      have hdone := hparked false nofun
      simpa [applyCancelRequestedMidStep, Task.await, hv, hflag, hmust, setWorld, setState,
        hmessage, haccept, ← haccepts] using! hdone
    | false =>
      have hdone := hparked true fun _ => haccept
      simpa [applyCancelRequestedMidStep, Task.await, hv, hflag, hmust, setWorld, setState,
        hmessage, haccept, ← haccepts] using! hdone

/-- **A step that yields** does to the task what asyncio does to its own. -/
theorem Paired.yieldStep (h : Active t l m) (hworld : WorldRel l.world m.world)
    (hunfinished : l.task.state.finished = false) (houtcome : m.task.outcome = none)
    (hcount : l.task.state.cancelRequests = m.task.numCancelsRequested)
    (hcallbacks : l.task.state.doneCallbacks = m.task.callbacks)
    (hwaiting : l.task.state.waitingOn = none) (hdeferred : l.task.state.deferredThrow = none)
    (hstarted : m.task.started = true) (hnone : ∀ e, .step t e ∉ m.world.ready)
    (y : Yielded) (hloops : ∀ f, y = .future f → (m.world.futures f).loop.isSome = true) :
    Paired t l.world m.world (yieldStep .none t y l) (Task.resume .none t (.yielded y) m) := by
  have hrequeue (e e' : Option Exception) (he : e.map Exception.erase = e'.map Exception.erase) :=
    Paired.requeue h hworld hunfinished houtcome hcount hcallbacks hwaiting hstarted hnone he
  cases y with
  | none =>
    have hsame : { l.task.state with deferredThrow := none } = l.task.state := by rw [← hdeferred]
    have hback := hrequeue none none rfl
    rw [hsame] at hback
    exact hback
  | object typeName => exact hrequeue (some (.protocolError _)) _ rfl
  | future f =>
    obtain ⟨loop, hloop⟩ := Option.isSome_iff_exists.mp (hloops f rfl)
    have hbad (text text' : String) :=
      hrequeue (some (.protocolError text)) (some (.protocolError text')) rfl
    have hfutures := hworld.futures
    have hloops := hworld.loop
    by_cases hsame : loop = m.world.loop
    · cases hblocking : (m.world.futures f).blocking with
      | true =>
        have hawait := Paired.await h hworld hunfinished houtcome hcount hcallbacks hdeferred
          hstarted hnone f
        simpa [HandlerTask.yieldStep, parkOnFuture, Task.resume, hfutures, hloop, hloops, hsame,
          hblocking, Faults.none, setWorld, setState] using hawait
      | false =>
        simpa [HandlerTask.yieldStep, parkOnFuture, Task.resume, hfutures, hloop, hloops, hsame,
          hblocking] using hbad plainYield _
    · cases hblocking : (m.world.futures f).blocking with
      | true =>
        simpa [HandlerTask.yieldStep, parkOnFuture, Task.resume, hfutures, hloop, hloops, hsame,
          hblocking] using hbad foreignFuture _
      | false =>
        simpa [HandlerTask.yieldStep, parkOnFuture, Task.resume, hfutures, hloop, hloops, hsame,
          hblocking] using hbad plainYield _

/-- **Control comes back** from a coroutine that is being stepped. -/
theorem Paired.resume {respond : Value → HandlerResponse} (h : TaskRel t l m)
    (hworld : WorldRel l.world m.world) (hunfinished : l.task.state.finished = false)
    (hstepping : l.task.phase = .stepping) (hstarted : l.task.state.coroutine.isSome = true)
    (hwaiting : l.task.state.waitingOn = none)
    (hnone : ∀ e, .step t e ∉ m.world.ready) {input : Input}
    (hloops : ∀ f, input = .yielded (.future f) → (m.world.futures f).loop.isSome = true)
    (haccepts : Task.accepts m.task input = true) :
    Paired t l.world m.world (resume respond .none t input l) (Task.resume .none t input m) := by
  have houtcome : m.task.outcome = none := by
    have hfinished := h.finished
    rw [hunfinished] at hfinished
    simpa using hfinished.symm
  have hactive := h.active houtcome
  have hfinish (response : HandlerResponse) (completion : CompletionKind) (outcome : Outcome) :=
    Paired.finish_leave (t := t) hworld response completion outcome hunfinished h.callbacks h.count
  cases input with
  | returned value =>
    cases hmust : m.task.mustCancel with
    | true =>
      have hcancelled := Paired.finish_leave (t := t)
        (m := { m with task := { m.task with mustCancel := false } }) hworld (respond value)
        (.returned value) (.cancelled m.task.cancelMessage) hunfinished h.callbacks h.count
      simpa [HandlerTask.resume, hstepping, Task.resume, hmust] using hcancelled
    | false =>
      simpa [HandlerTask.resume, hstepping, Task.resume, hmust] using
        hfinish (respond value) (.returned value) (.result value)
  | raised e =>
    cases e <;> simpa [HandlerTask.resume, hstepping, raiseStep, Task.resume] using hfinish _ _ _
  | yielded y =>
    simpa [HandlerTask.resume, hstepping] using Paired.yieldStep hactive hworld hunfinished houtcome
      h.count h.callbacks hwaiting (hactive.undeferred (Or.inl hstepping))
      (hactive.started ▸ hstarted) hnone y
      fun f hf => hloops f (hf ▸ rfl)
  | factoryReturned | factoryRaised | closed => simp [Task.accepts] at haccepts

end Rayo.HandlerTask
