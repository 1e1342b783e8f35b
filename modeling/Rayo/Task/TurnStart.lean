import Rayo.Task.Correspondence
import Rayo.Task.PlainHandlers

/-!
# The two kinds of tasks begin a turn

A turn that finds its task cancelled before the first step ends it. Any other turn advances both
coroutines with the same operation, and what ends a task leaves corresponding traces.
-/

namespace Rayo.HandlerTask

open Asyncio World

/-- Callbacks that are fired without a failure are queued on the loop. -/
theorem fireCallbacks_none (t : TaskId) (callbacks : List (Value × Value))
    (w : World LoopHandles) : fireCallbacks .none t callbacks w =
      { w with ready := w.ready ++ callbacks.map fun c => .doneCallback t c.1 c.2 } := by
  simp [fireCallbacks_eq, Faults.none]

/-- Asyncio queues the callbacks of its task on the loop. -/
theorem scheduleCallbacks_eq (t : TaskId) (callbacks : List (Value × Value)) (v : World Unit) :
    Task.scheduleCallbacks t callbacks v =
      { v with ready := v.ready ++ callbacks.map fun c => .doneCallback t c.1 c.2 } := by
  induction callbacks generalizing v with
  | nil => simp [Task.scheduleCallbacks]
  | cons entry rest ih => simp [Task.scheduleCallbacks, ih, callSoon]

/-- A response leaves the loop, its futures and its queue alone. -/
theorem send_world (t : TaskId) (response : HandlerResponse) (l : Local) :
    (send t response l).world.loop = l.world.loop ∧
      (send t response l).world.futures = l.world.futures ∧
      (send t response l).world.ready = l.world.ready := by
  unfold send
  split <;> exact ⟨rfl, rfl, rfl⟩

/-- A task that finishes without a failure queues its callbacks and changes nothing else of the
loop. -/
theorem finish_none_world (t : TaskId) (response : HandlerResponse) (completion : CompletionKind)
    {l : Local} (hunfinished : l.task.state.finished = false) :
    (finish .none t response completion l).world.loop = l.world.loop ∧
      (finish .none t response completion l).world.futures = l.world.futures ∧
      (finish .none t response completion l).world.ready = l.world.ready ++
        l.task.state.doneCallbacks.map fun c => .doneCallback t c.1 c.2 := by
  unfold finish
  simp [hunfinished, send_world, fireCallbacks_none, unregister_eq]

section

variable {t : TaskId} {l : Local} {m : Task.Local}

/-- Both tasks become done, in whatever way, and queue their callbacks. -/
theorem WorldRel.finish (h : WorldRel l.world m.world) (response : HandlerResponse)
    (completion : CompletionKind) (outcome : Outcome)
    (hunfinished : l.task.state.finished = false)
    (hcallbacks : l.task.state.doneCallbacks = m.task.callbacks) :
    WorldRel (HandlerTask.finish .none t response completion l).world
        (Task.finish t outcome m).world ∧
      Apart t l.world (HandlerTask.finish .none t response completion l).world m.world
        (Task.finish t outcome m).world := by
  obtain ⟨hloop, hfutures, hready⟩ := finish_none_world t response completion hunfinished
  refine ⟨⟨hloop.trans ?_, hfutures.trans ?_, ?_, ?_⟩, .of_eq (fun t' ht e he => ?_) hfutures⟩
  · rw [h.loop, Task.finish, scheduleCallbacks_eq]
  · rw [h.futures, Task.finish, scheduleCallbacks_eq]
  · simp [hready, Task.finish, scheduleCallbacks_eq, h.ready, hcallbacks]
  · simp [finish_log, Task.finish, scheduleCallbacks_eq, h.trace]
  · simpa [Task.finish, scheduleCallbacks_eq] using he

/-- A completed task has as many cancellation requests as before. -/
@[simp] theorem complete_cancelRequests (st : TaskState) (completion : CompletionKind) :
    (st.complete completion).cancelRequests = st.cancelRequests := by
  cases completion <;> rfl

/-- A completed task has no callbacks left. -/
@[simp] theorem complete_doneCallbacks (st : TaskState) (completion : CompletionKind) :
    (st.complete completion).doneCallbacks = [] := by
  cases completion <;> rfl

/-- After that only their counters matter. -/
theorem TaskRel.done {l' : Local} {m' : Task.Local} {o : Outcome}
    (hfinished : l'.task.state.finished = true) (hphase : l'.task.phase = .idle)
    (hcallbacks : l'.task.state.doneCallbacks = [])
    (hcount : l'.task.state.cancelRequests = m'.task.numCancelsRequested)
    (houtcome : m'.task.outcome = some o) (hrunning : m'.task.running = false)
    (hcallbacks' : m'.task.callbacks = []) : TaskRel t l' m' where
  finished := by simp [hfinished, houtcome]
  idle := by simp [hphase, hrunning]
  stepping := by simp [hphase, hrunning]
  count := hcount
  callbacks := by rw [hcallbacks, hcallbacks']
  active hnone := by simp [houtcome] at hnone

/-- A step of both coroutines ends the tasks. -/
theorem Paired.finish_leave (hworld : WorldRel l.world m.world) (response : HandlerResponse)
    (completion : CompletionKind) (outcome : Outcome)
    (hunfinished : l.task.state.finished = false)
    (hcallbacks : l.task.state.doneCallbacks = m.task.callbacks)
    (hcount : l.task.state.cancelRequests = m.task.numCancelsRequested) :
    Paired t l.world m.world
      (leave .none (HandlerTask.finish .none t response completion l))
      (Task.finish t outcome m) := by
  obtain ⟨hfinish, happart⟩ := hworld.finish (t := t) response completion outcome hunfinished
    hcallbacks
  obtain ⟨hstate, -, -⟩ := finish_task .none t response completion hunfinished
  refine ⟨hfinish.left rfl rfl rfl rfl, .done (o := outcome) ?_ ?_ ?_ ?_ rfl rfl rfl,
    ⟨happart.steps, happart.refuses⟩⟩
  · simp [hstate]
  · simp
  · simp [hstate]
  · simp [hstate, Task.finish, hcount]

end

/-- Whether an exception is a cancellation does not depend on its text. -/
@[simp] theorem isCancelled_erase (e : Exception) : e.erase.isCancelled = e.isCancelled := by
  cases e <;> rfl

/-- Exceptions that differ in their texts alone are cancellations both or neither. -/
theorem any_isCancelled_of_erase {e e' : Option Exception}
    (h : e.map Exception.erase = e'.map Exception.erase) :
    e.any Exception.isCancelled = e'.any Exception.isCancelled := by
  have hany (e : Option Exception) :
      e.any Exception.isCancelled = (e.map Exception.erase).any Exception.isCancelled := by
    cases e <;> simp
  rw [hany, h, ← hany]

/-- The operation that a coroutine is advanced with. -/
def operation (t : TaskId) : Option Exception → Observation
  | some e => .threw t e
  | none => .sent t

/-- Exceptions that differ in their texts alone advance a coroutine with the same trace. -/
theorem driving_operation {t : TaskId} {e e' : Option Exception}
    (h : e.map Exception.erase = e'.map Exception.erase) :
    driving [operation t e] = driving [operation t e'] := by
  cases e <;> cases e' <;>
    simp_all [operation, driving, List.filter, drives, Observation.erase]

section

variable {t : TaskId} {l : Local} {m : Task.Local}

/-- Both coroutines get control, with corresponding operations. -/
theorem Paired.stepCoroutine (hworld : WorldRel l.world m.world) {w : World LoopHandles}
    (hloop : w.loop = l.world.loop) (hfutures : w.futures = l.world.futures)
    (hready : w.ready = l.world.ready) (hlog : w.log = l.world.log)
    {e e' : Option Exception} (he : e.map Exception.erase = e'.map Exception.erase)
    (hcount : l.task.state.cancelRequests = m.task.numCancelsRequested)
    (hcallbacks : l.task.state.doneCallbacks = m.task.callbacks)
    (hunfinished : l.task.state.finished = false) (houtcome : m.task.outcome = none)
    (hcoroutine : l.task.state.coroutine.isSome = true)
    (hcontext : l.task.state.context.isSome = true)
    (hmust : l.task.state.mustCancel = false) (hwaiting : l.task.state.waitingOn = none)
    (hdeferred : l.task.state.deferredThrow = none)
    (hnone : ∀ e, .step t e ∉ m.world.ready) :
    Paired t l.world m.world (stepCoroutine t e (setWorld l w))
      ⟨m.world.note (operation t e'), { m.task with
        mustCancel := false, futWaiter := none, started := true, running := true }⟩ where
  world := by
    have hnoted := (hworld.left hloop hfutures hready hlog).note
      (driving_operation (t := t) he)
    cases e <;> exact hnoted
  task := {
    finished := by simp [HandlerTask.stepCoroutine, hunfinished, houtcome]
    idle := by simp [HandlerTask.stepCoroutine]
    stepping := by simp [HandlerTask.stepCoroutine]
    count := hcount
    callbacks := hcallbacks
    active := fun _ => {
      started := hcoroutine
      mustCancel := hmust
      message := nofun
      counted := nofun
      waitingOn := hwaiting
      deferred := fun e he => absurd he (hnone e)
      undeferred := fun _ => hdeferred
      refused := nofun
      unstarted := nofun
      paired := hcoroutine.trans hcontext.symm } }
  apart := .of_eq (fun _ _ _ h => h) hfutures

/-- What is thrown into two coroutines differs in its text alone if the deferred errors do. -/
theorem throw_eq {must must' : Bool} {message message' : Option Value} {e e' : Option Exception}
    (he : e.map Exception.erase = e'.map Exception.erase) (hmust : must = must')
    (hmessage : must' = true → message = message') :
    (if must && !e.any Exception.isCancelled then some (.cancelledError message)
        else e).map Exception.erase =
      (if must' && !e'.any Exception.isCancelled then some (.cancelledError message')
        else e').map Exception.erase := by
  subst hmust
  rw [any_isCancelled_of_erase he]
  split
  · next hcancel =>
    simp only [Bool.and_eq_true] at hcancel
    rw [hmessage hcancel.1]
  · exact he

/-- What a turn throws is the same in both, up to the text of a protocol error. -/
theorem pendingThrow_eq {f : Option FutureId} {e : Option Exception} (h : Active t l m)
    (hworld : WorldRel l.world m.world)
    (hstep : f = none → l.task.state.deferredThrow.map Exception.erase = e.map Exception.erase)
    (hwake : f.isSome = true → l.task.state.deferredThrow = none) :
    (pendingThrow l.world (takeTurn f l.task.state)).map Exception.erase =
      (Task.stepException m.task
        (f.elim e fun f => (m.world.futures f).status.error)).map Exception.erase := by
  have hbase : ((f.bind fun f => (l.world.futures f).status.error).or
      l.task.state.deferredThrow).map Exception.erase =
        (f.elim e fun f => (m.world.futures f).status.error).map Exception.erase := by
    cases f with
    | none => simpa using hstep rfl
    | some f => simp [hwake rfl, hworld.futures]
  exact throw_eq hbase h.mustCancel h.message

/-- A turn without a failure enters its context and advances its coroutine. -/
theorem advance_none (turn : Turn) {coroutine context : Value}
    (hcoroutine : l.task.state.coroutine = some coroutine)
    (hcontext : l.task.state.context = some context) :
    advance .none t turn l = stepCoroutine t (pendingThrow l.world turn)
      (setWorld l ((l.world.enterTask t).enterContext context)) := by
  simp [advance, hcoroutine, hcontext, Faults.none, setWorld]

/-- A task that is cancelled before its first step: the handler is never called, and the
reference throws into a coroutine that has not started. -/
theorem Paired.cancelUnstarted (hworld : WorldRel l.world m.world)
    (hunfinished : l.task.state.finished = false) (hphase : l.task.phase = .idle)
    (hcount : l.task.state.cancelRequests = m.task.numCancelsRequested)
    (hcallbacks : l.task.state.doneCallbacks = m.task.callbacks) (e : Exception) :
    Paired t l.world m.world
      (finish .none t .internalError (.cancelled l.task.state.cancelMessage)
        (setState l (turnTaken l.task.state)))
      (Task.finish t (Task.raised e) ⟨m.world.note (.threwUnstarted t e), { m.task with
        mustCancel := false, futWaiter := none, started := true }⟩) := by
  have hnoted : WorldRel l.world (m.world.note (.threwUnstarted t e)) :=
    ⟨hworld.loop, hworld.futures, hworld.ready, by
      simpa [driving, World.note, drives] using hworld.trace⟩
  obtain ⟨hfinish, happart⟩ := WorldRel.finish (t := t)
    (l := setState l (turnTaken l.task.state))
    (m := ⟨m.world.note (.threwUnstarted t e), { m.task with
      mustCancel := false, futWaiter := none, started := true }⟩) hnoted .internalError
    (.cancelled l.task.state.cancelMessage) (Task.raised e) hunfinished hcallbacks
  obtain ⟨hstate, hidle, -⟩ := finish_task .none t .internalError
    (.cancelled l.task.state.cancelMessage) (l := setState l (turnTaken l.task.state)) hunfinished
  refine ⟨hfinish, .done (o := Task.raised e) ?_ (hidle.trans hphase) ?_ ?_ rfl rfl rfl,
    ⟨happart.steps, happart.refuses⟩⟩
  · simp [hstate]
  · simp [hstate]
  · rw [hstate, complete_cancelRequests]
    exact hcount

/-- A turn of a task whose coroutine exists. -/
theorem plainCall_of_started {built : TaskId → Value × Value} {f : Option FutureId}
    {coroutine context : Value} (hunfinished : l.task.state.finished = false)
    (hcoroutine : l.task.state.coroutine = some coroutine)
    (hcontext : l.task.state.context = some context) :
    plainCall built .none t f l = stepCoroutine t
      (pendingThrow l.world (takeTurn f l.task.state))
      (setWorld (setState l (turnTaken l.task.state))
        ((l.world.enterTask t).enterContext context)) := by
  have hcall : call .none t f l = stepCoroutine t
      (pendingThrow l.world (takeTurn f l.task.state))
      (setWorld (setState l (turnTaken l.task.state))
        ((l.world.enterTask t).enterContext context)) := by
    have hadvance := advance_none (t := t) (takeTurn f l.task.state)
      (l := setState l (turnTaken l.task.state)) hcoroutine hcontext
    simp only [call, hunfinished, hcoroutine, Option.isNone_some, Bool.false_eq_true, if_false]
    exact hadvance
  simp [plainCall, hcall, stepCoroutine]

/-- The first turn of a task that has not been cancelled. -/
theorem plainCall_of_unstarted (built : TaskId → Value × Value) (f : Option FutureId)
    (hunfinished : l.task.state.finished = false) (hcoroutine : l.task.state.coroutine = none)
    (hmust : l.task.state.mustCancel = false) :
    ∃ (k : HandlerTask) (w : World LoopHandles), plainCall built .none t f l =
        stepCoroutine t (pendingThrow l.world (takeTurn f l.task.state)) ⟨w, k⟩ ∧
      k.state = { turnTaken l.task.state with
        coroutine := some (built t).1, context := some (built t).2,
        registeredWithAsyncio := true } ∧
      w.loop = l.world.loop ∧ w.futures = l.world.futures ∧ w.ready = l.world.ready ∧
      w.log = l.world.log := by
  have hcall : call .none t f l = { setState l (turnTaken l.task.state) with
      task := { (setState l (turnTaken l.task.state)).task with
        phase := .building (takeTurn f l.task.state)
        factoryCalls := l.task.factoryCalls + 1 } } := by
    simp [call, hunfinished, hcoroutine, takeTurn, hmust, setState]
  refine ⟨⟨{ turnTaken l.task.state with
      coroutine := some (built t).1, context := some (built t).2, registeredWithAsyncio := true },
      l.task.sender, .building (takeTurn f l.task.state), l.task.factoryCalls + 1⟩,
    ((l.world.registerTask t).enterTask t).enterContext (built t).2, ?_, rfl, rfl, rfl, rfl, rfl⟩
  simp only [plainCall, hcall]
  rfl

/-- The first turn of a task that has been cancelled. -/
theorem plainCall_of_cancelled {built : TaskId → Value × Value} {f : Option FutureId}
    (hunfinished : l.task.state.finished = false) (hphase : l.task.phase = .idle)
    (hcoroutine : l.task.state.coroutine = none) (hmust : l.task.state.mustCancel = true) :
    plainCall built .none t f l = finish .none t .internalError
      (.cancelled l.task.state.cancelMessage) (setState l (turnTaken l.task.state)) := by
  have hcall : call .none t f l = finish .none t .internalError
      (.cancelled l.task.state.cancelMessage) (setState l (turnTaken l.task.state)) := by
    simp [call, hunfinished, hcoroutine, takeTurn, hmust]
  have hidle := (finish_task .none t .internalError (.cancelled l.task.state.cancelMessage)
    (l := setState l (turnTaken l.task.state)) hunfinished).2.1
  have hidle : (call .none t f l).task.phase = .idle := by rw [hcall, hidle]; exact hphase
  simp only [plainCall, hidle]
  exact hcall

/-- **The loop runs a handle** of an unfinished task. -/
theorem Paired.call {built : TaskId → Value × Value} {f : Option FutureId}
    {e : Option Exception} (h : Active t l m) (hworld : WorldRel l.world m.world)
    (hunfinished : l.task.state.finished = false) (houtcome : m.task.outcome = none)
    (hphase : l.task.phase = .idle)
    (hcount : l.task.state.cancelRequests = m.task.numCancelsRequested)
    (hcallbacks : l.task.state.doneCallbacks = m.task.callbacks)
    (hwaiting : l.task.state.waitingOn = f)
    (hstep : f = none → l.task.state.deferredThrow.map Exception.erase = e.map Exception.erase)
    (hnone : ∀ e, .step t e ∉ m.world.ready) :
    Paired t l.world m.world (plainCall built .none t f l) (Task.call .none t e f m) := by
  have hwake (hf : f.isSome = true) : l.task.state.deferredThrow = none :=
    h.undeferred (Or.inr (by rw [hwaiting, hf]))
  have hthrow := pendingThrow_eq h hworld hstep hwake
  rw [show Task.call .none t e f m =
    Task.step t (f.elim e fun f => (m.world.futures f).status.error) m by cases f <;> rfl]
  have hadvanced (e' : Option Exception) (he : Task.stepException m.task
        (f.elim e fun f => (m.world.futures f).status.error) = e')
      (hok : e' = none ∨ m.task.started = true) :
      Task.step t (f.elim e fun f => (m.world.futures f).status.error) m =
        ⟨m.world.note (operation t e'), { m.task with
          mustCancel := false, futWaiter := none, started := true, running := true }⟩ := by
    simp only [Task.step, houtcome, Option.isSome_none, Bool.false_eq_true, if_false, he]
    cases e' with
    | none => rfl
    | some e' => simp_all [operation]
  by_cases hstarted : l.task.state.coroutine.isSome = true
  · obtain ⟨coroutine, hcoroutine⟩ := Option.isSome_iff_exists.mp hstarted
    obtain ⟨context, hcontext⟩ := Option.isSome_iff_exists.mp (h.paired ▸ hstarted)
    rw [plainCall_of_started hunfinished hcoroutine hcontext,
      hadvanced _ rfl (Or.inr (h.started ▸ hstarted))]
    exact .stepCoroutine (l := setState l (turnTaken l.task.state))
      (w := (l.world.enterTask t).enterContext context) hworld rfl rfl rfl rfl hthrow hcount
      hcallbacks hunfinished houtcome hstarted (h.paired ▸ hstarted) rfl rfl rfl hnone
  · have hcoroutine : l.task.state.coroutine = none := by simpa using hstarted
    have hstarted' : m.task.started = false := by rw [← h.started, hcoroutine]; rfl
    obtain ⟨hdeferred, hnowait⟩ := h.unstarted hstarted'
    obtain rfl : f = none := hwaiting.symm.trans hnowait
    obtain rfl : e = none := by simpa [hdeferred, eq_comm] using hstep rfl
    cases hmust : l.task.state.mustCancel with
    | true =>
      have hmust' : m.task.mustCancel = true := h.mustCancel ▸ hmust
      have hunstarted (e : Exception) (he : Task.stepException m.task none = some e) :
          Task.step t none m = Task.finish t (Task.raised e)
            ⟨m.world.note (.threwUnstarted t e), { m.task with
              mustCancel := false, futWaiter := none, started := true }⟩ := by
        simp [Task.step, houtcome, he, hstarted']
      rw [plainCall_of_cancelled hunfinished hphase hcoroutine hmust, Option.elim_none,
        hunstarted (.cancelledError m.task.cancelMessage) (by simp [Task.stepException, hmust'])]
      exact .cancelUnstarted hworld hunfinished hphase hcount hcallbacks _
    | false =>
      have hmust' : m.task.mustCancel = false := h.mustCancel ▸ hmust
      obtain ⟨k, w, hplain, hk, hloop, hfutures, hready, hlog⟩ :=
        plainCall_of_unstarted (t := t) built none hunfinished hcoroutine hmust
      rw [hplain, hadvanced none (by simp [Task.stepException, hmust']) (Or.inl rfl)]
      have hnothing : pendingThrow l.world (takeTurn none l.task.state) = none := by
        simp [pendingThrow, takeTurn, hdeferred, hmust]
      rw [hnothing]
      exact .stepCoroutine (l := ⟨l.world, k⟩) (w := w) hworld hloop hfutures hready hlog rfl
        (by rw [hk]; exact hcount) (by rw [hk]; exact hcallbacks) (by rw [hk]; exact hunfinished)
        houtcome (by rw [hk]; rfl) (by rw [hk]; rfl) (by rw [hk]; rfl) (by rw [hk]; rfl)
        (by rw [hk]; rfl) hnone

end

end Rayo.HandlerTask
