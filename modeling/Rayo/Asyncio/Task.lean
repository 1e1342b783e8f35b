import Rayo.Asyncio.Loop

/-!
# The task of CPython 3.13

`asyncio.Task` as a driver, in the terms of its pure Python implementation: `__step`,
`__wakeup`, `cancel`, `uncancel` and `cancelling`. The coroutine exists from the start, so
a cancellation that precedes the first step is thrown into a coroutine that has not run.
-/

namespace Asyncio

/-- How a task has ended. -/
inductive Outcome
  | result (value : Value)
  | exception (e : Exception)
  | cancelled (message : Option Value)
  deriving DecidableEq

/-- The state of a `Task`. -/
structure Task where
  /-- `_fut_waiter`. -/
  futWaiter : Option FutureId
  /-- `_must_cancel`. -/
  mustCancel : Bool
  /-- `_cancel_message`. -/
  cancelMessage : Option Value
  /-- `_num_cancels_requested`. -/
  numCancelsRequested : ℕ
  outcome : Option Outcome
  callbacks : List (Value × Value)
  /-- The coroutine has been started. -/
  started : Bool
  /-- The coroutine has control. -/
  running : Bool
  deriving DecidableEq

namespace Task

/-- A task and the data of its loop. -/
abbrev Local := Asyncio.Local Unit Task

/-- A new task. -/
def new : Task where
  futWaiter := none
  mustCancel := false
  cancelMessage := none
  numCancelsRequested := 0
  outcome := none
  callbacks := []
  started := false
  running := false

/-- `Future.__schedule_callbacks`. -/
def scheduleCallbacks (t : TaskId) : List (Value × Value) → World Unit → World Unit
  | [], w => w
  | (callback, context) :: rest, w =>
    scheduleCallbacks t rest (w.callSoon (.doneCallback t callback context))

/-- `set_result`, `set_exception` and `super().cancel`. -/
def finish (t : TaskId) (outcome : Outcome) (l : Local) : Local where
  world := scheduleCallbacks t l.task.callbacks l.world
  task := { l.task with outcome := some outcome, callbacks := [], running := false }

/-- The outcome of a coroutine that raises. -/
def raised : Exception → Outcome
  | .cancelledError message => .cancelled message
  | e => .exception e

/-- The exception that `__step` throws: a pending cancellation replaces every exception that
is not one already. -/
def stepException (k : Task) (e : Option Exception) : Option Exception :=
  if k.mustCancel && !e.any Exception.isCancelled then some (.cancelledError k.cancelMessage)
  else e

/-- `Task.__step`, up to the coroutine. -/
def step (t : TaskId) (e : Option Exception) (l : Local) : Local :=
  if l.task.outcome.isSome then l
  else
    let e := stepException l.task e
    let k := { l.task with mustCancel := false, futWaiter := none }
    match e with
    | none => ⟨l.world.note (.sent t), { k with started := true, running := true }⟩
    | some e =>
      if k.started then ⟨l.world.note (.threw t e), { k with running := true }⟩
      else finish t (raised e) ⟨l.world.note (.threwUnstarted t e), { k with started := true }⟩

/-- `Task.__wakeup` for a future, `Task.__step` otherwise. -/
def call (_ : Faults) (t : TaskId) (e : Option Exception) (f : Option FutureId) (l : Local) :
    Local :=
  match f with
  | some f => step t (l.world.futures f).status.error l
  | none => step t e l

/-- `call_soon(self.__step, new_exc)`. -/
def requeue (t : TaskId) (e : Option Exception) (l : Local) : Local where
  world := l.world.callSoon (.step t e)
  task := { l.task with running := false }

/-- The task registers itself with the future it is to wait for, and passes a cancellation
that came during the step on to it. -/
def await (t : TaskId) (f : FutureId) (l : Local) : Local :=
  let w := (l.world.setFuture f { l.world.futures f with blocking := false }).addDoneCallback f t
  let k := { l.task with futWaiter := some f, running := false }
  if k.mustCancel then
    ⟨w.cancelAwaited t f k.cancelMessage, { k with mustCancel := !w.acceptsCancel f }⟩
  else ⟨w, k⟩

/-- `Task.__step_run_and_handle_result`, after the coroutine. -/
def resume (_ : Faults) (t : TaskId) (input : Input) (l : Local) : Local :=
  match input with
  | .returned value =>
    if l.task.mustCancel then
      finish t (.cancelled l.task.cancelMessage) { l with task := { l.task with
        mustCancel := false } }
    else finish t (.result value) l
  | .raised e => finish t (raised e) l
  | .yielded .none => requeue t none l
  | .yielded (.object _) => requeue t (some (.protocolError "Task got bad yield")) l
  | .yielded (.future f) =>
    if (l.world.futures f).loop ≠ some l.world.loop then
      requeue t (some (.protocolError "Task got Future attached to a different loop")) l
    else if (l.world.futures f).blocking then await t f l
    else requeue t (some (.protocolError "yield was used instead of yield from in task")) l
  | .factoryReturned .. | .factoryRaised _ | .closed => l

/-- The coroutine can hand control back in this way. -/
def accepts (k : Task) : Input → Bool
  | .returned _ | .raised _ | .yielded _ => k.running
  | .factoryReturned .. | .factoryRaised _ | .closed => false

/-- `Task.cancel`. -/
def cancel (t : TaskId) (message : Option Value) (l : Local) : Local × CancelReply :=
  if l.task.outcome.isSome then (l, .finished)
  else
    let k := { l.task with numCancelsRequested := l.task.numCancelsRequested + 1 }
    match k.futWaiter with
    | some f =>
      if l.world.acceptsCancel f then (⟨l.world.cancelAwaited t f message, k⟩, .absorbed)
      else
        (⟨l.world.cancelAwaited t f message,
          { k with mustCancel := true, cancelMessage := message }⟩, .deferred)
    | none => (⟨l.world, { k with mustCancel := true, cancelMessage := message }⟩, .deferred)

section

variable {t : TaskId} {message : Option Value} {l : Local}

/-- A task that is done is not cancelled. -/
theorem cancel_of_done (houtcome : l.task.outcome.isSome = true) :
    cancel t message l = (l, .finished) := by
  simp [cancel, houtcome]

/-- The awaited future accepts the request. -/
theorem cancel_of_accepts {f : FutureId} (houtcome : l.task.outcome = none)
    (hwaiter : l.task.futWaiter = some f) (haccepts : l.world.acceptsCancel f = true) :
    cancel t message l =
      (⟨l.world.cancelAwaited t f message, { l.task with
        numCancelsRequested := l.task.numCancelsRequested + 1 }⟩, .absorbed) := by
  simp [cancel, houtcome, hwaiter, haccepts]

/-- The awaited future refuses it. -/
theorem cancel_of_refuses {f : FutureId} (houtcome : l.task.outcome = none)
    (hwaiter : l.task.futWaiter = some f) (hrefuses : l.world.acceptsCancel f = false) :
    cancel t message l =
      (⟨l.world.cancelAwaited t f message, { l.task with
        numCancelsRequested := l.task.numCancelsRequested + 1
        mustCancel := true
        cancelMessage := message }⟩, .deferred) := by
  simp [cancel, houtcome, hwaiter, hrefuses]

/-- No future is awaited. -/
theorem cancel_of_none (houtcome : l.task.outcome = none) (hwaiter : l.task.futWaiter = none) :
    cancel t message l =
      (⟨l.world, { l.task with
        numCancelsRequested := l.task.numCancelsRequested + 1
        mustCancel := true
        cancelMessage := message }⟩, .deferred) := by
  simp [cancel, houtcome, hwaiter]

end

/-- `Task.uncancel`. -/
def uncancel (k : Task) : Task × ℕ :=
  if k.numCancelsRequested = 0 then (k, 0)
  else
    let count := k.numCancelsRequested - 1
    ({ k with
        numCancelsRequested := count
        mustCancel := if count = 0 then false else k.mustCancel }, count)

/-- `Future.add_done_callback`. -/
def addDoneCallback (t : TaskId) (callback context : Value) (l : Local) : Local :=
  if l.task.outcome.isSome then
    { l with world := l.world.callSoon (.doneCallback t callback context) }
  else
    { l with task := { l.task with callbacks := l.task.callbacks ++ [(callback, context)] } }

/-- `Future.remove_done_callback`. -/
def removeDoneCallback (callback : Value) (k : Task) : Task :=
  { k with callbacks := k.callbacks.filter (·.1 ≠ callback) }

/-- `Task` as a driver. -/
def driver : Driver Unit Task where
  shared := ()
  fresh := new
  accept _ w := w
  busy := running
  accepts := accepts
  call := call
  resume := resume
  cancel := cancel
  uncancel := uncancel
  cancelling := numCancelsRequested
  addDoneCallback := addDoneCallback
  removeDoneCallback := removeDoneCallback

end Task

end Asyncio
