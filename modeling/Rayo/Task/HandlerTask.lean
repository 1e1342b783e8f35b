import Mathlib.Algebra.Group.Nat.Defs
import Rayo.Asyncio.Loop
import Rayo.Dispatch.Channel

/-!
# `HandlerTask`

One request's task-like, as a driver of its handler coroutine. Everything it does runs on
its loop's thread, so a turn is atomic except where Python code gets control: in the call
of the handler that builds the coroutine, in the coroutine itself, and in its `close()`.
The phase of a task says which of these is running and what is left to do after it.
`respond` is `response_from_return_value` on the value a token stands for.
-/

namespace Rayo

open Asyncio

/-- The locals of `HandlerTask::__call__` that outlive the call of the handler. -/
structure Turn where
  mustCancel : Bool
  cancelMessage : Option Value
  deferredThrow : Option Exception
  finishedFuture : Option FutureId
  deriving DecidableEq

/-- The Python code that a task has called and that has not come back. -/
inductive Phase
  | idle
  /-- The handler, called to build the coroutine. -/
  | building (turn : Turn)
  /-- The coroutine, advanced with the task and its context entered. -/
  | stepping
  /-- `coroutine.close()`, on the way to an abort. -/
  | closing (entered : Bool)
  deriving DecidableEq

/-- `TaskState`. -/
structure TaskState where
  coroutine : Option Value
  context : Option Value
  waitingOn : Option FutureId
  deferredThrow : Option Exception
  mustCancel : Bool
  cancelMessage : Option Value
  cancelRequests : ℕ
  registeredWithAsyncio : Bool
  name : Option Value
  doneCallbacks : List (Value × Value)
  finished : Bool
  finishedCancelled : Bool
  cancelledMessage : Option Value
  storedResult : Option Value
  storedException : Option Exception
  deriving DecidableEq

/-- `TaskState::default`. -/
def TaskState.default : TaskState where
  coroutine := none
  context := none
  waitingOn := none
  deferredThrow := none
  mustCancel := false
  cancelMessage := none
  cancelRequests := 0
  registeredWithAsyncio := false
  name := none
  doneCallbacks := []
  finished := false
  finishedCancelled := false
  cancelledMessage := none
  storedResult := none
  storedException := none

/-- `HandlerTask`: its state, whether its `ResponseChannel` still has the sender, and what
it is in the middle of. -/
structure HandlerTask where
  state : TaskState
  sender : Bool
  phase : Phase
  /-- History: how often the handler has been called. -/
  factoryCalls : ℕ
  deriving DecidableEq

/-- `LoopHandles` and the gauge of the loop, with the responses sent so far. -/
structure LoopHandles where
  liveTasks : List TaskId
  inFlight : ℤ
  responses : List (TaskId × HandlerResponse)

/-- `CompletionKind`. -/
inductive CompletionKind
  | returned (value : Value)
  | raised (e : Exception)
  | cancelled (message : Option Value)
  | aborted

/-- `ParkOutcome`. -/
inductive ParkOutcome
  | parked
  | badYield (e : Exception)
  | failed

/-- The bookkeeping of `finish` in the task's state. -/
def TaskState.complete (st : TaskState) (completion : CompletionKind) : TaskState :=
  let st := { st with
    finished := true
    waitingOn := none
    deferredThrow := none
    registeredWithAsyncio := false
    doneCallbacks := [] }
  match completion with
  | .returned value => { st with storedResult := some value }
  | .raised e => { st with storedException := some e }
  | .cancelled message => { st with finishedCancelled := true, cancelledMessage := message }
  | .aborted => st

namespace HandlerTask

/-- A task and the data of its loop. -/
abbrev Local := Asyncio.Local LoopHandles HandlerTask

/-- A task as `EventLoop::schedule` creates it. -/
def new : HandlerTask where
  state := .default
  sender := true
  phase := .idle
  factoryCalls := 0

/-- Change the state of the task. -/
def setState (l : Local) (st : TaskState) : Local :=
  { l with task := { l.task with state := st } }

/-- Change what the task is in the middle of. -/
def setPhase (l : Local) (phase : Phase) : Local :=
  { l with task := { l.task with phase := phase } }

/-- Change the data of the loop. -/
def setWorld (l : Local) (w : World LoopHandles) : Local :=
  { l with world := w }

/-- A task's state is no part of its world. -/
@[simp] theorem setState_world (l : Local) (st : TaskState) : (setState l st).world = l.world := rfl

/-- The state that has been set is there. -/
@[simp] theorem setState_state (l : Local) (st : TaskState) : (setState l st).task.state = st := rfl

/-- A task keeps its phase when its state is set. -/
@[simp] theorem setState_phase (l : Local) (st : TaskState) :
    (setState l st).task.phase = l.task.phase := rfl

/-- No handler is called when a state is set. -/
@[simp] theorem setState_factoryCalls (l : Local) (st : TaskState) :
    (setState l st).task.factoryCalls = l.task.factoryCalls := rfl

/-- A task's phase is no part of its world. -/
@[simp] theorem setPhase_world (l : Local) (phase : Phase) :
    (setPhase l phase).world = l.world := rfl

/-- A task keeps its state when its phase is set. -/
@[simp] theorem setPhase_state (l : Local) (phase : Phase) :
    (setPhase l phase).task.state = l.task.state := rfl

/-- The phase that has been set is there. -/
@[simp] theorem setPhase_phase (l : Local) (phase : Phase) :
    (setPhase l phase).task.phase = phase := rfl

/-- The world that has been set is there. -/
@[simp] theorem setWorld_world (l : Local) (w : World LoopHandles) :
    (setWorld l w).world = w := rfl

/-- A task stays as it is when its world is set. -/
@[simp] theorem setWorld_task (l : Local) (w : World LoopHandles) :
    (setWorld l w).task = l.task := rfl

/-- `ResponseChannel::send`. -/
def send (t : TaskId) (response : HandlerResponse) (l : Local) : Local :=
  if l.task.sender then
    { world := { l.world with
        shared := { l.world.shared with
          inFlight := l.world.shared.inFlight - 1
          responses := (t, response) :: l.world.shared.responses } }
      task := { l.task with sender := false } }
  else l

/-- Remove the task from the registries of its loop. -/
def unregister (faults : Faults) (t : TaskId) (wasRegistered : Bool) (w : World LoopHandles) :
    World LoopHandles :=
  let w := { w with
    shared := { w.shared with liveTasks := w.shared.liveTasks.filter (· ≠ t) } }
  if wasRegistered && !faults.unregisterTask then w.unregisterTask t else w

/-- Only the two registries change. -/
theorem unregister_eq (faults : Faults) (t : TaskId) (wasRegistered : Bool)
    (w : World LoopHandles) : unregister faults t wasRegistered w =
      { w with
        shared := { w.shared with liveTasks := w.shared.liveTasks.filter (· ≠ t) }
        registered := if wasRegistered && !faults.unregisterTask then
          w.registered.filter (· ≠ t) else w.registered } := by
  unfold unregister
  dsimp only
  split <;> rfl

/-- Hand done callbacks to `call_soon`, in order. -/
def fireCallbacks (faults : Faults) (t : TaskId) :
    List (Value × Value) → World LoopHandles → World LoopHandles
  | [], w => w
  | (callback, context) :: rest, w =>
    fireCallbacks faults t rest <|
      if faults.doneCallback callback then w else w.callSoon (.doneCallback t callback context)

/-- Only the queue changes: each callback that `call_soon` takes gets a handle at its end. -/
theorem fireCallbacks_eq (faults : Faults) (t : TaskId) (callbacks : List (Value × Value))
    (w : World LoopHandles) : fireCallbacks faults t callbacks w =
      { w with
        ready := w.ready ++ (callbacks.filter fun c => !faults.doneCallback c.1).map
          fun c => .doneCallback t c.1 c.2 } := by
  induction callbacks generalizing w with
  | nil => simp [fireCallbacks]
  | cons entry rest ih =>
    obtain ⟨callback, context⟩ := entry
    rw [fireCallbacks, ih]
    cases hfault : faults.doneCallback callback <;> simp [hfault, World.callSoon]

/-- `HandlerTask::finish`. -/
def finish (faults : Faults) (t : TaskId) (response : HandlerResponse)
    (completion : CompletionKind) (l : Local) : Local :=
  if l.task.state.finished then send t response l
  else
    let st := l.task.state
    let l := setState l (st.complete completion)
    let l := setWorld l (unregister faults t st.registeredWithAsyncio l.world)
    let l := setWorld l (fireCallbacks faults t st.doneCallbacks l.world)
    send t response l

/-- `HandlerTask::close_coroutine_quietly`, on the way to `finish` as aborted. -/
def closeCoroutineQuietly (entered : Bool) (l : Local) : Local :=
  setPhase l (.closing entered)

/-- The end of a turn: exit the context and leave the task. -/
def leave (faults : Faults) (l : Local) : Local :=
  let l := if faults.exitContext then l else setWorld l l.world.exitContext
  let l := if faults.leaveTask then l else setWorld l l.world.leaveTask
  setPhase l .idle

/-- What the next advance throws: an exception of the awaited future overrides a deferred
protocol error, and a pending cancellation overrides both unless it is already one. -/
def pendingThrow (w : World LoopHandles) (turn : Turn) : Option Exception :=
  let pending := (turn.finishedFuture.bind fun f => (w.futures f).status.error).or
    turn.deferredThrow
  if turn.mustCancel && !pending.any Exception.isCancelled then
    some (.cancelledError turn.cancelMessage)
  else pending

/-- `send_step` or `throw_step`: the coroutine gets control, and its `StepOutcome` is the input of the
rest of the turn. That assumes that `PyErr::fetch` returns: the coroutine does not raise a
`PanicException`, which resumes a panic there and abandons the turn. -/
def stepCoroutine (t : TaskId) (pending : Option Exception) (l : Local) : Local :=
  let operation := match pending with
    | some e => Observation.threw t e
    | none => .sent t
  setPhase (setWorld l (l.world.note operation)) .stepping

/-- The rest of `__call__` once the coroutine exists. -/
def advance (faults : Faults) (t : TaskId) (turn : Turn) (l : Local) : Local :=
  let pending := pendingThrow l.world turn
  match l.task.state.coroutine, l.task.state.context with
  | some _, some context =>
    if faults.enterTask then closeCoroutineQuietly false l
    else
      let l := setWorld l (l.world.enterTask t)
      if faults.enterContext then
        let l := if faults.leaveTask then l else setWorld l l.world.leaveTask
        closeCoroutineQuietly false l
      else
        stepCoroutine t pending (setWorld l (l.world.enterContext context))
  | _, _ => setPhase (setWorld l (l.world.note (.turnLost t))) .idle

/-- What `__call__` takes out of the state at the beginning of a turn. -/
def takeTurn (finishedFuture : Option FutureId) (st : TaskState) : Turn where
  mustCancel := st.mustCancel
  cancelMessage := st.cancelMessage
  deferredThrow := st.deferredThrow
  finishedFuture := finishedFuture

/-- What it leaves in the state. -/
def turnTaken (st : TaskState) : TaskState :=
  { st with waitingOn := none, mustCancel := false, cancelMessage := none, deferredThrow := none }

/-- `HandlerTask::__call__`, up to the call of the handler or the advance of the
coroutine. -/
def call (faults : Faults) (t : TaskId) (finishedFuture : Option FutureId) (l : Local) : Local :=
  let st := l.task.state
  if st.finished then l
  else
    let turn := takeTurn finishedFuture st
    let l := setState l (turnTaken st)
    if st.coroutine.isNone then
      if turn.mustCancel then finish faults t .internalError (.cancelled turn.cancelMessage) l
      else
        { l with task := { l.task with
          phase := .building turn
          factoryCalls := l.task.factoryCalls + 1 } }
    else advance faults t turn l

/-- `HandlerTask::start`, after the handler has returned a coroutine. -/
def start (faults : Faults) (t : TaskId) (turn : Turn) (coroutine context : Value) (l : Local) :
    Local :=
  if faults.contextCopy then closeCoroutineQuietly false l
  else
    let l := setState l { l.task.state with coroutine := some coroutine, context := some context }
    let l := if faults.registerTask then l
      else setState (setWorld l (l.world.registerTask t))
        { l.task.state with registeredWithAsyncio := true }
    advance faults t turn l

/-- The message for an object without the blocking flag. -/
def unknownYield (typeName : Option String) : String :=
  "handler awaited an object Rayo's scheduler does not understand (type " ++
    typeName.getD "<unknown>" ++
    "); only asyncio futures and things built on them can be awaited"

/-- The message for a future whose blocking flag is not set. -/
def plainYield : String :=
  "handler coroutine used `yield` where `await` was expected " ++
    "(a future was passed through without its blocking flag set)"

/-- The message for a future of another loop. -/
def foreignFuture : String :=
  "handler awaited a future attached to a different event loop; " ++
    "Rayo runs one event loop per core, so loop-bound objects " ++
    "(futures, locks, queues) created on one loop cannot be awaited " ++
    "from a request running on another — create them inside the " ++
    "handler, or pin them to a single loop"

/-- `HandlerTask::park_on_future` on a future. -/
def parkOnFuture (faults : Faults) (t : TaskId) (f : FutureId) (l : Local) :
    Local × ParkOutcome :=
  let future := l.world.futures f
  if !future.blocking then (l, .badYield (.protocolError plainYield))
  else if future.loop.any (· ≠ l.world.loop) then (l, .badYield (.protocolError foreignFuture))
  else if faults.setBlocking then (l, .failed)
  else
    let l := setWorld l (l.world.setFuture f { future with blocking := false })
    if faults.addDoneCallback then (setState l { l.task.state with waitingOn := none }, .failed)
    else
      let l := setState l { l.task.state with waitingOn := some f }
      (setWorld l (l.world.addDoneCallback f t), .parked)

/-- `HandlerTask::reschedule_or_abort`, within a step. -/
def rescheduleOrAbort (faults : Faults) (t : TaskId) (l : Local) : Local :=
  if faults.callSoon then closeCoroutineQuietly true l
  else leave faults (setWorld l (l.world.callSoon (.step t none)))

/-- `HandlerTask::apply_cancel_requested_mid_step`. -/
def applyCancelRequestedMidStep (t : TaskId) (l : Local) : Local :=
  match l.task.state.mustCancel, l.task.state.waitingOn with
  | true, some f =>
    let message := l.task.state.cancelMessage
    let accepted := l.world.acceptsCancel f
    let l := setWorld l (l.world.cancelAwaited t f message)
    if accepted then setState l { l.task.state with mustCancel := false } else l
  | _, _ => l

/-- The coroutine has yielded. -/
def yieldStep (faults : Faults) (t : TaskId) (y : Yielded) (l : Local) : Local :=
  let badYield (e : Exception) (l : Local) :=
    rescheduleOrAbort faults t (setState l { l.task.state with deferredThrow := some e })
  match y with
  | .none => rescheduleOrAbort faults t l
  | .object typeName => badYield (.protocolError (unknownYield typeName)) l
  | .future f =>
    match parkOnFuture faults t f l with
    | (l, .parked) => leave faults (applyCancelRequestedMidStep t l)
    | (l, .badYield e) => badYield e l
    | (l, .failed) => closeCoroutineQuietly true l

/-- The coroutine has raised. -/
def raiseStep (faults : Faults) (t : TaskId) (e : Exception) (l : Local) : Local :=
  match e with
  | .cancelledError message => finish faults t .internalError (.cancelled message) l
  | e => finish faults t .internalError (.raised e) l

section

variable (respond : Value → HandlerResponse)

/-- What the task does when Python code that it called hands control back. -/
def resume (faults : Faults) (t : TaskId) (input : Input) (l : Local) : Local :=
  match l.task.phase, input with
  | .building turn, .factoryReturned coroutine context => start faults t turn coroutine context l
  | .building _, .factoryRaised e => finish faults t .internalError (.raised e) (setPhase l .idle)
  | .stepping, .returned value =>
    leave faults (finish faults t (respond value) (.returned value) l)
  | .stepping, .raised e => leave faults (raiseStep faults t e l)
  | .stepping, .yielded y => yieldStep faults t y l
  | .closing true, .closed => leave faults (finish faults t .internalError .aborted l)
  | .closing false, .closed => finish faults t .internalError .aborted (setPhase l .idle)
  | _, _ => l

end

/-- Control can come back in this way. -/
def accepts (k : HandlerTask) (input : Input) : Bool :=
  match k.phase, input with
  | .building _, .factoryReturned .. | .building _, .factoryRaised _ => true
  | .stepping, .returned _ | .stepping, .raised _ | .stepping, .yielded _ => true
  | .closing _, .closed => true
  | _, _ => false

/-- The last part of `HandlerTask::cancel`: leave the request for the next step. -/
def deferCancel (l : Local) : Local × CancelReply :=
  if l.task.state.finished then (l, .finished)
  else (setState l { l.task.state with mustCancel := true }, .deferred)

/-- A call of `cancel` on an unfinished task, whose counter is a `u32`. -/
def countRequest (message : Option Value) (st : TaskState) : TaskState :=
  { st with
    cancelRequests := (st.cancelRequests + 1) % 2 ^ 32
    cancelMessage := message }

/-- `HandlerTask::cancel`. -/
def cancel (t : TaskId) (message : Option Value) (l : Local) : Local × CancelReply :=
  if l.task.state.finished then (l, .finished)
  else
    let l := setState l (countRequest message l.task.state)
    match l.task.state.waitingOn with
    | some f =>
      let accepted := l.world.acceptsCancel f
      let l := setWorld l (l.world.cancelAwaited t f message)
      if accepted then (l, .absorbed) else deferCancel l
    | none => deferCancel l

section

variable {t : TaskId} {message : Option Value} {l : Local}

/-- A finished task is not cancelled. -/
theorem cancel_of_finished (hfinished : l.task.state.finished = true) :
    cancel t message l = (l, .finished) := by
  simp [cancel, hfinished]

/-- The awaited future accepts the request. -/
theorem cancel_of_accepts {f : FutureId} (hunfinished : l.task.state.finished = false)
    (hwaiting : l.task.state.waitingOn = some f) (haccepts : l.world.acceptsCancel f = true) :
    cancel t message l =
      (setWorld (setState l (countRequest message l.task.state))
        (l.world.cancelAwaited t f message), .absorbed) := by
  simp [cancel, hunfinished, countRequest, hwaiting, haccepts]

/-- The awaited future refuses it. -/
theorem cancel_of_refuses {f : FutureId} (hunfinished : l.task.state.finished = false)
    (hwaiting : l.task.state.waitingOn = some f) (hrefuses : l.world.acceptsCancel f = false) :
    cancel t message l =
      (setState (setWorld l (l.world.cancelAwaited t f message))
        { countRequest message l.task.state with mustCancel := true }, .deferred) := by
  simp [cancel, hunfinished, countRequest, hwaiting, hrefuses, deferCancel, setState, setWorld]

/-- No future is awaited. -/
theorem cancel_of_none (hunfinished : l.task.state.finished = false)
    (hwaiting : l.task.state.waitingOn = none) :
    cancel t message l =
      (setState l { countRequest message l.task.state with mustCancel := true }, .deferred) := by
  simp [cancel, hunfinished, countRequest, hwaiting, deferCancel, setState]

/-- The four ways in which `cancel` can go. -/
theorem cancel_cases {P : Local × CancelReply → Prop}
    (hfinished : l.task.state.finished = true → P (l, .finished))
    (haccepts : ∀ f, l.task.state.finished = false → l.task.state.waitingOn = some f →
      l.world.acceptsCancel f = true →
        P (setWorld (setState l (countRequest message l.task.state))
          (l.world.cancelAwaited t f message), .absorbed))
    (hrefuses : ∀ f, l.task.state.finished = false → l.task.state.waitingOn = some f →
      l.world.acceptsCancel f = false →
        P (setState (setWorld l (l.world.cancelAwaited t f message))
          { countRequest message l.task.state with mustCancel := true }, .deferred))
    (hnone : l.task.state.finished = false → l.task.state.waitingOn = none →
      P (setState l { countRequest message l.task.state with mustCancel := true }, .deferred)) :
    P (cancel t message l) := by
  cases hdone : l.task.state.finished with
  | true => exact cancel_of_finished hdone ▸ hfinished hdone
  | false =>
    cases hwaiting : l.task.state.waitingOn with
    | none => exact cancel_of_none hdone hwaiting ▸ hnone hdone hwaiting
    | some f =>
      cases haccept : l.world.acceptsCancel f with
      | true => exact cancel_of_accepts hdone hwaiting haccept ▸ haccepts f hdone hwaiting haccept
      | false => exact cancel_of_refuses hdone hwaiting haccept ▸ hrefuses f hdone hwaiting haccept

end

/-- `HandlerTask::uncancel`. -/
def uncancel (k : HandlerTask) : HandlerTask × ℕ :=
  let requests := k.state.cancelRequests - 1
  let mustCancel := if requests = 0 then false else k.state.mustCancel
  ({ k with state := { k.state with cancelRequests := requests, mustCancel := mustCancel } },
    requests)

/-- `HandlerTask::cancelling`. -/
def cancelling (k : HandlerTask) : ℕ := k.state.cancelRequests

/-- `HandlerTask::add_done_callback`, on a loop that accepts callbacks. -/
def addDoneCallback (t : TaskId) (callback context : Value) (l : Local) : Local :=
  if l.task.state.finished then
    setWorld l (l.world.callSoon (.doneCallback t callback context))
  else
    setState l { l.task.state with
      doneCallbacks := l.task.state.doneCallbacks ++ [(callback, context)] }

/-- `HandlerTask::remove_done_callback`, without the count it returns. -/
def removeDoneCallback (callback : Value) (k : HandlerTask) : HandlerTask :=
  { k with state := { k.state with
    doneCallbacks := k.state.doneCallbacks.filter (·.1 ≠ callback) } }

/-- The part of `EventLoop::schedule` before `call_soon_threadsafe`. -/
def accept (t : TaskId) (w : World LoopHandles) : World LoopHandles :=
  { w with
    shared := { w.shared with
      inFlight := w.shared.inFlight + 1
      liveTasks := w.shared.liveTasks.insert t } }

/-- `HandlerTask` as a driver. Its handles never carry an exception to throw. -/
def driver (respond : Value → HandlerResponse) : Driver LoopHandles HandlerTask where
  shared := ⟨[], 0, []⟩
  fresh := new
  accept := accept
  busy k := k.phase ≠ .idle
  accepts := accepts
  call faults t _ finishedFuture := call faults t finishedFuture
  resume := resume respond
  cancel := cancel
  uncancel := uncancel
  cancelling := cancelling
  addDoneCallback := addDoneCallback
  removeDoneCallback := removeDoneCallback

end HandlerTask

end Rayo
