import Rayo.Guarded
import Rayo.Task.Completion

/-!
# The methods of a task as locked sections

Every method of a `HandlerTask` keeps the state of the task behind a mutex that is not reentrant.
Here the methods are given as locked sections and calls into Python. A section runs Python code
of others when it compares a callback with another one, and when it lets go of an object whose
last reference it may have been.
-/

namespace Rayo.OwnLock

open Asyncio HandlerTask Guarded

/-- An object that the state of a task refers to. -/
inductive Held
  | value (v : Value)
  | future (f : FutureId)
  | exception (e : Exception)
  deriving DecidableEq

/-- Python code of others that runs under the lock. -/
inductive Hook
  /-- `existing == callback`, the truth of the answer, and the error if it raises. -/
  | compare (existing callback : Value)
  /-- What finalizes the object. -/
  | finalize (o : Held)
  deriving DecidableEq

/-- The locked sections of the methods. -/
inductive Section
  /-- The first section of `__call__`. -/
  | turn (finishedFuture : Option FutureId)
  /-- A section that copies fields out of the state. -/
  | read
  | start (coroutine context : Value)
  | registered
  | park (f : FutureId)
  /-- `waiting_on` is reset when the future does not take the callback. -/
  | unpark (f : FutureId)
  | badYield (e : Exception)
  /-- The future has accepted a cancellation that came in the middle of a step. -/
  | absorbed
  | finish (completion : CompletionKind)
  | requestCancel (message : Option Value)
  | deferCancel
  | uncancel
  | setName (name : Value)
  | addDoneCallback (callback context : Value)
  /-- With what the comparison of a registered callback with this one answers. -/
  | removeDoneCallback (callback : Value) (equal : Value → Option Bool)

namespace Section

/-- The callback is removed. -/
def removes (equal : Value → Option Bool) (entry : Value × Value) : Bool :=
  (equal entry.1).getD false

/-- What a section does to the state. -/
def effect (sect : Section) (st : TaskState) : TaskState :=
  match sect with
  | .turn _ => if st.finished then st else turnTaken st
  | .read => st
  | .start coroutine context => { st with coroutine := some coroutine, context := some context }
  | .registered => { st with registeredWithAsyncio := true }
  | .park f => { st with waitingOn := some f }
  | .unpark _ => { st with waitingOn := none }
  | .badYield e => { st with deferredThrow := some e }
  | .absorbed => { st with mustCancel := false }
  | .finish completion => if st.finished then st else st.complete completion
  | .requestCancel message => if st.finished then st else countRequest message st
  | .deferCancel => if st.finished then st else { st with mustCancel := true }
  | .uncancel =>
    { st with
      cancelRequests := st.cancelRequests - 1
      mustCancel := if st.cancelRequests - 1 = 0 then false else st.mustCancel }
  | .setName name => { st with name := some name }
  | .addDoneCallback callback context =>
    if st.finished then st
    else { st with doneCallbacks := st.doneCallbacks ++ [(callback, context)] }
  | .removeDoneCallback _ equal =>
    { st with doneCallbacks := st.doneCallbacks.filter fun entry => !removes equal entry }

/-- What a section does with an object that it takes out of the state, unless the caller or the
state still refers to it. -/
def letGo (o kept : Option Held) : List Hook :=
  if o = kept then [] else (o.map Hook.finalize).toList

/-- The exception that a completion refers to. -/
def exceptionOf : CompletionKind → Option Exception
  | .raised e => some e
  | .returned _ | .cancelled _ | .aborted => none

/-- The Python code that a section runs. -/
def hooks (sect : Section) (st : TaskState) : List Hook :=
  match sect with
  | .turn finishedFuture =>
    if st.finished then []
    else letGo (st.waitingOn.map Held.future) (finishedFuture.map Held.future)
  | .start coroutine context =>
    letGo (st.coroutine.map Held.value) (some (.value coroutine)) ++
      letGo (st.context.map Held.value) (some (.value context))
  | .park f | .unpark f => letGo (st.waitingOn.map Held.future) (some (.future f))
  | .badYield e => letGo (st.deferredThrow.map Held.exception) (some (.exception e))
  | .finish completion =>
    if st.finished then []
    else
      letGo (st.waitingOn.map Held.future) none ++
        letGo (st.deferredThrow.map Held.exception)
          ((exceptionOf completion).map Held.exception) ++
        match completion with
        | .returned value => letGo (st.storedResult.map Held.value) (some (.value value))
        | .raised e => letGo (st.storedException.map Held.exception) (some (.exception e))
        | .cancelled message =>
          letGo (st.cancelledMessage.map Held.value) (message.map Held.value)
        | .aborted => []
  | .requestCancel message =>
    if st.finished then [] else letGo (st.cancelMessage.map Held.value) (message.map Held.value)
  | .setName name => letGo (st.name.map Held.value) (some (.value name))
  | .removeDoneCallback callback equal =>
    st.doneCallbacks.flatMap fun entry =>
      .compare entry.1 callback ::
        if removes equal entry then
          letGo (some (.value entry.1)) (some (.value callback)) ++
            letGo (some (.value entry.2)) none
        else []
  | .read | .registered | .absorbed | .deferCancel | .uncancel | .addDoneCallback .. => []

end Section

/-- How a call of `send` or `throw` ends. A coroutine yields `None` or an object. -/
inductive StepOutcome
  | returned (value : Value)
  | raised (e : Exception)
  | yielded (o : Option FutureId)

/-- The calls that are made without the lock, all but two of them into Python. -/
inductive Call
  | handler
  | copyContext
  | registerTask
  | unregisterTask
  | enterTask
  | leaveTask
  | enterContext (context : Value)
  | exitContext (context : Value)
  | close (coroutine : Value)
  | send (coroutine : Value)
  | throw (coroutine : Value) (e : Exception)
  | blockingFlag (o : FutureId)
  | typeName (o : FutureId)
  /-- `get_loop`, and whether the answer is the loop of the task. -/
  | sameLoop (o : FutureId)
  | setBlocking (o : FutureId)
  | addDoneCallback (o : FutureId)
  | cancelFuture (o : FutureId) (message : Option Value)
  | futureResult (o : FutureId)
  | callSoon
  | fire (callback context : Value)
  | str (value : Value)
  | print (e : Exception)
  /-- The task is taken out of `live_tasks`, which runs no Python code. -/
  | removeLive
  /-- The response of a completion is sent on the response channel, which runs none either. -/
  | deliver (completion : CompletionKind)

/-- What comes back from a call. -/
abbrev Reply : Call → Type
  | .handler | .copyContext | .str _ => Except Exception Value
  | .send _ | .throw .. => StepOutcome
  | .blockingFlag _ | .sameLoop _ => Option Bool
  | .typeName _ => Option String
  | .cancelFuture .. => Except Exception Bool
  | .print _ | .removeLive | .deliver _ => Unit
  | .registerTask | .unregisterTask | .enterTask | .leaveTask | .enterContext _ | .exitContext _
  | .close _ | .setBlocking _ | .addDoneCallback _ | .futureResult _ | .callSoon | .fire .. =>
    Except Exception Unit

/-- What the methods of a task are made of. -/
abbrev interface : Interface where
  State := TaskState
  Sect := Section
  Call := Call
  Reply := Reply
  Hook := Hook
  effect := Section.effect
  hooks := Section.hooks

/-- A part of a method. -/
abbrev Code := Prog interface

/-- A locked section. -/
def locked (sect : Section) : Code TaskState := Prog.locked (I := interface) sect .done

/-- A call without the lock. -/
def unlocked (c : Call) : Code (Reply c) := Prog.call (I := interface) c .done

section

variable {α β : Type}

/-- Code that returns at once is done. -/
@[simp] theorem pure_eq (a : α) : (pure a : Code α) = .done a := rfl

/-- What is done goes on with what comes after it. -/
@[simp] theorem done_bind (a : α) (f : α → Code β) : ((.done a : Code α) >>= f) = f a := rfl

/-- A section goes on with what comes after it. -/
@[simp] theorem locked_bind (sect : Section) (f : TaskState → Code β) :
    (locked sect >>= f) = .locked sect f := rfl

/-- A call goes on with what comes after it. -/
@[simp] theorem unlocked_bind (c : Call) (f : Reply c → Code β) : (unlocked c >>= f) = .call c f := rfl

end

/-- Print the error of a call that failed. -/
def printError : Except Exception Unit → Code Unit
  | .error e => unlocked (.print e)
  | .ok _ => pure ()

/-- `finish` hands the done callbacks on. -/
def fireCallbacks : List (Value × Value) → Code Unit
  | [] => return
  | (callback, context) :: rest => do
    printError (← unlocked (.fire callback context))
    fireCallbacks rest

/-- `HandlerTask::finish`. A task that is finished already sends its response under the lock. -/
def finish (completion : CompletionKind) : Code Unit := do
  let st ← locked (.finish completion)
  if st.finished then return
  unlocked .removeLive
  if st.registeredWithAsyncio then printError (← unlocked .unregisterTask)
  fireCallbacks st.doneCallbacks
  unlocked (.deliver completion)

/-- `HandlerTask::close_coroutine_quietly`. -/
def closeCoroutineQuietly : Code Unit := do
  let st ← locked .read
  match st.coroutine with
  | some coroutine => printError (← unlocked (.close coroutine))
  | none => return

/-- `HandlerTask::dispose`. -/
def dispose : Code Unit := do
  closeCoroutineQuietly
  finish .aborted

/-- `HandlerTask::start`. -/
def start : Code Bool := do
  match ← unlocked .handler with
  | .error e =>
    unlocked (.print e)
    finish (.raised e)
    return false
  | .ok coroutine =>
    match ← unlocked .copyContext with
    | .error e =>
      unlocked (.print e)
      printError (← unlocked (.close coroutine))
      finish .aborted
      return false
    | .ok context =>
      let _ ← locked (.start coroutine context)
      match ← unlocked .registerTask with
      | .ok _ => let _ ← locked .registered
      | .error e => unlocked (.print e)
      return true

/-- `HandlerTask::park_on_future`. -/
def parkOnFuture (o : FutureId) : Code ParkOutcome := do
  match ← unlocked (.blockingFlag o) with
  | none => return .badYield (.protocolError (unknownYield (← unlocked (.typeName o))))
  | some false => return .badYield (.protocolError plainYield)
  | some true =>
    match ← unlocked (.sameLoop o) with
    | some false => return .badYield (.protocolError foreignFuture)
    | _ =>
      match ← unlocked (.setBlocking o) with
      | .error e =>
        unlocked (.print e)
        return .failed
      | .ok _ =>
        let _ ← locked (.park o)
        match ← unlocked (.addDoneCallback o) with
        | .error e =>
          unlocked (.print e)
          let _ ← locked (.unpark o)
          return .failed
        | .ok _ => return .parked

/-- `HandlerTask::reschedule_or_abort`. -/
def rescheduleOrAbort : Code Unit := do
  match ← unlocked .callSoon with
  | .ok _ => return
  | .error e =>
    unlocked (.print e)
    closeCoroutineQuietly
    finish .aborted

/-- `HandlerTask::apply_cancel_requested_mid_step`. -/
def applyCancelRequestedMidStep : Code Unit := do
  let st ← locked .read
  match st.mustCancel, st.waitingOn with
  | true, some f =>
    match ← unlocked (.cancelFuture f st.cancelMessage) with
    | .ok true => let _ ← locked .absorbed
    | .ok false => return
    | .error e => unlocked (.print e)
  | _, _ => return

/-- `HandlerTask::step_once`. -/
def stepOnce (coroutine : Value) (pendingThrow : Option Exception) : Code Unit := do
  let outcome ← match pendingThrow with
    | some e => unlocked (.throw coroutine e)
    | none => unlocked (.send coroutine)
  match outcome with
  | .returned value => finish (.returned value)
  | .raised (.cancelledError message) => finish (.cancelled message)
  | .raised e =>
    unlocked (.print e)
    finish (.raised e)
  | .yielded none => rescheduleOrAbort
  | .yielded (some o) =>
    match ← parkOnFuture o with
    | .parked => applyCancelRequestedMidStep
    | .badYield e =>
      let _ ← locked (.badYield e)
      rescheduleOrAbort
    | .failed =>
      closeCoroutineQuietly
      finish .aborted

/-- What the turn throws into the coroutine. -/
def pendingThrow (finishedFuture : Option FutureId) (st : TaskState) : Code (Option Exception) := do
  let woken ← match finishedFuture with
    | some f => do
      match ← unlocked (.futureResult f) with
      | .error e => pure (some e)
      | .ok _ => pure st.deferredThrow
    | none => pure st.deferredThrow
  if st.mustCancel && !woken.any Exception.isCancelled then
    return some (.cancelledError st.cancelMessage)
  return woken

/-- The rest of `__call__` once the coroutine exists. -/
def advance (finishedFuture : Option FutureId) (st : TaskState) : Code Unit := do
  let pending ← pendingThrow finishedFuture st
  let now ← locked .read
  match now.coroutine, now.context with
  | some coroutine, some context =>
    match ← unlocked .enterTask with
    | .error e =>
      unlocked (.print e)
      closeCoroutineQuietly
      finish .aborted
    | .ok _ =>
      match ← unlocked (.enterContext context) with
      | .error e =>
        unlocked (.print e)
        let _ ← unlocked .leaveTask
        closeCoroutineQuietly
        finish .aborted
      | .ok _ =>
        stepOnce coroutine pending
        printError (← unlocked (.exitContext context))
        printError (← unlocked .leaveTask)
  | _, _ => return

/-- `HandlerTask::__call__`. -/
def call (finishedFuture : Option FutureId) : Code Unit := do
  let st ← locked (.turn finishedFuture)
  if st.finished then return
  if st.coroutine.isNone then
    if st.mustCancel then finish (.cancelled st.cancelMessage)
    else if ← start then advance finishedFuture st
  else advance finishedFuture st

/-- `HandlerTask::cancel`. -/
def cancel (message : Option Value) : Code Bool := do
  let st ← locked (.requestCancel message)
  if st.finished then return false
  let absorbed ← match st.waitingOn with
    | some f => do
      match ← unlocked (.cancelFuture f message) with
      | .ok accepted => pure accepted
      | .error e => do
        unlocked (.print e)
        pure false
    | none => pure false
  if absorbed then return true
  let now ← locked .deferCancel
  return !now.finished

/-- `HandlerTask::set_name`. -/
def setName (value : Value) : Code (Except Exception Unit) := do
  match ← unlocked (.str value) with
  | .error e => return .error e
  | .ok name =>
    let _ ← locked (.setName name)
    return .ok ()

/-- `HandlerTask::add_done_callback`. -/
def addDoneCallback (callback : Value) (context : Option Value) : Code (Except Exception Unit) := do
  let copied ← match context with
    | some explicitContext => pure (Except.ok explicitContext)
    | none => unlocked .copyContext
  match copied with
  | .error e => return .error e
  | .ok callbackContext =>
    let st ← locked (.addDoneCallback callback callbackContext)
    if st.finished then unlocked (.fire callback callbackContext)
    else return .ok ()

/-- `HandlerTask::remove_done_callback`, with what the comparisons answer. -/
def removeDoneCallback (callback : Value) (equal : Value → Option Bool) : Code ℕ := do
  let st ← locked (.removeDoneCallback callback equal)
  return st.doneCallbacks.length -
    (Section.effect (.removeDoneCallback callback equal) st).doneCallbacks.length

/-- A method that copies something out of the state. -/
def accessor {α : Type} (field : TaskState → α) : Code α := do
  let st ← locked .read
  return field st

/-- The methods that Python code and the threads of the program can call. -/
inductive Method
  | call (finishedFuture : Option FutureId)
  | cancel (message : Option Value)
  | uncancel
  | cancelling
  | done
  | cancelled
  | getLoop
  | getCoro
  | getContext
  | getName
  | setName (value : Value)
  | result
  | exception
  | addDoneCallback (callback : Value) (context : Option Value)
  | removeDoneCallback (callback : Value) (equal : Value → Option Bool)
  | dispose

/-- A method whose result goes to its caller. -/
def returning {α : Type} (code : Code α) : Code Unit := do
  let _ ← code

/-- What a method does. -/
def Method.code : Method → Code Unit
  | .call finishedFuture => OwnLock.call finishedFuture
  | .cancel message => returning (OwnLock.cancel message)
  | .uncancel => returning (locked .uncancel)
  | .cancelling => returning (accessor TaskState.cancelRequests)
  | .done => returning (accessor TaskState.done)
  | .cancelled => returning (accessor TaskState.cancelled)
  | .getLoop => pure ()
  | .getCoro => returning (accessor TaskState.coroutine)
  | .getContext => returning (accessor TaskState.context)
  | .getName => returning (accessor TaskState.name)
  | .setName value => returning (OwnLock.setName value)
  | .result | .exception => returning (accessor TaskState.verdict)
  | .addDoneCallback callback context => returning (OwnLock.addDoneCallback callback context)
  | .removeDoneCallback callback equal => returning (OwnLock.removeDoneCallback callback equal)
  | .dispose => OwnLock.dispose

end Rayo.OwnLock
