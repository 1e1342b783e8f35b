import Rayo.Suspension
import Rayo.Task.Sections

/-!
# What surrounds the sections of a task

The methods as locked sections and calls into Python run on the data of a loop. The handler, the
coroutine and its `close()` take control, all other calls come back at once. Each method is cut into
the parts between what takes control.
-/

namespace Rayo

open Asyncio HandlerTask Guarded

namespace OwnLock

/-- What the methods of a task use besides its state. -/
structure Surroundings where
  world : World LoopHandles
  /-- Its `ResponseChannel` still has the sender. -/
  sender : Bool

/-- `ResponseChannel::send`. -/
def Surroundings.send (t : TaskId) (response : HandlerResponse) (x : Surroundings) : Surroundings :=
  if x.sender then
    { world := { x.world with
        shared := { x.world.shared with
          inFlight := x.world.shared.inFlight - 1
          responses := (t, response) :: x.world.shared.responses } }
      sender := false }
  else x

/-- What the calls that do not succeed come back with. -/
structure Failures where
  raised : Call → Exception
  /-- How `close()` of a coroutine ends. -/
  closing : Value → Except Exception Unit
  /-- The exception with which a future refuses a cancellation, unless it returns `False`. -/
  refusal : FutureId → Option Exception

/-- A call that fails with an exception, or changes the data. -/
def attempt (fails : Bool) (e : Exception) (x x' : Surroundings) :
    Surroundings × Option (Except Exception Unit) :=
  if fails then (x, some (.error e)) else (x', some (.ok ()))

/-- How a coroutine that hands control back in this way has come back from `send` or `throw`. -/
def outcomeOf : Input → Option StepOutcome
  | .returned value => some (.returned value)
  | .raised e => some (.raised e)
  | .yielded .none => some (.yielded none)
  | .yielded (.future f) => some (.yielded (some f))
  -- the number stands for an object that is no future
  | .yielded (.object _) => some (.yielded (some 0))
  | .factoryReturned .. | .factoryRaised _ | .closed => none

/-- The context that is copied for a coroutine. -/
def contextOf : Option Input → Option Value
  | some (.factoryReturned _ context) => some context
  | _ => none

/-- The name of the type of an object without the blocking flag. -/
def typeNameOf : Option Input → Option (Option String)
  | some (.yielded (.object typeName)) => some typeName
  | _ => none

section

variable (respond : Value → HandlerResponse) (failures : Failures)

/-- What the task `t` finds around it, during what follows on an input. The handler, the coroutine
and its `close()` take control. -/
def environment (faults : Faults) (t : TaskId) (input : Option Input) :
    Environment interface Surroundings where
  enters sect st x := match sect with
    | .finish completion => if st.finished then x.send t (completion.response respond) else x
    | _ => x
  calls c x := match c with
    | .handler | .close _ | .str _ => (x, none)
    | .send _ => ({ x with world := x.world.note (.sent t) }, none)
    | .throw _ e => ({ x with world := x.world.note (.threw t e) }, none)
    | .copyContext =>
      (x, (contextOf input).map fun context =>
        if faults.contextCopy then .error (failures.raised .copyContext) else .ok context)
    | .registerTask =>
      attempt faults.registerTask (failures.raised .registerTask) x
        { x with world := x.world.registerTask t }
    | .unregisterTask =>
      attempt faults.unregisterTask (failures.raised .unregisterTask) x
        { x with world := x.world.unregisterTask t }
    | .enterTask =>
      attempt faults.enterTask (failures.raised .enterTask) x
        { x with world := x.world.enterTask t }
    | .leaveTask =>
      attempt faults.leaveTask (failures.raised .leaveTask) x
        { x with world := x.world.leaveTask }
    | .enterContext context =>
      attempt faults.enterContext (failures.raised (.enterContext context)) x
        { x with world := x.world.enterContext context }
    | .exitContext context =>
      attempt faults.exitContext (failures.raised (.exitContext context)) x
        { x with world := x.world.exitContext }
    | .blockingFlag o =>
      (x, some (if (typeNameOf input).isSome then none else some (x.world.futures o).blocking))
    | .typeName _ => (x, some ((typeNameOf input).getD none))
    | .sameLoop o => (x, some ((x.world.futures o).loop.map (· = x.world.loop)))
    | .setBlocking o =>
      attempt faults.setBlocking (failures.raised (.setBlocking o)) x
        { x with world := x.world.setFuture o { x.world.futures o with blocking := false } }
    | .addDoneCallback o =>
      attempt faults.addDoneCallback (failures.raised (.addDoneCallback o)) x
        { x with world := x.world.addDoneCallback o t }
    | .cancelFuture o message =>
      ({ x with world := x.world.cancelAwaited t o message },
        some (if x.world.acceptsCancel o then .ok true
          else (failures.refusal o).elim (.ok false) .error))
    | .futureResult o => (x, some ((x.world.futures o).status.error.elim (.ok ()) .error))
    | .callSoon =>
      attempt faults.callSoon (failures.raised .callSoon) x
        { x with world := x.world.callSoon (.step t none) }
    | .fire callback context =>
      attempt (faults.doneCallback callback) (failures.raised (.fire callback context)) x
        { x with world := x.world.callSoon (.doneCallback t callback context) }
    | .print _ => (x, some ())
    | .removeLive => ({ x with world := removeLive t x.world }, some ())
    | .deliver completion => (x.send t (completion.response respond), some ())

/-- What a call that has taken control comes back with. -/
def replyTo (input : Input) : (c : Call) → Option (Reply c)
  | .handler => match input with
    | .factoryReturned coroutine _ => some (.ok coroutine)
    | .factoryRaised e => some (.error e)
    | _ => none
  | .send _ | .throw .. => outcomeOf input
  | .close coroutine => match input with
    | .closed => some (failures.closing coroutine)
    | _ => none
  | _ => none

end

/-- The handler has raised. -/
def failHandler (e : Exception) : Code Unit := do
  unlocked (.print e)
  finish (.raised e)

/-- There is no context for the coroutine. -/
def refuseCoroutine (coroutine : Value) (e : Exception) : Code Unit := do
  unlocked (.print e)
  printError (← unlocked (.close coroutine))
  finish .aborted

/-- The coroutine and its context are kept, and the task is shown to asyncio. -/
def enroll (coroutine context : Value) : Code Unit := do
  let _ ← locked (.start coroutine context)
  match ← unlocked .registerTask with
  | .ok _ => let _ ← locked .registered
  | .error e => unlocked (.print e)

/-- `start` once the handler has come back. -/
def afterHandler : Except Exception Value → Code Bool
  | .error e => do
    failHandler e
    return false
  | .ok coroutine => do
    match ← unlocked .copyContext with
    | .error e =>
      refuseCoroutine coroutine e
      return false
    | .ok context =>
      enroll coroutine context
      return true

/-- `step_once` once the coroutine has come back. -/
def afterStep : StepOutcome → Code Unit
  | .returned value => finish (.returned value)
  | .raised (.cancelledError message) => finish (.cancelled message)
  | .raised e => do
    unlocked (.print e)
    finish (.raised e)
  | .yielded none => rescheduleOrAbort
  | .yielded (some o) => do
    match ← parkOnFuture o with
    | .parked => applyCancelRequestedMidStep
    | .badYield e =>
      let _ ← locked (.badYield e)
      rescheduleOrAbort
    | .failed =>
      closeCoroutineQuietly
      finish .aborted

/-- The end of a turn that has entered its context. -/
def leaveTurn (context : Value) : Code Unit := do
  printError (← unlocked (.exitContext context))
  printError (← unlocked .leaveTask)

/-- `__call__` once `start` is over. -/
def afterStart (finishedFuture : Option FutureId) (st : TaskState) (started : Bool) : Code Unit :=
  if started then advance finishedFuture st else pure ()

/-- `start` is the call of the handler and what comes after it. -/
theorem start_eq : start = unlocked .handler >>= afterHandler := by
  refine congrArg (unlocked .handler >>= ·) (funext fun reply => ?_)
  cases reply with
  | error e => rfl
  | ok coroutine =>
    refine congrArg (unlocked .copyContext >>= ·) (funext fun copied => ?_)
    cases copied with
    | error e => simp only [refuseCoroutine, Prog.bind_assoc]
    | ok context =>
      refine congrArg (locked (.start coroutine context) >>= ·) (funext fun st => ?_)
      refine congrArg (unlocked .registerTask >>= ·) (funext fun registered => ?_)
      cases registered <;> rfl

/-- `step_once` is the advance of the coroutine and what comes after it. -/
theorem stepOnce_eq (coroutine : Value) (pending : Option Exception) :
    stepOnce coroutine pending =
      (pending.elim (unlocked (.send coroutine)) fun e => unlocked (.throw coroutine e)) >>=
        afterStep := by
  cases pending <;> rfl

/-- `__call__` is its first section and what comes after it. -/
theorem call_eq (finishedFuture : Option FutureId) :
    call finishedFuture = locked (.turn finishedFuture) >>= fun st =>
      if st.finished then pure ()
      else if st.coroutine.isNone then
        if st.mustCancel then finish (.cancelled st.cancelMessage)
        else start >>= afterStart finishedFuture st
      else advance finishedFuture st := rfl

/-- The state and the surroundings of a task. -/
def seen (l : Local) : TaskState × Surroundings := (l.task.state, ⟨l.world, l.task.sender⟩)

/-- The code is over when the task is as in `l'`, and returns `a`. -/
def Yields {α : Type} (E : Environment interface Surroundings) (code : Code α) (l l' : Local)
    (a : α) : Prop :=
  code.runIn E (seen l) = (seen l', .done a)

/-- What a task is in the middle of, as what its turn waits for. -/
inductive Suspended : HandlerTask → Paused interface Unit → Prop
  | idle {k : HandlerTask} : k.phase = .idle → Suspended k (.done ())
  | building {k : HandlerTask} {finishedFuture : Option FutureId} {st : TaskState} :
    k.phase = .building (takeTurn finishedFuture st) →
    Suspended k (.waiting .handler fun reply => afterHandler reply >>= afterStart finishedFuture st)
  | sent {k : HandlerTask} {coroutine context : Value} : k.phase = .stepping →
    k.state.coroutine = some coroutine →
    Suspended k (.waiting (.send coroutine) fun outcome =>
      afterStep outcome >>= fun _ => leaveTurn context)
  | threw {k : HandlerTask} {coroutine context : Value} {e : Exception} : k.phase = .stepping →
    k.state.coroutine = some coroutine →
    Suspended k (.waiting (.throw coroutine e) fun outcome =>
      afterStep outcome >>= fun _ => leaveTurn context)
  | closing {k : HandlerTask} {coroutine : Value} : k.phase = .closing false →
    Suspended k (.waiting (.close coroutine) fun reply =>
      printError reply >>= fun _ => finish .aborted)
  | closingEntered {k : HandlerTask} {coroutine context : Value} : k.phase = .closing true →
    Suspended k (.waiting (.close coroutine) fun reply =>
      printError reply >>= fun _ => finish .aborted >>= fun _ => leaveTurn context)

/-- The code is over or suspended when the task is as in `l'`. -/
def Becomes (E : Environment interface Surroundings) (code : Code Unit) (l l' : Local) : Prop :=
  (code.runIn E (seen l)).1 = seen l' ∧ Suspended l'.task (code.runIn E (seen l)).2

section

variable {α β : Type} {E : Environment interface Surroundings} {l l' l'' : Local}

/-- Code that returns at once yields. -/
theorem Yields.pure (a : α) : Yields E (Pure.pure a) l l a := rfl

/-- Code that yields and goes on with code that yields does so as a whole. -/
theorem Yields.bind {p : Code α} {f : α → Code β} {a : α} {b : β} (h : Yields E p l l' a)
    (h' : Yields E (f a) l' l'' b) : Yields E (p >>= f) l l'' b :=
  (Prog.runIn_bind_of_done h).trans h'

/-- Code that yields and goes on with code that becomes something does so as a whole. -/
theorem Yields.becomes {p : Code α} {f : α → Code Unit} {a : α} (h : Yields E p l l' a)
    (h' : Becomes E (f a) l' l'') : Becomes E (p >>= f) l l'' := by
  unfold Becomes
  rw [Prog.runIn_bind_of_done h]
  exact h'

/-- A turn that is over. -/
theorem Yields.over {p : Code Unit} (h : Yields E p l l' ()) (hidle : l'.task.phase = .idle) :
    Becomes E p l l' := by
  unfold Becomes
  rw [h]
  exact ⟨rfl, .idle hidle⟩

/-- A section that has to do with the state only. -/
theorem Yields.locked {sect : Section}
    (h : E.enters sect l.task.state ⟨l.world, l.task.sender⟩ = ⟨l.world, l.task.sender⟩) :
    Yields E (locked sect) l (setState l (sect.effect l.task.state)) l.task.state := by
  simp only [Yields, OwnLock.locked, Prog.runIn_locked, Prog.runIn_done, seen, h, setState]

/-- A call with an answer. -/
theorem Yields.unlocked {c : Call} {w : World LoopHandles} {reply : Reply c}
    (h : E.calls c ⟨l.world, l.task.sender⟩ = (⟨w, l.task.sender⟩, some reply)) :
    Yields E (unlocked c) l (setWorld l w) reply :=
  Prog.runIn_call_some h

end

end OwnLock

end Rayo
