import Rayo.Task.WakeSource

/-!
# `finish`, one access at a time

Other threads can look at a task, its loop and its response channel while the task is being
finished. `finish` is therefore split at its accesses to what they see, and the ways in which a
turn comes to it are collected. Run without interruption the stages are `finish`, so that what
is proved of the stages holds of every turn.
-/

namespace Rayo

open Asyncio

deriving instance DecidableEq for CompletionKind

/-- The response to a request that ends in this way. -/
def CompletionKind.response (respond : Value → HandlerResponse) : CompletionKind → HandlerResponse
  | .returned value => respond value
  | .raised _ | .cancelled _ | .aborted => .internalError

/-- `live_tasks.remove`. -/
def HandlerTask.removeLive (t : TaskId) (w : World LoopHandles) : World LoopHandles :=
  { w with shared := { w.shared with liveTasks := w.shared.liveTasks.filter (· ≠ t) } }

/-- What is left of a `finish`, by its next access to shared data. -/
inductive FinishStage
  | record (response : HandlerResponse) (completion : CompletionKind)
  | removeLive (response : HandlerResponse) (wasRegistered : Bool)
      (callbacks : List (Value × Value))
  | unregister (response : HandlerResponse) (wasRegistered : Bool)
      (callbacks : List (Value × Value))
  | fire (response : HandlerResponse) (callbacks : List (Value × Value))
  | take (response : HandlerResponse)
  | decrement (response : HandlerResponse)
  | deliver (response : HandlerResponse)
  deriving DecidableEq

namespace FinishStage

open HandlerTask

/-- The response that a `finish` is on the way to send. -/
def response : FinishStage → HandlerResponse
  | .record x _ | .removeLive x _ _ | .unregister x _ _ | .fire x _ | .take x | .decrement x
  | .deliver x => x

/-- The done callbacks that have been taken out of the state and not yet been handed on. -/
def callbacks : FinishStage → List (Value × Value)
  | .removeLive _ _ callbacks | .unregister _ _ callbacks | .fire _ callbacks => callbacks
  | .record .. | .take _ | .decrement _ | .deliver _ => []

/-- The next access of `HandlerTask::finish` or `ResponseChannel::send`. -/
def advance (faults : Faults) (t : TaskId) (l : Local) : FinishStage → Local × Option FinishStage
  | .record response completion =>
    let st := l.task.state
    if st.finished then (l, some (.take response))
    else
      (setState l (st.complete completion),
        some (.removeLive response st.registeredWithAsyncio st.doneCallbacks))
  | .removeLive response wasRegistered callbacks =>
    (setWorld l (HandlerTask.removeLive t l.world),
      some (.unregister response wasRegistered callbacks))
  | .unregister response wasRegistered callbacks =>
    (if wasRegistered && !faults.unregisterTask then setWorld l (l.world.unregisterTask t) else l,
      some (.fire response callbacks))
  | .fire response [] => (l, some (.take response))
  | .fire response ((callback, context) :: rest) =>
    (if faults.doneCallback callback then l
      else setWorld l (l.world.callSoon (.doneCallback t callback context)),
      some (.fire response rest))
  | .take response =>
    if l.task.sender then ({ l with task := { l.task with sender := false } },
      some (.decrement response))
    else (l, none)
  | .decrement response =>
    (setWorld l { l.world with
        shared := { l.world.shared with inFlight := l.world.shared.inFlight - 1 } },
      some (.deliver response))
  | .deliver response =>
    (setWorld l { l.world with
        shared := { l.world.shared with
          responses := (t, response) :: l.world.shared.responses } },
      none)

/-- A `finish` that runs to its end without interruption. -/
inductive Runs (faults : Faults) (t : TaskId) : Local → Option FinishStage → Local → Prop
  | finished (l : Local) : Runs faults t l none l
  | advance {l l' : Local} {stage : FinishStage} :
    Runs faults t (stage.advance faults t l).1 (stage.advance faults t l).2 l' →
      Runs faults t l (some stage) l'

variable {faults : Faults} {t : TaskId}

/-- The stages from the response on send it. -/
theorem runs_take (response : HandlerResponse) (l : Local) :
    Runs faults t l (some (.take response)) (send t response l) := by
  refine .advance ?_
  cases hsender : l.task.sender with
  | false =>
    simp only [FinishStage.advance, send, hsender, Bool.false_eq_true, if_false]
    exact .finished l
  | true =>
    simp only [FinishStage.advance, send, hsender, if_true]
    exact .advance (.advance (.finished _))

/-- The stages from the callbacks on fire them and send the response. -/
theorem runs_fire (response : HandlerResponse) (callbacks : List (Value × Value)) (l : Local) :
    Runs faults t l (some (.fire response callbacks))
      (send t response (setWorld l (fireCallbacks faults t callbacks l.world))) := by
  induction callbacks generalizing l with
  | nil => exact .advance (runs_take response l)
  | cons entry rest ih =>
    obtain ⟨callback, context⟩ := entry
    refine .advance ?_
    cases hfault : faults.doneCallback callback with
    | true =>
      simp only [FinishStage.advance, fireCallbacks, hfault, if_true]
      exact ih l
    | false =>
      simp only [FinishStage.advance, fireCallbacks, hfault, Bool.false_eq_true, if_false]
      exact ih (setWorld l (l.world.callSoon (.doneCallback t callback context)))

/-- Without interruption the stages are `HandlerTask::finish`. -/
theorem runs_record (response : HandlerResponse) (completion : CompletionKind) (l : Local) :
    Runs faults t l (some (.record response completion))
      (finish faults t response completion l) := by
  refine .advance ?_
  cases hfinished : l.task.state.finished with
  | true =>
    simp only [FinishStage.advance, finish, hfinished, if_true]
    exact runs_take response l
  | false =>
    simp only [FinishStage.advance, finish, hfinished, Bool.false_eq_true, if_false]
    refine .advance (.advance ?_)
    have hfire := @runs_fire faults t response l.task.state.doneCallbacks
      (setWorld (setState l (l.task.state.complete completion))
        (HandlerTask.unregister faults t l.task.state.registeredWithAsyncio l.world))
    simp only [FinishStage.advance]
    split <;> rename_i hunregister <;>
      simpa [HandlerTask.unregister, HandlerTask.removeLive, hunregister, setWorld, setState]
        using hfire

/-- Nothing else can come of it. -/
theorem Runs.unique {l l' l'' : Local} {stage : Option FinishStage} (h : Runs faults t l stage l')
    (h' : Runs faults t l stage l'') : l' = l'' := by
  induction h with
  | finished l =>
    cases h'
    rfl
  | advance _ ih =>
    cases h' with
    | advance hrest => exact ih hrest

end FinishStage

namespace HandlerTask

/-- The `finish` at the end of a turn. -/
structure TurnEnding where
  response : HandlerResponse
  completion : CompletionKind
  /-- The task and its context have been entered and are to be left afterwards. -/
  entered : Bool

/-- What the turn does after its `finish`. -/
def endTurn (faults : Faults) (entered : Bool) (l : Local) : Local :=
  if entered then leave faults l else setPhase l .idle

/-- No Python code that the task has called is running after that. -/
@[simp] theorem endTurn_phase {faults : Faults} {entered : Bool} {l : Local} :
    (endTurn faults entered l).task.phase = .idle := by
  unfold endTurn
  split <;> rfl

/-- How a coroutine that has raised ends its task. -/
def endingOfError (e : Exception) : CompletionKind :=
  match e with
  | .cancelledError message => .cancelled message
  | e => .raised e

variable (respond : Value → HandlerResponse)

/-- The ways in which Python code that hands control back ends the task. -/
def endingOfInput : Phase → Input → Option TurnEnding
  | .building _, .factoryRaised e => some ⟨.internalError, .raised e, false⟩
  | .stepping, .returned value => some ⟨respond value, .returned value, true⟩
  | .stepping, .raised e => some ⟨.internalError, endingOfError e, true⟩
  | .closing entered, .closed => some ⟨.internalError, .aborted, entered⟩
  | _, _ => none

/-- A handle finds the task cancelled before its coroutine was built. -/
def cancelledUnstarted (st : TaskState) : Bool :=
  !st.finished && st.coroutine.isNone && st.mustCancel

variable {respond} {faults : Faults} {t : TaskId} {l : Local}

/-- An idle task stays idle. -/
theorem setPhase_idle (hphase : l.task.phase = .idle) : setPhase l .idle = l := by
  obtain ⟨w, k⟩ := l
  simp only at hphase
  simp [setPhase, ← hphase]

private theorem finish_setPhase (response : HandlerResponse) (completion : CompletionKind)
    (phase : Phase) :
    finish faults t response completion (setPhase l phase) =
      setPhase (finish faults t response completion l) phase := by
  cases hfinished : l.task.state.finished <;> cases hsender : l.task.sender <;>
    simp [finish, send, hfinished, hsender, setPhase, setState, setWorld]

/-- A turn that ends is the `finish` it comes to, and what follows it. -/
theorem resume_of_ending {input : Input} {ending : TurnEnding}
    (h : endingOfInput respond l.task.phase input = some ending) :
    resume respond faults t input l = endTurn faults ending.entered
      (finish faults t ending.response ending.completion l) := by
  cases hphase : l.task.phase <;> cases input <;>
    simp only [endingOfInput, hphase, Option.some.injEq, reduceCtorEq] at h
  case building.factoryRaised =>
    subst h
    simp [resume, hphase, endTurn, finish_setPhase]
  case stepping.returned =>
    subst h
    simp [resume, hphase, endTurn]
  case stepping.raised e =>
    subst h
    cases e <;> simp [resume, hphase, endTurn, raiseStep, endingOfError]
  case closing.closed entered =>
    subst h
    cases entered <;> simp [resume, hphase, endTurn, finish_setPhase]

/-- A turn that finds its task cancelled before the first step is one `finish`. -/
theorem call_of_cancelledUnstarted {finishedFuture : Option FutureId}
    (h : cancelledUnstarted l.task.state = true) (hphase : l.task.phase = .idle) :
    call faults t finishedFuture l = endTurn faults false
      (finish faults t .internalError (.cancelled l.task.state.cancelMessage)
        (setState l (turnTaken l.task.state))) := by
  simp only [cancelledUnstarted, Bool.and_eq_true, Bool.not_eq_true'] at h
  obtain ⟨⟨hunfinished, hunbuilt⟩, hcancel⟩ := h
  rw [endTurn, if_neg (by simp), ← finish_setPhase, setPhase_idle (by simpa using hphase)]
  simp [call, takeTurn, hunfinished, hunbuilt, hcancel]

end HandlerTask

namespace TaskState

/-- What an accessor raises. -/
inductive AccessorError
  | invalidState (text : String)
  | raised (e : Exception)
  deriving DecidableEq

/-- The error of an accessor of a task that is not done. -/
def stillRunning : AccessorError := .invalidState "this request's handler is still running"

/-- `HandlerTask::done`. -/
def done (st : TaskState) : Bool := st.finished

/-- `HandlerTask::cancelled`. -/
def cancelled (st : TaskState) : Bool := st.finished && st.finishedCancelled

/-- `HandlerTask::result`, where `pyNone` is the object `None`. -/
def result (pyNone : Value) (st : TaskState) : Except AccessorError Value :=
  if !st.finished then .error stillRunning
  else if st.finishedCancelled then .error (.raised (.cancelledError st.cancelledMessage))
  else match st.storedException with
    | some e => .error (.raised e)
    | none => .ok (st.storedResult.getD pyNone)

/-- `HandlerTask::exception`. -/
def exception (st : TaskState) : Except AccessorError (Option Exception) :=
  if !st.finished then .error stillRunning
  else if st.finishedCancelled then .error (.raised (.cancelledError st.cancelledMessage))
  else .ok st.storedException

/-- The fields that the accessors read. -/
def verdict (st : TaskState) :
    Bool × Bool × Option Value × Option Value × Option Exception :=
  (st.finished, st.finishedCancelled, st.cancelledMessage, st.storedResult, st.storedException)

/-- What all four accessors report. -/
def report (pyNone : Value) (st : TaskState) :
    Bool × Bool × Except AccessorError Value × Except AccessorError (Option Exception) :=
  (st.done, st.cancelled, st.result pyNone, st.exception)

/-- The accessors read nothing else. -/
theorem report_congr {pyNone : Value} {st st' : TaskState} (h : st'.verdict = st.verdict) :
    st'.report pyNone = st.report pyNone := by
  simp only [verdict, Prod.mk.injEq] at h
  obtain ⟨hfinished, hcancelled, hmessage, hresult, hexception⟩ := h
  simp only [report, done, cancelled, result, exception, hfinished, hcancelled, hmessage, hresult,
    hexception]

/-- The fields of a task that has not been finished. -/
def noVerdict : Bool × Bool × Option Value × Option Value × Option Exception :=
  (false, false, none, none, none)

/-- The fields of a task that was finished in this way. -/
def verdictOf : CompletionKind →
    Bool × Bool × Option Value × Option Value × Option Exception
  | .returned value => (true, false, none, some value, none)
  | .raised e => (true, false, none, none, some e)
  | .cancelled message => (true, true, message, none, none)
  | .aborted => (true, false, none, none, none)

/-- Finishing a task for the first time gives it its verdict. -/
theorem verdict_complete {st : TaskState} (h : st.verdict = noVerdict)
    (completion : CompletionKind) : (st.complete completion).verdict = verdictOf completion := by
  simp only [verdict, noVerdict, Prod.mk.injEq] at h
  obtain ⟨-, hcancelled, hmessage, hresult, hexception⟩ := h
  cases completion <;> simp [complete, verdict, verdictOf, *]

end TaskState

end Rayo
