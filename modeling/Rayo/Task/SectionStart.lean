import Rayo.Asyncio.Agreement
import Rayo.Task.ContextBracket
import Rayo.Task.SectionEnvironment

/-!
# The beginning of a turn, section by section

The sections and calls of `finish`, and those of `__call__` up to the call of the handler, of the
coroutine or of its `close()`, do what `HandlerTask` takes as one step.
-/

namespace Rayo

open Asyncio HandlerTask Guarded

namespace OwnLock

variable {respond : Value → HandlerResponse} {failures : Failures} {faults : Faults} {t : TaskId}
  {input : Option Input} {l : Local}

/-- A printed error changes nothing. -/
theorem yields_print (e : Exception) :
    Yields (environment respond failures faults t input) (unlocked (.print e)) l l () := rfl

/-- What is printed of a reply changes nothing. -/
theorem yields_printError (reply : Except Exception Unit) :
    Yields (environment respond failures faults t input) (printError reply) l l () := by
  cases reply <;> rfl

/-- The calls for the callbacks of a task are what the turn does with them. -/
theorem yields_fireCallbacks (callbacks : List (Value × Value)) (l : Local) :
    Yields (environment respond failures faults t input) (fireCallbacks callbacks) l
      (setWorld l (HandlerTask.fireCallbacks faults t callbacks l.world)) () := by
  induction callbacks generalizing l with
  | nil => rfl
  | cons entry rest ih =>
    obtain ⟨callback, context⟩ := entry
    cases hfault : faults.doneCallback callback with
    | true =>
      have hcall : Yields (environment respond failures faults t input)
          (unlocked (.fire callback context)) l l (.error (failures.raised (.fire callback context))) :=
        Yields.unlocked (by simp [environment, attempt, hfault])
      simp only [HandlerTask.fireCallbacks, hfault, if_true]
      exact hcall.bind ((yields_printError _).bind (ih l))
    | false =>
      have hcall : Yields (environment respond failures faults t input)
          (unlocked (.fire callback context)) l
          (setWorld l (l.world.callSoon (.doneCallback t callback context))) (.ok ()) :=
        Yields.unlocked (by simp [environment, attempt, hfault])
      simp only [HandlerTask.fireCallbacks, hfault]
      exact hcall.bind ((yields_printError _).bind (ih _))

/-- Unregistering a task, if it was registered. -/
theorem yields_unregister (wasRegistered : Bool) (l : Local) :
    Yields (environment respond failures faults t input)
      (if wasRegistered then unlocked .unregisterTask >>= printError else pure ()) l
      (setWorld l (if wasRegistered && !faults.unregisterTask then l.world.unregisterTask t
        else l.world)) () := by
  cases wasRegistered with
  | false => rfl
  | true =>
    cases hfault : faults.unregisterTask with
    | true =>
      have hcall : Yields (environment respond failures faults t input) (unlocked .unregisterTask) l l
          (.error (failures.raised .unregisterTask)) :=
        Yields.unlocked (by simp [environment, attempt, hfault])
      exact hcall.bind (yields_printError _)
    | false =>
      have hcall : Yields (environment respond failures faults t input) (unlocked .unregisterTask) l
          (setWorld l (l.world.unregisterTask t)) (.ok ()) :=
        Yields.unlocked (by simp [environment, attempt, hfault])
      exact hcall.bind (yields_printError _)

/-- `finish` part by part. -/
theorem finish_eq (completion : CompletionKind) :
    finish completion = locked (.finish completion) >>= fun st =>
      if st.finished then pure ()
      else unlocked .removeLive >>= fun _ =>
        (if st.registeredWithAsyncio then unlocked .unregisterTask >>= printError else pure ()) >>=
          fun _ => fireCallbacks st.doneCallbacks >>= fun _ => unlocked (.deliver completion) := by
  unfold finish
  simp only [locked_bind]
  congr 1
  funext st
  cases st.finished <;> cases st.registeredWithAsyncio <;> rfl

/-- The response is sent. -/
theorem yields_deliver (completion : CompletionKind) (l : Local) :
    Yields (environment respond failures faults t input) (unlocked (.deliver completion)) l
      (send t (completion.response respond) l) () := by
  cases hsender : l.task.sender <;>
    simp [Yields, OwnLock.unlocked, seen, environment, hsender, send, Surroundings.send,
      Prog.runIn]

/-- **The sections and calls of `finish` are `HandlerTask::finish`.** -/
theorem yields_finish (completion : CompletionKind) (l : Local) :
    Yields (environment respond failures faults t input) (finish completion) l
      (HandlerTask.finish faults t (completion.response respond) completion l) () := by
  rw [finish_eq]
  cases hfinished : l.task.state.finished with
  | true =>
    have hsection : Yields (environment respond failures faults t input)
        (locked (.finish completion)) l (send t (completion.response respond) l) l.task.state := by
      cases hsender : l.task.sender <;>
        simp [Yields, OwnLock.locked, seen, environment, Section.effect, hfinished, hsender, send,
          Surroundings.send]
    simp only [HandlerTask.finish, hfinished, if_true]
    exact hsection.bind (by simpa [hfinished] using Yields.pure ())
  | false =>
    have hsection : Yields (environment respond failures faults t input)
        (locked (.finish completion)) l (setState l (l.task.state.complete completion))
        l.task.state := by
      simp [Yields, OwnLock.locked, seen, environment, Section.effect, hfinished, setState]
    have hremove (l : Local) : Yields (environment respond failures faults t input)
        (unlocked .removeLive) l (setWorld l (removeLive t l.world)) () := Yields.unlocked rfl
    simp only [HandlerTask.finish, hfinished, Bool.false_eq_true, if_false]
    refine hsection.bind ?_
    simp only [hfinished, Bool.false_eq_true, if_false]
    exact (hremove _).bind <| (yields_unregister l.task.state.registeredWithAsyncio _).bind <|
      (yields_fireCallbacks l.task.state.doneCallbacks _).bind (yields_deliver completion _)

/-- Code that hands control to others. -/
theorem Becomes.waiting {E : Environment interface Surroundings} {l l' : Local} {c : Call}
    {rest : Reply c → Code Unit} {w : World LoopHandles}
    (h : E.calls c ⟨l.world, l.task.sender⟩ = (⟨w, l.task.sender⟩, none))
    (hseen : seen l' = seen (setWorld l w)) (hsuspended : Suspended l'.task (.waiting c rest)) :
    Becomes E (unlocked c >>= rest) l l' := by
  have hrun : (unlocked c >>= rest).runIn E (seen l) = (seen (setWorld l w), .waiting c rest) :=
    Prog.runIn_call_none h
  unfold Becomes
  rw [hrun]
  exact ⟨hseen.symm, hsuspended⟩

/-- The code that closes a coroutine waits for its `close()`. -/
theorem runIn_closeCoroutineQuietly {coroutine : Value}
    (hcoroutine : l.task.state.coroutine = some coroutine) :
    closeCoroutineQuietly.runIn (environment respond failures faults t input) (seen l) =
      (seen l, .waiting (.close coroutine) printError) := by
  have hread : closeCoroutineQuietly.runIn (environment respond failures faults t input) (seen l) =
      (unlocked (.close coroutine) >>= printError).runIn
        (environment respond failures faults t input) (seen l) := by
    simp only [closeCoroutineQuietly, locked_bind, Prog.runIn_locked, seen, hcoroutine]
    rfl
  exact hread

/-- A task that cannot go on has its coroutine closed first. -/
theorem becomes_abort {coroutine : Value} (hcoroutine : l.task.state.coroutine = some coroutine) :
    Becomes (environment respond failures faults t input)
      (closeCoroutineQuietly >>= fun _ => finish .aborted) l
      (HandlerTask.closeCoroutineQuietly false l) := by
  unfold Becomes
  rw [Prog.runIn_bind_of_waiting (runIn_closeCoroutineQuietly hcoroutine)]
  exact ⟨rfl, .closing rfl⟩

/-- An abort inside the context is what the turn does. -/
theorem becomes_abort_entered {coroutine : Value} (context : Value)
    (hcoroutine : l.task.state.coroutine = some coroutine) :
    Becomes (environment respond failures faults t input)
      ((closeCoroutineQuietly >>= fun _ => finish .aborted) >>= fun _ => leaveTurn context) l
      (HandlerTask.closeCoroutineQuietly true l) := by
  unfold Becomes
  rw [Prog.bind_assoc, Prog.runIn_bind_of_waiting (runIn_closeCoroutineQuietly hcoroutine)]
  exact ⟨rfl, .closingEntered rfl⟩

/-- A pending cancellation overrides what the awaited future and a protocol error come to. -/
def overridden (st : TaskState) (woken : Option Exception) : Option Exception :=
  if st.mustCancel && !woken.any Exception.isCancelled then some (.cancelledError st.cancelMessage)
  else woken

/-- What a pending cancellation overrides is known without a call. -/
theorem yields_overridden (st : TaskState) (woken : Option Exception) (l : Local) :
    Yields (environment respond failures faults t input)
      (if st.mustCancel && !woken.any Exception.isCancelled then
        pure (some (.cancelledError st.cancelMessage))
      else pure woken) l l (overridden st woken) := by
  unfold overridden
  split <;> exact .pure _

/-- What a step is to throw is what the turn is to throw. -/
theorem yields_pendingThrow (finishedFuture : Option FutureId) (st : TaskState) (l : Local) :
    Yields (environment respond failures faults t input) (pendingThrow finishedFuture st) l l
      (HandlerTask.pendingThrow l.world (takeTurn finishedFuture st)) := by
  cases finishedFuture with
  | none => exact yields_overridden st st.deferredThrow l
  | some f =>
    cases herror : (l.world.futures f).status.error with
    | none =>
      have hcall : Yields (environment respond failures faults t input) (unlocked (.futureResult f))
          l l (.ok ()) := Yields.unlocked (by simp [environment, herror])
      have hthrow : HandlerTask.pendingThrow l.world (takeTurn (some f) st) =
          overridden st st.deferredThrow := by
        simp [HandlerTask.pendingThrow, takeTurn, herror, overridden]
      rw [hthrow]
      exact hcall.bind (yields_overridden st st.deferredThrow l)
    | some e =>
      have hcall : Yields (environment respond failures faults t input) (unlocked (.futureResult f))
          l l (.error e) := Yields.unlocked (by simp [environment, herror])
      have hthrow : HandlerTask.pendingThrow l.world (takeTurn (some f) st) =
          overridden st (some e) := by
        simp [HandlerTask.pendingThrow, takeTurn, herror, overridden]
      rw [hthrow]
      exact hcall.bind (yields_overridden st (some e) l)

/-- The coroutine gets control. -/
theorem becomes_stepOnce {coroutine : Value} (context : Value) (pending : Option Exception)
    (hcoroutine : l.task.state.coroutine = some coroutine) :
    Becomes (environment respond failures faults t input)
      (stepOnce coroutine pending >>= fun _ => leaveTurn context) l
      (stepCoroutine t pending l) := by
  rw [stepOnce_eq, Prog.bind_assoc]
  cases pending with
  | none => exact .waiting rfl rfl (.sent rfl hcoroutine)
  | some e => exact .waiting rfl rfl (.threw rfl hcoroutine)

/-- `enter_task` and what follows it. -/
theorem becomes_advance {coroutine context : Value} (finishedFuture : Option FutureId)
    (st : TaskState) (hcoroutine : l.task.state.coroutine = some coroutine)
    (hcontext : l.task.state.context = some context) :
    Becomes (environment respond failures faults t input) (advance finishedFuture st) l
      (HandlerTask.advance faults t (takeTurn finishedFuture st) l) := by
  unfold advance
  refine (yields_pendingThrow finishedFuture st l).becomes ?_
  refine (Yields.locked rfl).becomes ?_
  simp only [hcoroutine, hcontext, HandlerTask.advance]
  cases henter : faults.enterTask with
  | true =>
    have hcall : Yields (environment respond failures faults t input) (unlocked .enterTask) l l
        (.error (failures.raised .enterTask)) :=
      Yields.unlocked (by simp [environment, attempt, henter])
    exact hcall.becomes ((yields_print _).becomes (becomes_abort hcoroutine))
  | false =>
    have hcall : Yields (environment respond failures faults t input) (unlocked .enterTask) l
        (setWorld l (l.world.enterTask t)) (.ok ()) :=
      Yields.unlocked (by simp [environment, attempt, henter])
    refine hcall.becomes ?_
    cases hcontextFault : faults.enterContext with
    | true =>
      have hfails : Yields (environment respond failures faults t input)
          (unlocked (.enterContext context)) (setWorld l (l.world.enterTask t))
          (setWorld l (l.world.enterTask t)) (.error (failures.raised (.enterContext context))) :=
        Yields.unlocked (by simp [environment, attempt, hcontextFault])
      refine hfails.becomes ((yields_print _).becomes ?_)
      cases hleave : faults.leaveTask with
      | true =>
        have hleft : Yields (environment respond failures faults t input) (unlocked .leaveTask)
            (setWorld l (l.world.enterTask t)) (setWorld l (l.world.enterTask t))
            (.error (failures.raised .leaveTask)) :=
          Yields.unlocked (by simp [environment, attempt, hleave])
        exact hleft.becomes (becomes_abort hcoroutine)
      | false =>
        have hleft : Yields (environment respond failures faults t input) (unlocked .leaveTask)
            (setWorld l (l.world.enterTask t)) (setWorld l (l.world.enterTask t).leaveTask)
            (.ok ()) :=
          Yields.unlocked (by simp [environment, attempt, hleave])
        exact hleft.becomes (becomes_abort hcoroutine)
    | false =>
      have hentered : Yields (environment respond failures faults t input)
          (unlocked (.enterContext context)) (setWorld l (l.world.enterTask t))
          (setWorld l ((l.world.enterTask t).enterContext context)) (.ok ()) :=
        Yields.unlocked (by simp [environment, attempt, hcontextFault])
      exact hentered.becomes (becomes_stepOnce context _ hcoroutine)

/-- Coroutine and context are set together. -/
def Paired (st : TaskState) : Prop := st.coroutine.isSome = true → st.context.isSome = true

/-- **One section** sets coroutine and context together. -/
theorem Paired.effect {st : TaskState} (h : Paired st) (sect : Section) :
    Paired (sect.effect st) := by
  cases sect with
  | start coroutine context => exact fun _ => rfl
  | finish completion =>
    simp only [Section.effect]
    split
    · exact h
    · cases completion <;> exact h
  | turn | requestCancel | deferCancel | addDoneCallback =>
    simp only [Section.effect]
    split <;> exact h
  | _ => exact h

/-- The section with which a turn begins. -/
theorem yields_turnSection (finishedFuture : Option FutureId) (l : Local) :
    Yields (environment respond failures faults t input) (locked (.turn finishedFuture)) l
      (if l.task.state.finished then l else setState l (turnTaken l.task.state))
      l.task.state := by
  cases hfinished : l.task.state.finished <;>
    simp [Yields, OwnLock.locked, seen, environment, Section.effect, hfinished, setState]

/-- **The sections and calls of `__call__` are the beginning of a turn.** -/
theorem becomes_call (finishedFuture : Option FutureId) (hidle : l.task.phase = .idle)
    (hpaired : Paired l.task.state) :
    Becomes (environment respond failures faults t input) (call finishedFuture) l
      (HandlerTask.call faults t finishedFuture l) := by
  rw [call_eq]
  refine (yields_turnSection finishedFuture l).becomes ?_
  cases hfinished : l.task.state.finished with
  | true =>
    have hturn : HandlerTask.call faults t finishedFuture l = l := by
      simp [HandlerTask.call, hfinished]
    rw [hturn]
    exact (Yields.pure ()).over hidle
  | false =>
    simp only [Bool.false_eq_true, if_false]
    let taken : Local := setState l (turnTaken l.task.state)
    cases hcoroutine : l.task.state.coroutine with
    | none =>
      cases hcancel : l.task.state.mustCancel with
      | true =>
        have hturn : HandlerTask.call faults t finishedFuture l =
            HandlerTask.finish faults t .internalError (.cancelled l.task.state.cancelMessage)
              taken := by
          simp [HandlerTask.call, hfinished, hcoroutine, takeTurn, hcancel, taken]
        rw [hturn]
        exact (yields_finish (.cancelled l.task.state.cancelMessage) taken).over
          (by simp [taken, hidle])
      | false =>
        have hturn : HandlerTask.call faults t finishedFuture l =
            { taken with task := { taken.task with
                phase := .building (takeTurn finishedFuture l.task.state)
                factoryCalls := l.task.factoryCalls + 1 } } := by
          simp [HandlerTask.call, hfinished, hcoroutine, takeTurn, hcancel, taken]
        rw [hturn]
        simp only [Option.isNone_none, if_true, start_eq, Prog.bind_assoc, Bool.false_eq_true,
          if_false]
        exact .waiting rfl rfl (.building rfl)
    | some coroutine =>
      obtain ⟨context, hcontext⟩ := Option.isSome_iff_exists.mp (hpaired (by simp [hcoroutine]))
      have hturn : HandlerTask.call faults t finishedFuture l =
          HandlerTask.advance faults t (takeTurn finishedFuture l.task.state) taken := by
        simp [HandlerTask.call, hfinished, hcoroutine, taken]
      rw [hturn]
      exact becomes_advance finishedFuture l.task.state hcoroutine hcontext

end OwnLock

end Rayo
