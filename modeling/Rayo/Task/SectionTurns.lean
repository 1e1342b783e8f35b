import Rayo.Task.SectionStart

/-!
# Turns, section by section

What follows when the handler, the coroutine or its `close()` has come back is a step of
`HandlerTask`, too. As a driver the methods as locked sections and calls agree with the turns, so
that what is proved of turns holds of the methods as they are split by their lock and their calls.
-/

namespace Rayo

open Asyncio HandlerTask Guarded

namespace OwnLock

variable {respond : Value → HandlerResponse} {failures : Failures} {faults : Faults} {t : TaskId}
  {input : Option Input} {l : Local}

/-- The context and the task are left, whether or not that fails. -/
theorem yields_leaveTurn (context : Value) (l : Local) :
    Yields (environment respond failures faults t input) (leaveTurn context) l
      (HandlerTask.leave faults l) () := by
  have hexit (l : Local) : Yields (environment respond failures faults t input)
      (unlocked (.exitContext context) >>= printError) l
      (if faults.exitContext then l else setWorld l l.world.exitContext) () := by
    cases hfault : faults.exitContext with
    | true =>
      have hcall : Yields (environment respond failures faults t input)
          (unlocked (.exitContext context)) l l (.error (failures.raised (.exitContext context))) :=
        Yields.unlocked (by simp [environment, attempt, hfault])
      exact hcall.bind (yields_printError _)
    | false =>
      have hcall : Yields (environment respond failures faults t input)
          (unlocked (.exitContext context)) l (setWorld l l.world.exitContext) (.ok ()) :=
        Yields.unlocked (by simp [environment, attempt, hfault])
      exact hcall.bind (yields_printError _)
  have hleave (l : Local) : Yields (environment respond failures faults t input)
      (unlocked .leaveTask >>= printError) l
      (setPhase (if faults.leaveTask then l else setWorld l l.world.leaveTask) .idle) () := by
    cases hfault : faults.leaveTask with
    | true =>
      have hcall : Yields (environment respond failures faults t input) (unlocked .leaveTask) l l
          (.error (failures.raised .leaveTask)) :=
        Yields.unlocked (by simp [environment, attempt, hfault])
      exact hcall.bind (yields_printError _)
    | false =>
      have hcall : Yields (environment respond failures faults t input) (unlocked .leaveTask) l
          (setWorld l l.world.leaveTask) (.ok ()) :=
        Yields.unlocked (by simp [environment, attempt, hfault])
      exact hcall.bind (yields_printError _)
  exact (hexit l).bind (hleave _)

/-- A turn that leaves its context at the end. -/
theorem Yields.leaves {code : Code Unit} {l' : Local} (context : Value)
    (h : Yields (environment respond failures faults t input) code l l' ()) :
    Becomes (environment respond failures faults t input) (code >>= fun _ => leaveTurn context) l
      (HandlerTask.leave faults l') :=
  (h.bind (yields_leaveTurn context l')).over (by simp [HandlerTask.leave])

/-- A task that was finished in `start` takes no turn. -/
theorem bind_not_started (code : Code Unit) (finishedFuture : Option FutureId) (st : TaskState) :
    ((do code; return false) >>= afterStart finishedFuture st) = code := by
  rw [Prog.bind_assoc]
  exact Prog.bind_done code

/-- Asyncio's registry may refuse the task. -/
theorem yields_enroll (coroutine context : Value) {l l' : Local}
    (hl' : l' = setState l
      { l.task.state with coroutine := some coroutine, context := some context }) :
    Yields (environment respond failures faults t input) (enroll coroutine context) l
      (if faults.registerTask then l'
        else setState (setWorld l' (l'.world.registerTask t))
          { l'.task.state with registeredWithAsyncio := true }) () := by
  have hsection : Yields (environment respond failures faults t input)
      (locked (.start coroutine context)) l l' l.task.state := hl' ▸ Yields.locked rfl
  refine hsection.bind ?_
  cases hregister : faults.registerTask with
  | true =>
    have hcall : Yields (environment respond failures faults t input) (unlocked .registerTask) l' l'
        (.error (failures.raised .registerTask)) :=
      Yields.unlocked (by simp [environment, attempt, hregister])
    exact hcall.bind (yields_print _)
  | false =>
    have hcall : Yields (environment respond failures faults t input) (unlocked .registerTask) l'
        (setWorld l' (l'.world.registerTask t)) (.ok ()) :=
      Yields.unlocked (by simp [environment, attempt, hregister])
    exact hcall.bind ((Yields.locked rfl).bind (.pure ()))

/-- The handler has come back with a coroutine. -/
theorem becomes_afterHandler (finishedFuture : Option FutureId) (st : TaskState)
    (coroutine : Value) {context : Value} (hinput : contextOf input = some context) :
    Becomes (environment respond failures faults t input)
      (afterHandler (.ok coroutine) >>= afterStart finishedFuture st) l
      (HandlerTask.start faults t (takeTurn finishedFuture st) coroutine context l) := by
  unfold HandlerTask.start afterHandler
  rw [Prog.bind_assoc]
  cases hcopy : faults.contextCopy with
  | true =>
    have hcall : Yields (environment respond failures faults t input) (unlocked .copyContext) l l
        (.error (failures.raised .copyContext)) :=
      Yields.unlocked (by simp [environment, hinput, hcopy])
    refine hcall.becomes ?_
    simp only [bind_not_started, refuseCoroutine]
    exact (yields_print _).becomes (.waiting rfl rfl (.closing rfl))
  | false =>
    have hcall : Yields (environment respond failures faults t input) (unlocked .copyContext) l l
        (.ok context) :=
      Yields.unlocked (by simp [environment, hinput, hcopy])
    refine hcall.becomes ?_
    simp only [Prog.bind_assoc]
    refine (yields_enroll coroutine context rfl).becomes ?_
    cases hregister : faults.registerTask <;> exact becomes_advance finishedFuture st rfl rfl

/-- The handler has raised. -/
theorem becomes_afterHandler_error (finishedFuture : Option FutureId) (st : TaskState)
    (e : Exception) :
    Becomes (environment respond failures faults t input)
      (afterHandler (.error e) >>= afterStart finishedFuture st) l
      (HandlerTask.finish faults t .internalError (.raised e) (setPhase l .idle)) := by
  have hcode : (afterHandler (.error e) >>= afterStart finishedFuture st) = failHandler e :=
    bind_not_started (failHandler e) finishedFuture st
  rw [hcode]
  have hfinish : Yields (environment respond failures faults t input) (failHandler e) l
      (HandlerTask.finish faults t .internalError (.raised e) (setPhase l .idle)) () :=
    (yields_print e).bind (yields_finish (.raised e) (setPhase l .idle))
  exact hfinish.over (by simp)

/-- The next turn is queued, or the coroutine has to be closed. -/
theorem becomes_rescheduleOrAbort {coroutine : Value} (context : Value)
    (hcoroutine : l.task.state.coroutine = some coroutine) :
    Becomes (environment respond failures faults t input)
      (rescheduleOrAbort >>= fun _ => leaveTurn context) l
      (HandlerTask.rescheduleOrAbort faults t l) := by
  unfold HandlerTask.rescheduleOrAbort
  cases hsoon : faults.callSoon with
  | true =>
    have hcall : Yields (environment respond failures faults t input) (unlocked .callSoon) l l
        (.error (failures.raised .callSoon)) :=
      Yields.unlocked (by simp [environment, attempt, hsoon])
    rw [rescheduleOrAbort, Prog.bind_assoc]
    refine hcall.becomes ?_
    simp only [if_true]
    exact (yields_print _).becomes (becomes_abort_entered context hcoroutine)
  | false =>
    have hcall : Yields (environment respond failures faults t input) (unlocked .callSoon) l
        (setWorld l (l.world.callSoon (.step t none))) (.ok ()) :=
      Yields.unlocked (by simp [environment, attempt, hsoon])
    have hqueued : Yields (environment respond failures faults t input) rescheduleOrAbort l
        (setWorld l (l.world.callSoon (.step t none))) () := hcall.bind (.pure ())
    exact hqueued.leaves context

/-- A bad yield becomes what the turn does with it. -/
theorem becomes_badYield {coroutine : Value} (context : Value) (e : Exception)
    (hcoroutine : l.task.state.coroutine = some coroutine) :
    Becomes (environment respond failures faults t input)
      ((do let _ ← locked (.badYield e); rescheduleOrAbort) >>= fun _ => leaveTurn context) l
      (HandlerTask.rescheduleOrAbort faults t
        (setState l { l.task.state with deferredThrow := some e })) := by
  have hsection : Yields (environment respond failures faults t input) (locked (.badYield e)) l
      (setState l { l.task.state with deferredThrow := some e }) l.task.state := Yields.locked rfl
  rw [Prog.bind_assoc]
  exact hsection.becomes (becomes_rescheduleOrAbort context hcoroutine)

/-- An object without the blocking flag. -/
theorem yields_parkOnObject {typeName : Option String} (o : FutureId)
    (hinput : typeNameOf input = some typeName) (l : Local) :
    Yields (environment respond failures faults t input) (parkOnFuture o) l l
      (.badYield (.protocolError (unknownYield typeName))) := by
  have hflag : Yields (environment respond failures faults t input) (unlocked (.blockingFlag o)) l l
      none := Yields.unlocked (by simp [environment, hinput])
  have hname : Yields (environment respond failures faults t input) (unlocked (.typeName o)) l l
      typeName := Yields.unlocked (by simp [environment, hinput])
  exact hflag.bind (hname.bind (.pure _))

/-- The future takes the task as a callback, unless that fails. -/
def parkNow (f : FutureId) : Code ParkOutcome := do
  match ← unlocked (.setBlocking f) with
  | .error e =>
    unlocked (.print e)
    return .failed
  | .ok _ =>
    let _ ← locked (.park f)
    match ← unlocked (.addDoneCallback f) with
    | .error e =>
      unlocked (.print e)
      let _ ← locked (.unpark f)
      return .failed
    | .ok _ => return .parked

/-- A future of the loop whose blocking flag is set. -/
theorem yields_parkNow (f : FutureId) (l : Local) (hblocking : (l.world.futures f).blocking = true)
    (hloop : (l.world.futures f).loop.any (· ≠ l.world.loop) = false) :
    Yields (environment respond failures faults t input) (parkNow f) l
      (HandlerTask.parkOnFuture faults t f l).1 (HandlerTask.parkOnFuture faults t f l).2 := by
  simp only [HandlerTask.parkOnFuture, hblocking, hloop, Bool.not_true, Bool.false_eq_true, if_false]
  cases hset : faults.setBlocking with
  | true =>
    have hcall : Yields (environment respond failures faults t input) (unlocked (.setBlocking f)) l l
        (.error (failures.raised (.setBlocking f))) :=
      Yields.unlocked (by simp [environment, attempt, hset])
    exact hcall.bind ((yields_print _).bind (.pure _))
  | false =>
    let cleared : Local := setWorld l
      (l.world.setFuture f { l.world.futures f with blocking := false })
    have hcall : Yields (environment respond failures faults t input) (unlocked (.setBlocking f)) l
        cleared (.ok ()) := Yields.unlocked (by simp [environment, attempt, hset])
    have hparked : Yields (environment respond failures faults t input) (locked (.park f)) cleared
        (setState cleared { l.task.state with waitingOn := some f }) l.task.state :=
      Yields.locked rfl
    cases hadd : faults.addDoneCallback with
    | true =>
      have hfails : Yields (environment respond failures faults t input)
          (unlocked (.addDoneCallback f)) (setState cleared { l.task.state with waitingOn := some f })
          (setState cleared { l.task.state with waitingOn := some f })
          (.error (failures.raised (.addDoneCallback f))) :=
        Yields.unlocked (by simp [environment, attempt, hadd])
      have hunparked : Yields (environment respond failures faults t input) (locked (.unpark f))
          (setState cleared { l.task.state with waitingOn := some f })
          (setState cleared { l.task.state with waitingOn := none }) _ := Yields.locked rfl
      exact hcall.bind (hparked.bind (hfails.bind ((yields_print _).bind
        (hunparked.bind (.pure _)))))
    | false =>
      have hadded : Yields (environment respond failures faults t input)
          (unlocked (.addDoneCallback f)) (setState cleared { l.task.state with waitingOn := some f })
          (setWorld (setState cleared { l.task.state with waitingOn := some f })
            (cleared.world.addDoneCallback f t)) (.ok ()) :=
        Yields.unlocked (by simp [environment, attempt, hadd])
      exact hcall.bind (hparked.bind (hadded.bind (.pure _)))

/-- A future. -/
theorem yields_parkOnFuture (f : FutureId) (hinput : typeNameOf input = none) (l : Local) :
    Yields (environment respond failures faults t input) (parkOnFuture f) l
      (HandlerTask.parkOnFuture faults t f l).1 (HandlerTask.parkOnFuture faults t f l).2 := by
  have hflag : Yields (environment respond failures faults t input) (unlocked (.blockingFlag f)) l l
      (some (l.world.futures f).blocking) := Yields.unlocked (by simp [environment, hinput])
  have hsame : Yields (environment respond failures faults t input) (unlocked (.sameLoop f)) l l
      ((l.world.futures f).loop.map (· = l.world.loop)) := Yields.unlocked rfl
  cases hblocking : (l.world.futures f).blocking with
  | false =>
    have hpark : HandlerTask.parkOnFuture faults t f l =
        (l, .badYield (.protocolError plainYield)) := by
      simp [HandlerTask.parkOnFuture, hblocking]
    rw [hblocking] at hflag
    rw [hpark]
    exact hflag.bind (.pure _)
  | true =>
    rw [hblocking] at hflag
    refine hflag.bind (hsame.bind ?_)
    cases hloop : (l.world.futures f).loop with
    | none => exact yields_parkNow f l hblocking (by simp [hloop])
    | some loop =>
      by_cases heq : loop = l.world.loop
      · simp only [Option.map_some, heq, decide_true]
        exact yields_parkNow f l hblocking (by simp [hloop, heq])
      · have hpark : HandlerTask.parkOnFuture faults t f l =
            (l, .badYield (.protocolError foreignFuture)) := by
          simp [HandlerTask.parkOnFuture, hblocking, hloop, heq]
        rw [hpark]
        simp only [Option.map_some, heq, decide_false]
        exact .pure _

/-- The future that is awaited answers a request for cancellation. -/
theorem yields_cancelFuture (f : FutureId) (message : Option Value) (l : Local) :
    Yields (environment respond failures faults t input) (unlocked (.cancelFuture f message)) l
      (setWorld l (l.world.cancelAwaited t f message))
      (if l.world.acceptsCancel f then .ok true
        else (failures.refusal f).elim (.ok false) .error) := Yields.unlocked rfl

/-- A cancellation that came in the middle of the step. -/
theorem yields_applyCancelRequestedMidStep (l : Local) :
    Yields (environment respond failures faults t input) applyCancelRequestedMidStep l
      (HandlerTask.applyCancelRequestedMidStep t l) () := by
  have hread : Yields (environment respond failures faults t input) (locked .read) l l
      l.task.state := Yields.locked rfl
  unfold HandlerTask.applyCancelRequestedMidStep
  refine hread.bind ?_
  cases hcancel : l.task.state.mustCancel with
  | false => exact .pure ()
  | true =>
    cases hwaiting : l.task.state.waitingOn with
    | none => exact .pure ()
    | some f =>
      refine (yields_cancelFuture f l.task.state.cancelMessage l).bind ?_
      cases haccepts : l.world.acceptsCancel f with
      | true =>
        simp only [haccepts, if_true]
        exact (Yields.locked rfl).bind (.pure ())
      | false =>
        simp only [haccepts, Bool.false_eq_true, if_false]
        cases failures.refusal f with
        | none => exact .pure ()
        | some e => exact yields_print e

/-- The coroutine has raised. -/
theorem yields_afterRaise (e : Exception) (l : Local) :
    Yields (environment respond failures faults t input) (afterStep (.raised e)) l
      (raiseStep faults t e l) () := by
  cases e with
  | cancelledError message => exact yields_finish (.cancelled message) l
  | protocolError text =>
    exact (yields_print _).bind (yields_finish (.raised (.protocolError text)) l)
  | other value => exact (yields_print _).bind (yields_finish (.raised (.other value)) l)

/-- A task that parks keeps its coroutine. -/
theorem parkOnFuture_coroutine (f : FutureId) (l : Local) :
    (HandlerTask.parkOnFuture faults t f l).1.task.state.coroutine = l.task.state.coroutine := by
  unfold HandlerTask.parkOnFuture
  dsimp only
  split
  · rfl
  · split
    · rfl
    · split
      · rfl
      · split <;> rfl

/-- The rest of a turn whose coroutine has yielded an object. -/
def parkedStep (faults : Faults) (t : TaskId) (l : Local) : ParkOutcome → Local
  | .parked => HandlerTask.leave faults (HandlerTask.applyCancelRequestedMidStep t l)
  | .badYield e =>
    HandlerTask.rescheduleOrAbort faults t
      (setState l { l.task.state with deferredThrow := some e })
  | .failed => HandlerTask.closeCoroutineQuietly true l

/-- A yielded future ends its step as the attempt to park tells. -/
theorem yieldStep_future (f : FutureId) (l : Local) :
    HandlerTask.yieldStep faults t (.future f) l =
      parkedStep faults t (HandlerTask.parkOnFuture faults t f l).1
        (HandlerTask.parkOnFuture faults t f l).2 := by
  simp only [HandlerTask.yieldStep]
  cases HandlerTask.parkOnFuture faults t f l with
  | mk l outcome => cases outcome <;> rfl

/-- The coroutine has yielded an object. -/
theorem becomes_afterYield {coroutine : Value} (context : Value) {o : FutureId} {l' : Local}
    {outcome : ParkOutcome}
    (hpark : Yields (environment respond failures faults t input) (parkOnFuture o) l l' outcome)
    (hcoroutine : l'.task.state.coroutine = some coroutine) :
    Becomes (environment respond failures faults t input)
      (afterStep (.yielded (some o)) >>= fun _ => leaveTurn context) l
      (parkedStep faults t l' outcome) := by
  rw [afterStep, Prog.bind_assoc]
  refine hpark.becomes ?_
  cases outcome with
  | parked => exact (yields_applyCancelRequestedMidStep l').leaves context
  | badYield e => exact becomes_badYield context e hcoroutine
  | failed => exact becomes_abort_entered context hcoroutine

/-- The coroutine has come back. -/
theorem becomes_afterStep {coroutine : Value} (context : Value) {i : Input} {outcome : StepOutcome}
    (houtcome : outcomeOf i = some outcome) (hphase : l.task.phase = .stepping)
    (hcoroutine : l.task.state.coroutine = some coroutine) :
    Becomes (environment respond failures faults t (some i))
      (afterStep outcome >>= fun _ => leaveTurn context) l
      (HandlerTask.resume respond faults t i l) := by
  cases i with
  | returned value =>
    obtain rfl : StepOutcome.returned value = outcome := by simpa [outcomeOf] using houtcome
    have hturn : HandlerTask.resume respond faults t (.returned value) l =
        HandlerTask.leave faults
          (HandlerTask.finish faults t (respond value) (.returned value) l) := by
      simp only [HandlerTask.resume, hphase]
    rw [hturn]
    exact (yields_finish (.returned value) l).leaves context
  | raised e =>
    obtain rfl : StepOutcome.raised e = outcome := by simpa [outcomeOf] using houtcome
    have hturn : HandlerTask.resume respond faults t (.raised e) l =
        HandlerTask.leave faults (HandlerTask.raiseStep faults t e l) := by
      simp only [HandlerTask.resume, hphase]
    rw [hturn]
    exact (yields_afterRaise e l).leaves context
  | yielded y =>
    have hturn : HandlerTask.resume respond faults t (.yielded y) l =
        HandlerTask.yieldStep faults t y l := by
      simp only [HandlerTask.resume, hphase]
    rw [hturn]
    cases y with
    | none =>
      obtain rfl : StepOutcome.yielded none = outcome := by simpa [outcomeOf] using houtcome
      exact becomes_rescheduleOrAbort context hcoroutine
    | future f =>
      obtain rfl : StepOutcome.yielded (some f) = outcome := by simpa [outcomeOf] using houtcome
      rw [yieldStep_future]
      exact becomes_afterYield context (yields_parkOnFuture f rfl l)
        ((parkOnFuture_coroutine f l).trans hcoroutine)
    | object typeName =>
      obtain rfl : StepOutcome.yielded (some 0) = outcome := by simpa [outcomeOf] using houtcome
      exact becomes_afterYield context (yields_parkOnObject 0 rfl l) hcoroutine
  | factoryReturned coroutine context => cases houtcome
  | factoryRaised e => cases houtcome
  | closed => cases houtcome

/-- `close()` has come back before the context was entered. -/
theorem becomes_closed (reply : Except Exception Unit) :
    Becomes (environment respond failures faults t input)
      (printError reply >>= fun _ => finish .aborted) l
      (HandlerTask.finish faults t .internalError .aborted (setPhase l .idle)) := by
  have hfinish : Yields (environment respond failures faults t input)
      (printError reply >>= fun _ => finish .aborted) l
      (HandlerTask.finish faults t .internalError .aborted (setPhase l .idle)) () :=
    (yields_printError reply).bind (yields_finish .aborted (setPhase l .idle))
  exact hfinish.over (by simp)

/-- `close()` has come back in the middle of a step. -/
theorem becomes_closed_entered (context : Value) (reply : Except Exception Unit) :
    Becomes (environment respond failures faults t input)
      (printError reply >>= fun _ => finish .aborted >>= fun _ => leaveTurn context) l
      (HandlerTask.leave faults (HandlerTask.finish faults t .internalError .aborted l)) :=
  (yields_printError reply).becomes ((yields_finish .aborted l).leaves context)

/-- **The sections and calls after a call are the rest of a turn.** -/
theorem becomes_resume {c : Call} {rest : Reply c → Code Unit} {i : Input} {reply : Reply c}
    (hsuspended : Suspended l.task (.waiting c rest)) (hreply : replyTo failures i c = some reply) :
    Becomes (environment respond failures faults t (some i)) (rest reply) l
      (HandlerTask.resume respond faults t i l) := by
  cases hsuspended with
  | building hphase =>
    cases i with
    | factoryReturned coroutine context =>
      obtain rfl : Except.ok coroutine = reply := by simpa [replyTo] using hreply
      simp only [HandlerTask.resume, hphase]
      exact becomes_afterHandler _ _ coroutine rfl
    | factoryRaised e =>
      obtain rfl : Except.error e = reply := by simpa [replyTo] using hreply
      simp only [HandlerTask.resume, hphase]
      exact becomes_afterHandler_error _ _ e
    | _ => cases hreply
  | sent hphase hcoroutine => exact becomes_afterStep _ hreply hphase hcoroutine
  | threw hphase hcoroutine => exact becomes_afterStep _ hreply hphase hcoroutine
  | closing hphase =>
    cases i with
    | closed =>
      simp only [HandlerTask.resume, hphase]
      exact becomes_closed reply
    | _ => cases hreply
  | closingEntered hphase =>
    cases i with
    | closed =>
      simp only [HandlerTask.resume, hphase]
      exact becomes_closed_entered _ reply
    | _ => cases hreply

end OwnLock

end Rayo
