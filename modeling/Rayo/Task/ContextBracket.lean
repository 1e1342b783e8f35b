import Rayo.Task.WakeSource

/-!
# The brackets around a step

A turn enters its task and the context of the task before it advances the coroutine, and it leaves
both on every way out of the step. What is entered while Python code has control follows from the
phase of the task, whatever had been entered before the turn.
-/

namespace Asyncio.World

variable {ρ : Type}

/-- The current task, and the contexts that have been entered. -/
def brackets (w : World ρ) : Option TaskId × List Value := (w.currentTask, w.contexts)

/-- A queued handle enters and leaves nothing. -/
@[simp] theorem brackets_callSoon (w : World ρ) (h : Handle) :
    (w.callSoon h).brackets = w.brackets := rfl

/-- An observation enters and leaves nothing. -/
@[simp] theorem brackets_note (w : World ρ) (o : Observation) :
    (w.note o).brackets = w.brackets := rfl

/-- A future that is replaced enters and leaves nothing. -/
@[simp] theorem brackets_setFuture (w : World ρ) (f : FutureId) (future : Future) :
    (w.setFuture f future).brackets = w.brackets := rfl

/-- A future that completes enters and leaves nothing. -/
@[simp] theorem brackets_complete (w : World ρ) (f : FutureId) (status : Status) :
    (w.complete f status).brackets = w.brackets := rfl

/-- A task that registers enters and leaves nothing. -/
@[simp] theorem brackets_registerTask (w : World ρ) (t : TaskId) :
    (w.registerTask t).brackets = w.brackets := rfl

/-- A task that asyncio forgets enters and leaves nothing. -/
@[simp] theorem brackets_unregisterTask (w : World ρ) (t : TaskId) :
    (w.unregisterTask t).brackets = w.brackets := rfl

/-- A callback on a future enters and leaves nothing. -/
@[simp] theorem brackets_addDoneCallback (w : World ρ) (f : FutureId) (t : TaskId) :
    (w.addDoneCallback f t).brackets = w.brackets := by
  unfold addDoneCallback
  split
  · rw [brackets_setFuture]
  · rw [brackets_callSoon]

/-- A cancelled future enters and leaves nothing. -/
@[simp] theorem brackets_cancelFuture (w : World ρ) (f : FutureId) (message : Option Value) :
    (w.cancelFuture f message).brackets = w.brackets := by
  unfold cancelFuture
  split
  · rw [brackets_complete]
  · rfl

/-- The cancellation of an awaited future enters and leaves nothing. -/
@[simp] theorem brackets_cancelAwaited (w : World ρ) (t : TaskId) (f : FutureId)
    (message : Option Value) : (w.cancelAwaited t f message).brackets = w.brackets := by
  simp [cancelAwaited]

/-- Entering a context after its task. -/
theorem brackets_enter {w : World ρ} {outer : List Value} (h : w.brackets = (none, outer))
    (t : TaskId) (context : Value) :
    ((w.enterTask t).enterContext context).brackets = (some t, context :: outer) := by
  have houter : w.contexts = outer := congrArg Prod.snd h
  simp [brackets, enterTask, enterContext, houter]

/-- Leaving the task after its context. -/
theorem brackets_leave {w : World ρ} {t : TaskId} {context : Value} {outer : List Value}
    (h : w.brackets = (some t, context :: outer)) :
    w.exitContext.leaveTask.brackets = (none, outer) := by
  have hcontexts : w.contexts = context :: outer := congrArg Prod.snd h
  simp [brackets, exitContext, leaveTask, hcontexts]

end Asyncio.World

namespace Rayo

open Asyncio

/-- `_leave_task` and `PyContext_Exit` succeed. -/
def LeavesSucceed (faults : Faults) : Prop :=
  faults.leaveTask = false ∧ faults.exitContext = false

/-- Whether the calls that leave a context go through can be decided. -/
instance (faults : Faults) : Decidable (LeavesSucceed faults) :=
  inferInstanceAs (Decidable (_ ∧ _))

/-- The task and its context have been entered while this Python code runs. -/
def Phase.entered : Phase → Bool
  | .stepping | .closing true => true
  | .idle | .building _ | .closing false => false

namespace HandlerTask

/-- Nothing has been entered since `outer`. -/
def Outside (outer : List Value) (l : Local) : Prop :=
  l.world.brackets = (none, outer)

/-- The task has been entered, and its own context on top of `outer`. -/
def Inside (t : TaskId) (outer : List Value) (l : Local) : Prop :=
  ∃ context, l.task.state.context = some context ∧
    l.world.brackets = (some t, context :: outer)

/-- What has been entered is what the phase of the task says, and the handler is only called
before the task has a context. -/
structure Bracketed (t : TaskId) (outer : List Value) (l : Local) : Prop where
  outside : l.task.phase.entered = false → Outside outer l
  inside : l.task.phase.entered = true → Inside t outer l
  unbuilt : ∀ turn, l.task.phase = .building turn → l.task.state.context = none

variable {t : TaskId} {outer : List Value} {l l' : Local} {faults : Faults}

/-- Being outside depends on the brackets alone. -/
theorem Outside.congr (h : Outside outer l) (hworld : l'.world.brackets = l.world.brackets) :
    Outside outer l' :=
  hworld.trans h

/-- Being inside depends on the brackets and on the context. -/
theorem Inside.congr (h : Inside t outer l) (hworld : l'.world.brackets = l.world.brackets)
    (hcontext : l'.task.state.context = l.task.state.context) : Inside t outer l' := by
  obtain ⟨context, hown, hbrackets⟩ := h
  exact ⟨context, hcontext.trans hown, hworld.trans hbrackets⟩

/-- A task that is idle or closes outside is bracketed. -/
theorem Outside.bracketed (h : Outside outer l)
    (hphase : l.task.phase = .idle ∨ l.task.phase = .closing false) : Bracketed t outer l where
  outside _ := h
  inside hentered := by rcases hphase with hphase | hphase <;> simp [hphase, Phase.entered] at hentered
  unbuilt turn hturn := by simp [hturn] at hphase

/-- A task whose phase lies inside is bracketed. -/
theorem Inside.bracketed (h : Inside t outer l) (hphase : l.task.phase.entered = true) :
    Bracketed t outer l where
  outside hentered := by simp [hphase] at hentered
  inside _ := h
  unbuilt turn hturn := by simp [hturn, Phase.entered] at hphase

/-- Being bracketed depends on the brackets, the context and the phase. -/
theorem Bracketed.congr (h : Bracketed t outer l) (hworld : l'.world.brackets = l.world.brackets)
    (hcontext : l'.task.state.context = l.task.state.context)
    (hphase : l'.task.phase = l.task.phase) : Bracketed t outer l' :=
  ⟨fun hentered => (h.outside (hphase ▸ hentered)).congr hworld,
    fun hentered => (h.inside (hphase ▸ hentered)).congr hworld hcontext,
    fun turn hturn => hcontext.trans (h.unbuilt turn (hphase ▸ hturn))⟩

/-- A response enters and leaves nothing. -/
@[simp] theorem brackets_send (t : TaskId) (response : HandlerResponse) (l : Local) :
    (send t response l).world.brackets = l.world.brackets := by
  unfold send
  split <;> rfl

/-- A task that deregisters enters and leaves nothing. -/
@[simp] theorem brackets_unregister (faults : Faults) (t : TaskId) (wasRegistered : Bool)
    (w : World LoopHandles) : (unregister faults t wasRegistered w).brackets = w.brackets := by
  rw [unregister_eq]
  rfl

/-- Callbacks that are fired enter and leave nothing. -/
@[simp] theorem brackets_fireCallbacks (faults : Faults) (t : TaskId)
    (callbacks : List (Value × Value)) (w : World LoopHandles) :
    (fireCallbacks faults t callbacks w).brackets = w.brackets := by
  rw [fireCallbacks_eq]
  rfl

/-- A task that finishes enters and leaves nothing. -/
@[simp] theorem brackets_finish (faults : Faults) (t : TaskId) (response : HandlerResponse)
    (completion : CompletionKind) (l : Local) :
    (finish faults t response completion l).world.brackets = l.world.brackets := by
  unfold finish
  split
  · rw [brackets_send]
  · simp

/-- A task keeps its context as it finishes. -/
@[simp] theorem finish_context (faults : Faults) (t : TaskId) (response : HandlerResponse)
    (completion : CompletionKind) (l : Local) :
    (finish faults t response completion l).task.state.context = l.task.state.context := by
  unfold finish
  split
  · rw [send_state]
  · simp

/-- A task keeps its phase as it finishes. -/
@[simp] theorem finish_phase (faults : Faults) (t : TaskId) (response : HandlerResponse)
    (completion : CompletionKind) (l : Local) :
    (finish faults t response completion l).task.phase = l.task.phase := by
  unfold finish
  split
  · rw [send_phase]
  · simp

/-- A step that has raised finishes its task with the opaque 500. -/
theorem raiseStep_eq (faults : Faults) (t : TaskId) (e : Exception) (l : Local) :
    ∃ completion, raiseStep faults t e l = finish faults t .internalError completion l := by
  cases e with
  | cancelledError message => exact ⟨.cancelled message, rfl⟩
  | protocolError text => exact ⟨.raised (.protocolError text), rfl⟩
  | other value => exact ⟨.raised (.other value), rfl⟩

/-- A cancellation enters and leaves nothing. -/
@[simp] theorem brackets_cancel (t : TaskId) (message : Option Value) (l : Local) :
    (cancel t message l).1.world.brackets = l.world.brackets :=
  cancel_cases (P := fun r => r.1.world.brackets = l.world.brackets) (fun _ => rfl)
    (fun _ _ _ _ => by simp) (fun _ _ _ _ => by simp) fun _ _ => rfl

/-- A task keeps its context when it is cancelled. -/
@[simp] theorem cancel_context (t : TaskId) (message : Option Value) (l : Local) :
    (cancel t message l).1.task.state.context = l.task.state.context :=
  cancel_cases (P := fun r => r.1.task.state.context = l.task.state.context) (fun _ => rfl)
    (fun _ _ _ _ => rfl) (fun _ _ _ _ => rfl) fun _ _ => rfl

/-- The end of a step leaves what it entered. -/
theorem Inside.leave (h : Inside t outer l) (hfaults : LeavesSucceed faults) :
    Bracketed t outer (leave faults l) := by
  obtain ⟨context, -, hbrackets⟩ := h
  refine Outside.bracketed ?_ (.inl (by simp))
  obtain ⟨htask, hcontext⟩ := hfaults
  have hleft := World.brackets_leave hbrackets
  simpa [Outside, HandlerTask.leave, htask, hcontext] using hleft

/-- Aborting a step closes the coroutine inside its brackets. -/
theorem Inside.closing (h : Inside t outer l) : Bracketed t outer (closeCoroutineQuietly true l) :=
  Inside.bracketed h rfl

/-- A coroutine that is closed outside leaves its task bracketed. -/
theorem Outside.closing (h : Outside outer l) :
    Bracketed t outer (closeCoroutineQuietly false l) :=
  Outside.bracketed h (.inr rfl)

/-- A turn enters both or neither before it goes on. -/
theorem Outside.advance (h : Outside outer l) (hfaults : LeavesSucceed faults) (turn : Turn) :
    Bracketed t outer (advance faults t turn l) := by
  unfold HandlerTask.advance
  split
  · next coroutine context hcoroutine hcontext =>
    by_cases htask : faults.enterTask = true
    · simp only [htask, if_true]
      exact h.closing
    · by_cases henter : faults.enterContext = true
      · simp only [htask, henter, if_true, Bool.false_eq_true, if_false]
        refine Outside.closing ?_
        have houter : l.world.contexts = outer := congrArg Prod.snd h
        simp [Outside, World.brackets, hfaults.1, World.leaveTask, World.enterTask, houter]
      · simp only [htask, henter, Bool.false_eq_true, if_false]
        refine Inside.bracketed ⟨context, hcontext, ?_⟩ rfl
        have hentered := World.brackets_enter h t context
        simpa [stepCoroutine] using hentered
  · exact Outside.bracketed h (.inl rfl)

/-- A call of a task outside leaves it bracketed. -/
theorem Outside.call (h : Outside outer l) (hphase : l.task.phase = .idle)
    (hpaired : l.task.state.coroutine.isSome = l.task.state.context.isSome)
    (hfaults : LeavesSucceed faults) (finishedFuture : Option FutureId) :
    Bracketed t outer (call faults t finishedFuture l) := by
  unfold HandlerTask.call
  dsimp only
  split
  · exact h.bracketed (.inl hphase)
  · split
    · next hunbuilt =>
      split
      · exact Outside.bracketed (h.congr (by simp)) (.inl (by simp [hphase]))
      · refine ⟨fun _ => h, (by rintro ⟨⟩), fun _ _ => ?_⟩
        have hnone : l.task.state.context.isSome = false := by
          rw [← hpaired]
          simpa using hunbuilt
        exact Option.isSome_eq_false_iff.mp hnone |> Option.isNone_iff_eq_none.mp
    · exact Outside.advance (h.congr (by simp)) hfaults _

/-- A first turn that goes on from outside leaves its task bracketed. -/
theorem Outside.start (h : Outside outer l) (hfaults : LeavesSucceed faults) (turn : Turn)
    (coroutine context : Value) :
    Bracketed t outer (start faults t turn coroutine context l) := by
  unfold HandlerTask.start
  dsimp only
  split
  · exact h.closing
  · refine Outside.advance (h.congr ?_) hfaults turn
    split
    · rfl
    · simp

/-- A task that is rescheduled from inside leaves first. -/
theorem Inside.rescheduleOrAbort (h : Inside t outer l) (hfaults : LeavesSucceed faults) :
    Bracketed t outer (rescheduleOrAbort faults t l) := by
  unfold HandlerTask.rescheduleOrAbort
  split
  · exact h.closing
  · exact Inside.leave (h.congr (by simp) rfl) hfaults

/-- A task that parks inside is still inside. -/
theorem Inside.parkOnFuture (h : Inside t outer l) (faults : Faults) (f : FutureId) :
    Inside t outer (parkOnFuture faults t f l).1 := by
  unfold HandlerTask.parkOnFuture
  dsimp only
  split
  · exact h
  · split
    · exact h
    · split
      · exact h
      · split
        · exact h.congr (by simp) rfl
        · exact h.congr (by simp) rfl

/-- A task that applies a cancellation inside is still inside. -/
theorem Inside.applyCancelRequestedMidStep (h : Inside t outer l) :
    Inside t outer (applyCancelRequestedMidStep t l) := by
  unfold HandlerTask.applyCancelRequestedMidStep
  split
  · dsimp only
    split
    · exact h.congr (by simp) rfl
    · exact h.congr (by simp) rfl
  · exact h

/-- What becomes of a value that is yielded inside leaves the task bracketed. -/
theorem Inside.yieldStep (h : Inside t outer l) (hfaults : LeavesSucceed faults) (y : Yielded) :
    Bracketed t outer (yieldStep faults t y l) := by
  cases y with
  | none => exact h.rescheduleOrAbort hfaults
  | object typeName => exact Inside.rescheduleOrAbort (h.congr (by simp) rfl) hfaults
  | future f =>
    have hparked := h.parkOnFuture faults f
    unfold HandlerTask.yieldStep
    dsimp only
    split
    · next l' hpark =>
      rw [hpark] at hparked
      exact hparked.applyCancelRequestedMidStep.leave hfaults
    · next l' e hpark =>
      rw [hpark] at hparked
      exact Inside.rescheduleOrAbort (hparked.congr (by simp) rfl) hfaults
    · next l' hpark =>
      rw [hpark] at hparked
      exact hparked.closing

/-- **One resumption.** Whatever Python code that a task has called hands back, the turn goes on
with the brackets that its new phase asks for. -/
theorem Bracketed.resume (h : Bracketed t outer l) (hfaults : LeavesSucceed faults)
    (respond : Value → HandlerResponse) (input : Input) :
    Bracketed t outer (resume respond faults t input l) := by
  unfold HandlerTask.resume
  split
  · next hphase => exact Outside.start (h.outside (by rw [hphase]; rfl)) hfaults _ _ _
  · next hphase =>
    exact Outside.bracketed ((h.outside (by rw [hphase]; rfl)).congr (by simp)) (.inl (by simp))
  · next hphase =>
    exact Inside.leave ((h.inside (by rw [hphase]; rfl)).congr (by simp) (by simp)) hfaults
  · next e hphase =>
    obtain ⟨completion, hfinish⟩ := raiseStep_eq faults t e l
    rw [hfinish]
    exact Inside.leave ((h.inside (by rw [hphase]; rfl)).congr (by simp) (by simp)) hfaults
  · next hphase => exact Inside.yieldStep (h.inside (by rw [hphase]; rfl)) hfaults _
  · next hphase =>
    exact Inside.leave ((h.inside (by rw [hphase]; rfl)).congr (by simp) (by simp)) hfaults
  · next hphase =>
    exact Outside.bracketed ((h.outside (by rw [hphase]; rfl)).congr (by simp)) (.inl (by simp))
  · exact h

/-- A task keeps its context as it leaves it. -/
@[simp] theorem leave_context (faults : Faults) (l : Local) :
    (HandlerTask.leave faults l).task.state.context = l.task.state.context := by
  rw [leave_task]

/-- A turn that begins keeps the context of its task. -/
@[simp] theorem advance_context (faults : Faults) (t : TaskId) (turn : Turn) (l : Local) :
    (HandlerTask.advance faults t turn l).task.state.context = l.task.state.context := by
  unfold HandlerTask.advance
  split
  · dsimp only
    split
    · rfl
    · split
      · split <;> rfl
      · rfl
  · rfl

/-- A turn gives its task no context before the handler has returned. -/
@[simp] theorem call_context (faults : Faults) (t : TaskId) (finishedFuture : Option FutureId)
    (l : Local) :
    (HandlerTask.call faults t finishedFuture l).task.state.context = l.task.state.context := by
  unfold HandlerTask.call
  dsimp only
  split
  · rfl
  · split
    · split
      · rw [finish_context]
        rfl
      · rfl
    · rw [advance_context]
      rfl

/-- The context that is copied for the coroutine that a handler returns. -/
def copiedContext (faults : Faults) (k : HandlerTask) (input : Input) : Option Value :=
  match k.phase, input with
  | .building _, .factoryReturned _ context => if faults.contextCopy then none else some context
  | _, _ => none

/-- A first turn takes the copied context, if the copy goes through. -/
theorem start_context (faults : Faults) (t : TaskId) (turn : Turn) (coroutine context : Value)
    (l : Local) : (HandlerTask.start faults t turn coroutine context l).task.state.context =
      if faults.contextCopy then l.task.state.context else some context := by
  unfold HandlerTask.start
  dsimp only
  split
  · rfl
  · rw [advance_context]
    split <;> rfl

/-- A task that is rescheduled or aborted keeps its context. -/
theorem rescheduleOrAbort_context (faults : Faults) (t : TaskId) (l : Local) :
    (HandlerTask.rescheduleOrAbort faults t l).task.state.context = l.task.state.context := by
  unfold HandlerTask.rescheduleOrAbort
  split
  · rfl
  · rw [leave_context]
    rfl

/-- A task that parks keeps its context. -/
theorem parkOnFuture_context (faults : Faults) (t : TaskId) (f : FutureId) (l : Local) :
    (HandlerTask.parkOnFuture faults t f l).1.task.state.context = l.task.state.context := by
  unfold HandlerTask.parkOnFuture
  dsimp only
  split
  · rfl
  · split
    · rfl
    · split
      · rfl
      · split <;> rfl

/-- A task that applies a cancellation keeps its context. -/
theorem applyCancelRequestedMidStep_context (t : TaskId) (l : Local) :
    (HandlerTask.applyCancelRequestedMidStep t l).task.state.context = l.task.state.context := by
  unfold HandlerTask.applyCancelRequestedMidStep
  split
  · dsimp only
    split <;> rfl
  · rfl

/-- A task whose coroutine has yielded keeps its context. -/
theorem yieldStep_context (faults : Faults) (t : TaskId) (y : Yielded) (l : Local) :
    (HandlerTask.yieldStep faults t y l).task.state.context = l.task.state.context := by
  cases y with
  | none => exact rescheduleOrAbort_context faults t l
  | object typeName => exact rescheduleOrAbort_context faults t _
  | future f =>
    have hcontext := parkOnFuture_context faults t f l
    unfold HandlerTask.yieldStep
    dsimp only
    split
    · next l' hpark =>
      rw [hpark] at hcontext
      rw [leave_context, applyCancelRequestedMidStep_context, hcontext]
    · next l' e hpark =>
      rw [hpark] at hcontext
      exact (rescheduleOrAbort_context faults t _).trans hcontext
    · next l' hpark =>
      rw [hpark] at hcontext
      exact hcontext

/-- A task gets its context when its coroutine has been built, and it keeps it. -/
theorem resume_context (respond : Value → HandlerResponse) (faults : Faults) (t : TaskId)
    (input : Input) (l : Local) :
    (HandlerTask.resume respond faults t input l).task.state.context =
      (copiedContext faults l.task input).or l.task.state.context := by
  unfold HandlerTask.resume
  split
  · next hphase =>
    rw [start_context]
    simp only [copiedContext, hphase]
    split <;> simp
  · next hphase => simp [copiedContext, hphase]
  · next hphase => simp [copiedContext, hphase]
  · next e hphase =>
    obtain ⟨completion, hfinish⟩ := raiseStep_eq faults t e l
    simp [copiedContext, hphase, hfinish]
  · next hphase => simp [copiedContext, hphase, yieldStep_context]
  · next hphase => simp [copiedContext, hphase]
  · next hphase => simp [copiedContext, hphase]
  · rename_i hbuilt _ _ _ _ _ _
    unfold copiedContext
    split
    · exact (hbuilt _ _ _ (by assumption) rfl).elim
    · rw [Option.none_or]

end HandlerTask

end Rayo
