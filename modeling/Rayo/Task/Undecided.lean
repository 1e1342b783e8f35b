import Rayo.Task.Lifecycle

/-!
# What a turn leaves alone

Until a turn comes to its `finish` it changes nothing that the completion of its task is about:
the fields that the accessors read, the done callbacks, the sender of the response and the
registry of live tasks. Of the other tasks it changes nothing at all.
-/

namespace Rayo

open Asyncio HandlerTask

/-- The observation is an advance of the coroutine of `t`. -/
def operates (t : TaskId) : Observation → Bool
  | .sent t' | .threw t' _ | .threwUnstarted t' _ => t' = t
  | _ => false

/-- The advances of the coroutine of `t`. -/
def operations (w : World LoopHandles) (t : TaskId) : List Observation :=
  w.log.filter (operates t)

/-- Nothing has happened to `t` in the data of its loop. -/
structure Aside (t : TaskId) (w w' : World LoopHandles) : Prop where
  live : t ∈ w'.shared.liveTasks ↔ t ∈ w.shared.liveTasks
  registered : t ∈ w'.registered ↔ t ∈ w.registered
  responses : w'.shared.responses.filter (·.1 = t) = w.shared.responses.filter (·.1 = t)
  operations : operations w' t = operations w t

namespace Aside

variable {t : TaskId} {w w' w'' : World LoopHandles}

/-- Where nothing happens, nothing happens to `t`. -/
theorem refl (t : TaskId) (w : World LoopHandles) : Aside t w w := ⟨.rfl, .rfl, rfl, rfl⟩

/-- Two steps that are aside of `t` are so together. -/
theorem trans (h : Aside t w w') (h' : Aside t w' w'') : Aside t w w'' :=
  ⟨h'.live.trans h.live, h'.registered.trans h.registered, h'.responses.trans h.responses,
    h'.operations.trans h.operations⟩

/-- Only these parts of the data matter. -/
theorem of_eq (hshared : w'.shared = w.shared) (hregistered : w'.registered = w.registered)
    (hlog : w'.log = w.log) : Aside t w w' :=
  ⟨by rw [hshared], by rw [hregistered], by rw [hshared], by rw [Rayo.operations, hlog]; rfl⟩

/-- An observation that is no operation of `t` is aside of it. -/
theorem note {o : Observation} (ho : operates t o = false) : Aside t w (w.note o) :=
  ⟨.rfl, .rfl, rfl, by simp [Rayo.operations, World.note, ho]⟩

/-- A future that completes is aside of every task. -/
theorem complete (f : FutureId) (status : Status) : Aside t w (w.complete f status) :=
  .of_eq rfl rfl rfl

/-- A cancelled future is aside of every task. -/
theorem cancelFuture (f : FutureId) (message : Option Value) :
    Aside t w (w.cancelFuture f message) := by
  unfold World.cancelFuture
  split
  · exact complete f _
  · exact .refl t w

/-- The cancellation of an awaited future is aside of every task. -/
theorem cancelAwaited (t' : TaskId) (f : FutureId) (message : Option Value) :
    Aside t w (w.cancelAwaited t' f message) :=
  (cancelFuture f message).trans (note rfl)

/-- A callback on a future is aside of every task. -/
theorem addDoneCallback (f : FutureId) (t' : TaskId) : Aside t w (w.addDoneCallback f t') := by
  unfold World.addDoneCallback
  split
  · exact .of_eq rfl rfl rfl
  · exact .of_eq rfl rfl rfl

/-- Another task that leaves the registry is aside of `t`. -/
theorem removeLive {t' : TaskId} (ht : t ≠ t') : Aside t w (HandlerTask.removeLive t' w) :=
  ⟨by simp [HandlerTask.removeLive, ht], .rfl, rfl, rfl⟩

/-- Another task that asyncio forgets is aside of `t`. -/
theorem unregisterTask {t' : TaskId} (ht : t ≠ t') : Aside t w (w.unregisterTask t') :=
  ⟨.rfl, by simp [World.unregisterTask, ht], rfl, rfl⟩

/-- Another task that registers with asyncio is aside of `t`. -/
theorem registerTask {t' : TaskId} (ht : t ≠ t') : Aside t w (w.registerTask t') :=
  ⟨.rfl, by simp [World.registerTask, ht], rfl, rfl⟩

/-- A response to another request is aside of `t`. -/
theorem send {t' : TaskId} (ht : t ≠ t') (response : HandlerResponse) (l : Local) :
    Aside t l.world (HandlerTask.send t' response l).world := by
  unfold HandlerTask.send
  split
  · exact ⟨.rfl, .rfl, by simp [Ne.symm ht], rfl⟩
  · exact .refl t _

/-- The deregistration of another task is aside of `t`. -/
theorem unregister {t' : TaskId} (ht : t ≠ t') (faults : Faults) (wasRegistered : Bool) :
    Aside t w (HandlerTask.unregister faults t' wasRegistered w) := by
  have hremove : Aside t w (HandlerTask.removeLive t' w) := removeLive ht
  unfold HandlerTask.unregister
  split
  · exact hremove.trans (unregisterTask ht)
  · exact hremove

/-- The callbacks that another task fires are aside of `t`. -/
theorem fireCallbacks (faults : Faults) (t' : TaskId) (callbacks : List (Value × Value)) :
    Aside t w (HandlerTask.fireCallbacks faults t' callbacks w) := by
  rw [fireCallbacks_eq]
  exact .of_eq rfl rfl rfl

/-- Another task that finishes is aside of `t`. -/
theorem finish {t' : TaskId} (ht : t ≠ t') (faults : Faults) (response : HandlerResponse)
    (completion : CompletionKind) (l : Local) :
    Aside t l.world (HandlerTask.finish faults t' response completion l).world := by
  unfold HandlerTask.finish
  split
  · exact send ht response l
  · refine Aside.trans ?_ (send ht response _)
    exact (unregister ht faults _).trans (fireCallbacks faults t' _)

/-- Leaving a context is aside of every task. -/
theorem leave (faults : Faults) (l : Local) :
    Aside t l.world (HandlerTask.leave faults l).world := by
  unfold HandlerTask.leave
  dsimp only
  split <;> split <;> exact .of_eq rfl rfl rfl

/-- The end of a turn is aside of every task. -/
theorem endTurn (faults : Faults) (entered : Bool) (l : Local) :
    Aside t l.world (HandlerTask.endTurn faults entered l).world := by
  unfold HandlerTask.endTurn
  split
  · exact leave faults l
  · exact .refl t _

/-- A stage of a `finish` is about its own task. -/
theorem advance {t' : TaskId} (ht : t ≠ t') (faults : Faults) (l : Local) (stage : FinishStage) :
    Aside t l.world (stage.advance faults t' l).1.world := by
  cases stage with
  | record response completion =>
    simp only [FinishStage.advance]
    split <;> exact .refl t _
  | removeLive response wasRegistered callbacks => exact removeLive ht
  | unregister response wasRegistered callbacks =>
    simp only [FinishStage.advance]
    split
    · exact unregisterTask ht
    · exact .refl t _
  | fire response callbacks =>
    cases callbacks with
    | nil => exact .refl t _
    | cons entry rest =>
      simp only [FinishStage.advance]
      split
      · exact .refl t _
      · exact .of_eq rfl rfl rfl
  | take response =>
    simp only [FinishStage.advance]
    split <;> exact .refl t _
  | decrement response => exact ⟨.rfl, .rfl, rfl, rfl⟩
  | deliver response => exact ⟨.rfl, .rfl, by simp [FinishStage.advance, Ne.symm ht], rfl⟩

end Aside

/-- A task has been worked on, but nothing that its completion is about has changed. It may have
been registered with asyncio. -/
structure Undecided (t : TaskId) (l l' : Local) : Prop where
  shared : l'.world.shared = l.world.shared
  verdict : l'.task.state.verdict = l.task.state.verdict
  doneCallbacks : l'.task.state.doneCallbacks = l.task.state.doneCallbacks
  sender : l'.task.sender = l.task.sender
  registered : (t ∈ l'.world.registered ∧ l'.task.state.registeredWithAsyncio = true) ∨
    ((t ∈ l'.world.registered ↔ t ∈ l.world.registered) ∧
      l'.task.state.registeredWithAsyncio = l.task.state.registeredWithAsyncio)
  aside : ∀ t', t' ≠ t → Aside t' l.world l'.world

namespace Undecided

variable {t : TaskId} {l l' l'' : Local} {faults : Faults}

/-- A task on which nothing is done is undecided. -/
theorem refl (t : TaskId) (l : Local) : Undecided t l l :=
  ⟨rfl, rfl, rfl, rfl, .inr ⟨.rfl, rfl⟩, fun t' _ => .refl t' _⟩

/-- What leaves a task undecided twice leaves it undecided. -/
theorem trans (h : Undecided t l l') (h' : Undecided t l' l'') : Undecided t l l'' := by
  refine ⟨h'.shared.trans h.shared, h'.verdict.trans h.verdict,
    h'.doneCallbacks.trans h.doneCallbacks, h'.sender.trans h.sender, ?_,
    fun t' ht => (h.aside t' ht).trans (h'.aside t' ht)⟩
  rcases h'.registered with hset | ⟨hmem, hflag⟩
  · exact .inl hset
  · rcases h.registered with ⟨hset, hflagged⟩ | ⟨hmem', hflag'⟩
    · exact .inl ⟨hmem.mpr hset, hflag.trans hflagged⟩
    · exact .inr ⟨hmem.trans hmem', hflag.trans hflag'⟩

/-- An undecided task is as finished as before. -/
theorem finished (h : Undecided t l l') : l'.task.state.finished = l.task.state.finished :=
  congrArg Prod.fst h.verdict

/-- Only the data of the loop has changed. -/
theorem setWorld {w : World LoopHandles} (hshared : w.shared = l.world.shared)
    (hregistered : w.registered = l.world.registered)
    (haside : ∀ t', t' ≠ t → Aside t' l.world w) : Undecided t l (setWorld l w) :=
  ⟨hshared, rfl, rfl, rfl, .inr ⟨by rw [setWorld_world, hregistered], rfl⟩, haside⟩

/-- Only fields of the state that nobody asks for have changed. -/
theorem setState {st : TaskState} (hverdict : st.verdict = l.task.state.verdict)
    (hcallbacks : st.doneCallbacks = l.task.state.doneCallbacks)
    (hflag : st.registeredWithAsyncio = l.task.state.registeredWithAsyncio) :
    Undecided t l (setState l st) :=
  ⟨rfl, hverdict, hcallbacks, rfl, .inr ⟨.rfl, hflag⟩, fun t' _ => .refl t' _⟩

/-- Where its turn goes on decides nothing about a task. -/
theorem setPhase (phase : Phase) : Undecided t l (setPhase l phase) :=
  ⟨rfl, rfl, rfl, rfl, .inr ⟨.rfl, rfl⟩, fun t' _ => .refl t' _⟩

/-- An observation of the task itself, or of none, decides nothing about it. -/
theorem note {o : Observation} (ho : ∀ t', t' ≠ t → operates t' o = false) :
    Undecided t l (HandlerTask.setWorld l (l.world.note o)) :=
  setWorld rfl rfl fun t' ht => .note (ho t' ht)

/-- A queued handle decides nothing about a task. -/
theorem callSoon (h : Handle) : Undecided t l (HandlerTask.setWorld l (l.world.callSoon h)) :=
  setWorld rfl rfl fun _ _ => .of_eq rfl rfl rfl

/-- A coroutine that is about to be closed decides nothing about its task. -/
theorem closeCoroutineQuietly (entered : Bool) :
    Undecided t l (closeCoroutineQuietly entered l) := setPhase _

/-- A task that leaves its context is undecided. -/
theorem leave (faults : Faults) (l : Local) : Undecided t l (leave faults l) := by
  have hexit : Undecided t l
      (if faults.exitContext then l else HandlerTask.setWorld l l.world.exitContext) := by
    split
    · exact .refl t l
    · exact setWorld rfl rfl fun _ _ => .of_eq rfl rfl rfl
  have hleave (l : Local) : Undecided t l
      (if faults.leaveTask then l else HandlerTask.setWorld l l.world.leaveTask) := by
    split
    · exact .refl t l
    · exact setWorld rfl rfl fun _ _ => .of_eq rfl rfl rfl
  exact (hexit.trans (hleave _)).trans (setPhase _)

/-- The end of a turn decides nothing about its task. -/
theorem endTurn (faults : Faults) (entered : Bool) (l : Local) :
    Undecided t l (endTurn faults entered l) := by
  unfold HandlerTask.endTurn
  split
  · exact leave faults l
  · exact setPhase _

/-- The advance of its coroutine decides nothing about a task. -/
theorem stepCoroutine (pending : Option Exception) :
    Undecided t l (stepCoroutine t pending l) := by
  refine Undecided.trans (note fun t' ht => ?_) (setPhase _)
  cases pending <;> simp [operates, Ne.symm ht]

/-- A turn up to the advance of its coroutine decides nothing about its task. -/
theorem advance (faults : Faults) (turn : Turn) (l : Local) :
    Undecided t l (advance faults t turn l) := by
  have hentered : Undecided t l (HandlerTask.setWorld l (l.world.enterTask t)) :=
    setWorld rfl rfl fun _ _ => .of_eq rfl rfl rfl
  unfold HandlerTask.advance
  dsimp only
  split
  · next context _ hcontext =>
    split
    · exact closeCoroutineQuietly false
    split
    · refine Undecided.trans hentered (Undecided.trans ?_ (closeCoroutineQuietly false))
      split
      · exact .refl t _
      · exact setWorld rfl rfl fun _ _ => .of_eq rfl rfl rfl
    · refine Undecided.trans hentered (Undecided.trans ?_ (stepCoroutine _))
      exact setWorld rfl rfl fun _ _ => .of_eq rfl rfl rfl
  · exact Undecided.trans (note fun _ _ => rfl) (setPhase _)

/-- A first turn whose handler has returned its coroutine decides nothing about its task. -/
theorem start (faults : Faults) (turn : Turn) (coroutine context : Value) (l : Local) :
    Undecided t l (start faults t turn coroutine context l) := by
  unfold HandlerTask.start
  split
  · exact closeCoroutineQuietly false
  have hbuilt : Undecided t l (HandlerTask.setState l { l.task.state with
      coroutine := some coroutine, context := some context }) := setState rfl rfl rfl
  refine Undecided.trans (Undecided.trans hbuilt ?_) (advance faults turn _)
  split
  · exact .refl t _
  · exact ⟨rfl, rfl, rfl, rfl, .inl ⟨by simp [World.registerTask], rfl⟩,
      fun t' ht => .registerTask ht⟩

/-- A task that is rescheduled or aborted is undecided. -/
theorem rescheduleOrAbort (faults : Faults) (l : Local) :
    Undecided t l (rescheduleOrAbort faults t l) := by
  unfold HandlerTask.rescheduleOrAbort
  split
  · exact closeCoroutineQuietly true
  · exact Undecided.trans (callSoon _) (leave faults _)

/-- A task that registers on a future is undecided. -/
theorem addDoneCallback (f : FutureId) (l : Local) :
    Undecided t l (HandlerTask.setWorld l (l.world.addDoneCallback f t)) := by
  refine setWorld ?_ ?_ fun t' _ => .addDoneCallback f t
  · unfold World.addDoneCallback
    split <;> rfl
  · unfold World.addDoneCallback
    split <;> rfl

/-- A task that parks is undecided. -/
theorem parkOnFuture (faults : Faults) (f : FutureId) (l : Local) :
    Undecided t l (parkOnFuture faults t f l).1 := by
  unfold HandlerTask.parkOnFuture
  dsimp only
  split
  · exact .refl t l
  split
  · exact .refl t l
  split
  · exact .refl t l
  have hflag : Undecided t l (HandlerTask.setWorld l
      (l.world.setFuture f { l.world.futures f with blocking := false })) :=
    setWorld rfl rfl fun _ _ => .of_eq rfl rfl rfl
  have hset (waitingOn : Option FutureId) : Undecided t l
      (HandlerTask.setState (HandlerTask.setWorld l
        (l.world.setFuture f { l.world.futures f with blocking := false }))
          { l.task.state with waitingOn := waitingOn }) :=
    hflag.trans (setState rfl rfl rfl)
  split
  · exact hset none
  · exact (hset (some f)).trans (addDoneCallback f _)

/-- The cancellation of the future it awaits decides nothing about a task. -/
theorem cancelAwaited (f : FutureId) (message : Option Value) :
    Undecided t l (HandlerTask.setWorld l (l.world.cancelAwaited t f message)) := by
  refine setWorld ?_ ?_ fun t' _ => .cancelAwaited t f message
  · simp only [World.cancelAwaited, World.cancelFuture, World.note]
    split <;> rfl
  · simp only [World.cancelAwaited, World.cancelFuture, World.note]
    split <;> rfl

/-- A cancellation that was requested in mid-step decides nothing about its task. -/
theorem applyCancelRequestedMidStep (l : Local) :
    Undecided t l (applyCancelRequestedMidStep t l) := by
  unfold HandlerTask.applyCancelRequestedMidStep
  split
  · dsimp only
    split
    · exact Undecided.trans (cancelAwaited _ _) (setState rfl rfl rfl)
    · exact cancelAwaited _ _
  · exact .refl t l

/-- What becomes of a yielded value decides nothing about the task. -/
theorem yieldStep (faults : Faults) (y : Yielded) (l : Local) :
    Undecided t l (yieldStep faults t y l) := by
  have hdefer (e : Exception) (l : Local) : Undecided t l
      (HandlerTask.setState l { l.task.state with deferredThrow := some e }) :=
    setState rfl rfl rfl
  have hbad (e : Exception) (l : Local) : Undecided t l (HandlerTask.rescheduleOrAbort faults t
      (HandlerTask.setState l { l.task.state with deferredThrow := some e })) :=
    (hdefer e l).trans (rescheduleOrAbort faults _)
  cases y with
  | none => exact rescheduleOrAbort faults l
  | object typeName => exact hbad _ l
  | future f =>
    have hpark := parkOnFuture (t := t) faults f l
    simp only [HandlerTask.yieldStep]
    split <;> rename_i hcase <;> rw [hcase] at hpark
    · exact hpark.trans (Undecided.trans (applyCancelRequestedMidStep _) (leave faults _))
    · exact hpark.trans (hbad _ _)
    · exact hpark.trans (closeCoroutineQuietly true)

/-- A turn that does not end the task. -/
theorem resume {respond : Value → HandlerResponse} {input : Input}
    (hnone : endingOfInput respond l.task.phase input = none) :
    Undecided t l (resume respond faults t input l) := by
  cases hphase : l.task.phase <;> cases input <;>
    simp only [endingOfInput, hphase, reduceCtorEq] at hnone <;>
    simp only [HandlerTask.resume, hphase]
  case building.factoryReturned turn coroutine context => exact start faults turn _ _ l
  case stepping.yielded y => exact yieldStep faults y l
  all_goals exact .refl t l

/-- A turn that does not find its task cancelled. -/
theorem call {finishedFuture : Option FutureId}
    (hnone : cancelledUnstarted l.task.state = false) :
    Undecided t l (call faults t finishedFuture l) := by
  have htaken : Undecided t l (HandlerTask.setState l (turnTaken l.task.state)) :=
    setState rfl rfl rfl
  cases hfinished : l.task.state.finished with
  | true =>
    simp only [HandlerTask.call, hfinished, if_true]
    exact .refl t l
  | false =>
    simp only [HandlerTask.call, hfinished, Bool.false_eq_true, if_false]
    split
    · next hunbuilt =>
      have hcancel : l.task.state.mustCancel = false := by
        simpa [cancelledUnstarted, hfinished, hunbuilt] using hnone
      simp only [takeTurn, hcancel, Bool.false_eq_true, if_false]
      exact htaken.trans ⟨rfl, rfl, rfl, rfl, .inr ⟨.rfl, rfl⟩, fun t' _ => .refl t' _⟩
    · exact htaken.trans (advance faults _ _)

end Undecided

/-- A call on a task that its completion has nothing to do with. -/
structure Quiet (t : TaskId) (l l' : Local) : Prop extends Undecided t l l' where
  registry : l'.world.registered = l.world.registered
  operations : operations l'.world t = operations l.world t
  phase : l'.task.phase = l.task.phase
  coroutine : l'.task.state.coroutine = l.task.state.coroutine
  flag : l'.task.state.registeredWithAsyncio = l.task.state.registeredWithAsyncio

namespace Quiet

variable {t : TaskId} {l l' l'' : Local}

/-- No call is a quiet one. -/
theorem refl (t : TaskId) (l : Local) : Quiet t l l := ⟨.refl t l, rfl, rfl, rfl, rfl, rfl⟩

/-- Two quiet calls are quiet together. -/
theorem trans (h : Quiet t l l') (h' : Quiet t l' l'') : Quiet t l l'' :=
  ⟨h.toUndecided.trans h'.toUndecided, h'.registry.trans h.registry,
    h'.operations.trans h.operations, h'.phase.trans h.phase, h'.coroutine.trans h.coroutine,
    h'.flag.trans h.flag⟩

/-- A call is quiet that keeps the verdict, the callbacks, the flag and the coroutine of its task.
-/
theorem setState {st : TaskState} (hverdict : st.verdict = l.task.state.verdict)
    (hcallbacks : st.doneCallbacks = l.task.state.doneCallbacks)
    (hflag : st.registeredWithAsyncio = l.task.state.registeredWithAsyncio)
    (hcoroutine : st.coroutine = l.task.state.coroutine) : Quiet t l (setState l st) :=
  ⟨.setState hverdict hcallbacks hflag, rfl, rfl, rfl, hcoroutine, hflag⟩

/-- An observation that is no operation of a task is quiet. -/
theorem note {o : Observation} (ho : ∀ t', operates t' o = false) :
    Quiet t l (setWorld l (l.world.note o)) :=
  ⟨.note fun t' _ => ho t', rfl, (Aside.note (ho t)).operations, rfl, rfl, rfl⟩

/-- The cancellation of an awaited future is quiet. -/
theorem cancelAwaited (f : FutureId) (message : Option Value) :
    Quiet t l (setWorld l (l.world.cancelAwaited t f message)) := by
  refine ⟨.cancelAwaited f message, ?_, (Aside.cancelAwaited t f message).operations, rfl, rfl, rfl⟩
  simp only [setWorld_world, World.cancelAwaited, World.cancelFuture, World.note]
  split <;> rfl

/-- `cancel`, whatever its reply. -/
theorem cancel (message : Option Value) (l : Local) :
    Quiet t l (HandlerTask.cancel t message l).1 := by
  have hcount : Quiet t l (HandlerTask.setState l (countRequest message l.task.state)) :=
    setState rfl rfl rfl rfl
  have hcancel (l : Local) (f : FutureId) := cancelAwaited (t := t) (l := l) f message
  apply cancel_cases (P := fun r => Quiet t l r.1)
  · intro _
    exact .refl t l
  · intro f _ _ _
    exact hcount.trans (hcancel _ f)
  · intro f _ _ _
    exact (hcancel l f).trans (setState rfl rfl rfl rfl)
  · intro _ _
    exact setState rfl rfl rfl rfl

/-- `cancel` with the note of its reply. -/
theorem cancelTask {respond : Value → HandlerResponse} (message : Option Value) (l : Local) :
    Quiet t l (Loop.cancelTask (driver respond) t message l) :=
  (cancel message l).trans (note fun _ => rfl)

/-- `uncancel` with the note of what it returns. -/
theorem uncancelTask {respond : Value → HandlerResponse} (l : Local) :
    Quiet t l (Loop.uncancelTask (driver respond) t l) :=
  ⟨⟨rfl, rfl, rfl, rfl, .inr ⟨.rfl, rfl⟩, fun _ _ => .note rfl⟩, rfl,
    (Aside.note rfl).operations, rfl, rfl, rfl⟩

/-- `cancelling` with the note of what it returns. -/
theorem cancellingTask {respond : Value → HandlerResponse} (l : Local) :
    Quiet t l (Loop.cancellingTask (driver respond) t l) :=
  note (l := l) fun _ => rfl

/-- `set_name`. -/
theorem setNameOf (name : Value) (l : Local) : Quiet t l (Lifecycle.setNameOf name l) :=
  setState rfl rfl rfl rfl

end Quiet

end Rayo
