import Rayo.Task.Completion

/-!
# What the operations of a task do to the data of their loop

The methods of a task change the data of their loop in a few ways only. A relation between the data
before and after that holds of each of these holds of the methods.
-/

namespace Rayo

open Asyncio HandlerTask

/-- The observation is an advance of a coroutine. -/
def advances : Observation → Bool
  | .sent _ | .threw .. | .threwUnstarted .. => true
  | _ => false

/-- The relation holds of whatever a task does to the data of its loop, short of advancing its
coroutine. -/
structure Footprint (R : World LoopHandles → World LoopHandles → Prop) : Prop where
  trans : ∀ {w w' w''}, R w w' → R w' w'' → R w w''
  /-- Neither the futures, nor the queue, nor the log have changed, and every response that has been
  sent is still there. -/
  elsewhere : ∀ {w w' : World LoopHandles}, w'.loop = w.loop → w'.futures = w.futures →
    w'.ready = w.ready → w'.log = w.log → w.shared.responses <:+ w'.shared.responses → R w w'
  note : ∀ w o, advances o = false → R w (w.note o)
  callSoon : ∀ w h, (∀ t f, h ≠ .wake t f) → R w (w.callSoon h)
  setBlocking : ∀ w f blocking, R w (w.setFuture f { w.futures f with blocking := blocking })
  addDoneCallback : ∀ w f t, R w (w.addDoneCallback f t)
  cancelFuture : ∀ w f message, R w (w.cancelFuture f message)

/-- The relation holds of an advance as well. -/
structure FullFootprint (R : World LoopHandles → World LoopHandles → Prop) : Prop extends
    Footprint R where
  step : ∀ w o, advances o = true → R w (w.note o)

/-- The relation holds of what other code on the loop does as well. -/
structure LoopFootprint (R : World LoopHandles → World LoopHandles → Prop) : Prop extends
    FullFootprint R where
  complete : ∀ w f status, R w (w.complete f status)
  setCancelMode : ∀ w f mode, R w (w.setFuture f { w.futures f with cancelMode := mode })

/-- The relation holds of what has been done to the data that a task shares. -/
def Goes (R : World LoopHandles → World LoopHandles → Prop) (l l' : HandlerTask.Local) : Prop :=
  R l.world l'.world

namespace Footprint

variable {R : World LoopHandles → World LoopHandles → Prop} {t : TaskId}
  {l l' l'' : HandlerTask.Local} {faults : Faults}

/-- A step that changes nothing stays within every footprint. -/
theorem refl (hR : Footprint R) (l : HandlerTask.Local) : Goes R l l :=
  hR.elsewhere rfl rfl rfl rfl List.suffix_rfl

/-- Two steps within a footprint are one. -/
theorem goes_trans (hR : Footprint R) (h : Goes R l l') (h' : Goes R l' l'') : Goes R l l'' :=
  hR.trans h h'

/-- What the driver records in its own state is within every footprint. -/
theorem setState (hR : Footprint R) (st : TaskState) : Goes R l (setState l st) :=
  hR.elsewhere rfl rfl rfl rfl List.suffix_rfl

/-- Where the turn of a task goes on is within every footprint. -/
theorem setPhase (hR : Footprint R) (phase : Phase) : Goes R l (setPhase l phase) :=
  hR.elsewhere rfl rfl rfl rfl List.suffix_rfl

/-- A sent response stays within a footprint. -/
theorem send (hR : Footprint R) (response : HandlerResponse) (l : HandlerTask.Local) :
    Goes R l (send t response l) := by
  unfold HandlerTask.send
  split
  · exact hR.elsewhere rfl rfl rfl rfl (List.suffix_cons _ _)
  · exact hR.refl _

/-- A task that deregisters stays within a footprint. -/
theorem unregister (hR : Footprint R) (wasRegistered : Bool) (w : World LoopHandles) :
    R w (unregister faults t wasRegistered w) := by
  rw [unregister_eq]
  exact hR.elsewhere rfl rfl rfl rfl List.suffix_rfl

/-- The callbacks that a task fires stay within a footprint. -/
theorem fireCallbacks (hR : Footprint R) (callbacks : List (Value × Value))
    (w : World LoopHandles) : R w (fireCallbacks faults t callbacks w) := by
  induction callbacks generalizing w with
  | nil => exact hR.elsewhere rfl rfl rfl rfl List.suffix_rfl
  | cons entry rest ih =>
    refine hR.trans ?_ (ih _)
    split
    · exact hR.elsewhere rfl rfl rfl rfl List.suffix_rfl
    · exact hR.callSoon w _ fun _ _ => by simp

/-- A task that finishes stays within a footprint. -/
theorem finish (hR : Footprint R) (response : HandlerResponse) (completion : CompletionKind)
    (l : HandlerTask.Local) : Goes R l (finish faults t response completion l) := by
  unfold HandlerTask.finish
  split
  · exact hR.send response l
  · refine hR.goes_trans ?_ (hR.send response _)
    exact hR.trans (hR.unregister _ _) (hR.fireCallbacks _ _)

/-- A task that leaves its context stays within a footprint. -/
theorem leave (hR : Footprint R) (faults : Faults) (l : HandlerTask.Local) :
    Goes R l (leave faults l) := by
  unfold HandlerTask.leave
  dsimp only
  split <;> split <;> exact hR.elsewhere rfl rfl rfl rfl List.suffix_rfl

/-- The end of a turn stays within a footprint. -/
theorem endTurn (hR : Footprint R) (entered : Bool) (l : HandlerTask.Local) :
    Goes R l (endTurn faults entered l) := by
  unfold HandlerTask.endTurn
  split
  · exact hR.leave faults l
  · exact hR.setPhase _

/-- A reschedule that may abort stays within it. -/
theorem rescheduleOrAbort (hR : Footprint R) (l : HandlerTask.Local) :
    Goes R l (rescheduleOrAbort faults t l) := by
  unfold HandlerTask.rescheduleOrAbort
  split
  · exact hR.setPhase _
  · have hqueued : Goes R l (setWorld l (l.world.callSoon (.step t none))) :=
      hR.callSoon _ _ fun _ _ => by simp
    exact hR.goes_trans hqueued (hR.leave faults _)

/-- A task that parks stays within a footprint. -/
theorem parkOnFuture (hR : Footprint R) (f : FutureId) (l : HandlerTask.Local) :
    Goes R l (parkOnFuture faults t f l).1 := by
  have hflag : Goes R l (setWorld l
      (l.world.setFuture f { l.world.futures f with blocking := false })) :=
    hR.setBlocking l.world f false
  unfold HandlerTask.parkOnFuture
  dsimp only
  split
  · exact hR.refl _
  split
  · exact hR.refl _
  split
  · exact hR.refl _
  split
  · exact hflag
  · exact hR.trans hflag (hR.addDoneCallback _ f t)

/-- The cancellation of an awaited future stays within a footprint. -/
theorem cancelAwaited (hR : Footprint R) (f : FutureId) (message : Option Value)
    (w : World LoopHandles) : R w (w.cancelAwaited t f message) :=
  hR.trans (hR.cancelFuture w f message) (hR.note _ _ rfl)

/-- A cancellation that was requested in mid-step stays within a footprint. -/
theorem applyCancelRequestedMidStep (hR : Footprint R) (l : HandlerTask.Local) :
    Goes R l (applyCancelRequestedMidStep t l) := by
  unfold HandlerTask.applyCancelRequestedMidStep
  split
  · dsimp only
    split <;> exact hR.cancelAwaited _ _ _
  · exact hR.refl _

/-- What becomes of a yielded value stays within a footprint. -/
theorem yieldStep (hR : Footprint R) (y : Yielded) (l : HandlerTask.Local) :
    Goes R l (yieldStep faults t y l) := by
  have hbad (e : Asyncio.Exception) (l : HandlerTask.Local) : Goes R l
      (HandlerTask.rescheduleOrAbort faults t
        (HandlerTask.setState l { l.task.state with deferredThrow := some e })) :=
    hR.goes_trans (hR.setState _) (hR.rescheduleOrAbort _)
  cases y with
  | none => exact hR.rescheduleOrAbort l
  | object typeName => exact hbad _ l
  | future f =>
    have hpark : Goes R l (HandlerTask.parkOnFuture faults t f l).1 := hR.parkOnFuture f l
    simp only [HandlerTask.yieldStep]
    split <;> rename_i hcase <;> rw [hcase] at hpark
    · exact hR.goes_trans hpark
        (hR.goes_trans (hR.applyCancelRequestedMidStep _) (hR.leave faults _))
    · exact hR.goes_trans hpark (hbad _ _)
    · exact hR.goes_trans hpark (hR.setPhase _)

/-- A task that is cancelled stays within a footprint. -/
theorem cancel (hR : Footprint R) (message : Option Value) (l : HandlerTask.Local) :
    Goes R l (cancel t message l).1 :=
  cancel_cases (P := fun r => Goes R l r.1) (fun _ => hR.refl _)
    (fun f _ _ _ => hR.cancelAwaited f message l.world)
    (fun f _ _ _ => hR.cancelAwaited f message l.world)
    fun _ _ => hR.elsewhere rfl rfl rfl rfl List.suffix_rfl

/-- A task that takes a callback stays within a footprint. -/
theorem addTaskCallback (hR : Footprint R) (callback context : Value) (l : HandlerTask.Local) :
    Goes R l (HandlerTask.addDoneCallback t callback context l) := by
  unfold HandlerTask.addDoneCallback
  split
  · exact hR.callSoon _ _ fun _ _ => by simp
  · exact hR.setState _

end Footprint

namespace FullFootprint

variable {R : World LoopHandles → World LoopHandles → Prop} {t : TaskId}
  {l : HandlerTask.Local} {faults : Faults}

/-- The advance of a coroutine stays within a full footprint. -/
theorem stepCoroutine (hR : FullFootprint R) (pending : Option Asyncio.Exception)
    (l : HandlerTask.Local) : Goes R l (stepCoroutine t pending l) := by
  cases pending with
  | none => exact hR.step _ _ rfl
  | some e => exact hR.step _ _ rfl

/-- A turn up to the advance of its coroutine stays within a full footprint. -/
theorem advance (hR : FullFootprint R) (turn : Turn) (l : HandlerTask.Local) :
    Goes R l (advance faults t turn l) := by
  have hentered : Goes R l (setWorld l (l.world.enterTask t)) :=
    hR.elsewhere rfl rfl rfl rfl List.suffix_rfl
  unfold HandlerTask.advance
  dsimp only
  split
  · split
    · exact hR.setPhase _
    split
    · refine hR.goes_trans hentered (hR.goes_trans ?_ (hR.setPhase _))
      split
      · exact hR.refl _
      · exact hR.elsewhere rfl rfl rfl rfl List.suffix_rfl
    · refine hR.goes_trans hentered (hR.goes_trans ?_ (hR.stepCoroutine _ _))
      exact hR.elsewhere rfl rfl rfl rfl List.suffix_rfl
  · exact hR.note _ _ rfl

/-- A first turn whose handler has returned its coroutine stays within a full footprint. -/
theorem start (hR : FullFootprint R) (turn : Turn) (coroutine context : Value)
    (l : HandlerTask.Local) : Goes R l (start faults t turn coroutine context l) := by
  unfold HandlerTask.start
  split
  · exact hR.setPhase _
  · refine hR.goes_trans ?_ (hR.advance turn _)
    split
    · exact hR.setState _
    · exact hR.elsewhere rfl rfl rfl rfl List.suffix_rfl

/-- A call of a task stays within a full footprint. -/
theorem call (hR : FullFootprint R) (finishedFuture : Option FutureId) (l : HandlerTask.Local) :
    Goes R l (call faults t finishedFuture l) := by
  unfold HandlerTask.call
  dsimp only
  split
  · exact hR.refl _
  refine hR.goes_trans (hR.setState (turnTaken l.task.state)) ?_
  split
  · split
    · exact hR.finish _ _ _
    · exact hR.elsewhere rfl rfl rfl rfl List.suffix_rfl
  · exact hR.advance _ _

/-- A turn that goes on stays within a full footprint. -/
theorem resume (hR : FullFootprint R) {respond : Value → HandlerResponse} (input : Input)
    (l : HandlerTask.Local) : Goes R l (HandlerTask.resume respond faults t input l) := by
  cases hending : endingOfInput respond l.task.phase input with
  | some ending =>
    rw [resume_of_ending hending]
    exact hR.goes_trans (hR.finish _ _ l) (hR.endTurn _ _)
  | none =>
    cases hphase : l.task.phase <;> cases input <;>
      simp only [endingOfInput, hphase, reduceCtorEq] at hending <;>
      simp only [HandlerTask.resume, hphase]
    case building.factoryReturned turn coroutine context => exact hR.start turn _ _ l
    case stepping.yielded y => exact hR.yieldStep y l
    all_goals exact hR.refl l

end FullFootprint

namespace LoopFootprint

variable {R : World LoopHandles → World LoopHandles → Prop} {t : TaskId}
  {respond : Value → HandlerResponse} {s : Loop LoopHandles HandlerTask}

/-- What happens on one task stays within a loop's footprint. -/
theorem modify (hR : LoopFootprint R) {g : HandlerTask.Local → HandlerTask.Local}
    (hg : ∀ l, Goes R l (g l)) : R s.world (s.modify t g).world := by
  unfold Loop.modify
  split
  · exact hg ⟨s.world, _⟩
  · exact hR.elsewhere rfl rfl rfl rfl List.suffix_rfl

/-- What a task does in its turn stays within the footprint of its loop. -/
theorem drive (hR : LoopFootprint R) {g : HandlerTask.Local → HandlerTask.Local}
    (hg : ∀ l, Goes R l (g l)) : R s.world (s.drive (driver respond) t g).world := by
  unfold Loop.drive
  split
  · exact hg ⟨s.world, _⟩
  · exact hR.elsewhere rfl rfl rfl rfl List.suffix_rfl

/-- The cancellation of a task stays within the footprint of its loop. -/
theorem cancelTask (hR : LoopFootprint R) (t : TaskId) (message : Option Value)
    (l : HandlerTask.Local) : Goes R l (Loop.cancelTask (driver respond) t message l) :=
  hR.trans (hR.cancel message l) (hR.note _ _ rfl)

/-- What other code does stays within the footprint of the loop. -/
theorem act (hR : LoopFootprint R) (a : Action) :
    R s.world (s.actEffect (driver respond) a).world := by
  cases a with
  | schedule t =>
    have haccepted : R s.world (accept t s.world) :=
      hR.elsewhere rfl rfl rfl rfl List.suffix_rfl
    exact hR.trans haccepted (hR.callSoon _ _ fun _ _ => by simp)
  | postCancel t => exact hR.callSoon _ _ fun _ _ => by simp
  | cancel t message => exact hR.modify (hR.cancelTask t message)
  | uncancel t => exact hR.modify fun l => hR.note _ _ rfl
  | cancelling t => exact hR.modify fun l => hR.note _ _ rfl
  | addDoneCallback t callback context =>
    exact hR.modify (hR.addTaskCallback callback context)
  | removeDoneCallback t callback => exact hR.modify fun l => hR.refl l
  | complete f status => exact hR.complete _ _ _
  | cancelFuture f message => exact hR.cancelFuture _ _ _
  | setBlocking f blocking => exact hR.setBlocking _ _ _
  | setCancelMode f mode => exact hR.setCancelMode _ _ _

/-- A handle that the loop runs stays within its footprint. -/
theorem runHandle (hR : LoopFootprint R) {faults : Faults} (head : Handle) :
    R s.world (Loop.runHandle (driver respond) faults s head).world := by
  cases head with
  | step t e => exact hR.drive (hR.call none)
  | wake t f => exact hR.drive (hR.call (some f))
  | cancel t => exact hR.modify (hR.cancelTask t none)
  | doneCallback => exact hR.elsewhere rfl rfl rfl rfl List.suffix_rfl

/-- A turn that the loop resumes stays within its footprint. -/
theorem resumeRunning (hR : LoopFootprint R) {faults : Faults} (input : Input) :
    R s.world (Loop.effect (driver respond) s (.resume faults input)).world := by
  simp only [Loop.effect]
  split
  · exact hR.drive (hR.resume input)
  · exact hR.elsewhere rfl rfl rfl rfl List.suffix_rfl

end LoopFootprint

end Rayo
