import Rayo.Fifo
import Rayo.Task.HandlerOutcome

/-!
# No task starves

A coroutine is advanced only by a handle of its task, and whatever it yields, its next advance is
another handle, at the end of the queue. So a misbehaving coroutine cannot keep the loop thread
to itself: each turn of the loop advances one coroutine at most, and a task whose handle is queued
gets its turn after those in front of it.
-/

namespace Rayo

open Asyncio Asyncio.World HandlerTask

/-- The loop runs a handle. -/
def runsHandle : Event → Bool
  | .run _ => true
  | .resume .. | .act _ => false

/-- Handles are only added at the end of the queue. -/
def Queues (w w' : World LoopHandles) : Prop := w.ready <+: w'.ready

/-- Whatever happens on the loop, handles are only added at the end. -/
theorem queues_footprint : LoopFootprint Queues where
  trans := List.IsPrefix.trans
  elsewhere _ _ hready _ _ := by rw [Queues, hready]
  note _ _ _ := List.prefix_rfl
  step _ _ _ := List.prefix_rfl
  callSoon _ _ _ := List.prefix_append _ _
  setBlocking _ _ _ := List.prefix_rfl
  addDoneCallback w f t := by
    unfold World.addDoneCallback
    split
    · exact List.prefix_rfl
    · exact List.prefix_append _ _
  cancelFuture w f message := by
    unfold World.cancelFuture
    split
    · exact List.prefix_append _ _
    · exact List.prefix_rfl
  complete _ _ _ := List.prefix_append _ _
  setCancelMode _ _ _ := List.prefix_rfl

section

variable {respond : Value → HandlerResponse} {s : Loop LoopHandles HandlerTask}

/-- Handles are run in the order in which they were queued. -/
theorem loop_fifo :
    (Loop.system (driver respond)).Fifo (fun s => s.world.ready) runsHandle where
  serve s e henabled hruns := by
    cases e with
    | resume faults input => cases hruns
    | act a => cases hruns
    | run faults =>
      simp only [Loop.system, Loop.enabled, Bool.and_eq_true] at henabled
      cases hready : s.world.ready with
      | nil => simp [hready] at henabled
      | cons oldest rest =>
        refine ⟨oldest, rest, rfl, ?_⟩
        simp only [Loop.system, Loop.effect, hready]
        exact queues_footprint.runHandle oldest
          (s := { s with world := { s.world with ready := rest } })
  keep s e _ hruns := by
    cases e with
    | run faults => cases hruns
    | act a => exact queues_footprint.act a
    | resume faults input => exact queues_footprint.resumeRunning input

end

/-- How often coroutines have been advanced. -/
def advanceCount (w : World LoopHandles) : ℕ := w.log.countP advances

/-- The coroutine of a turn that has begun is still being built. -/
def owesAdvance (k : HandlerTask) : ℕ :=
  match k.phase with
  | .building _ => 1
  | .idle | .stepping | .closing _ => 0

/-- An idle task owes no advance. -/
theorem owesAdvance_of_idle {k : HandlerTask} (hidle : k.phase = .idle) : owesAdvance k = 0 := by
  rw [owesAdvance, hidle]

/-- No coroutine has been advanced. -/
def Steady (w w' : World LoopHandles) : Prop := advanceCount w' = advanceCount w

/-- Whatever a task does outside its coroutine, no coroutine is advanced. -/
theorem steady_footprint : Footprint Steady where
  trans h h' := Eq.trans h' h
  elsewhere _ _ _ hlog _ := by rw [Steady, advanceCount, hlog, advanceCount]
  note w o ho := by simp [Steady, advanceCount, World.note, ho]
  callSoon _ _ _ := rfl
  setBlocking _ _ _ := rfl
  addDoneCallback w f t := by
    unfold World.addDoneCallback
    split <;> rfl
  cancelFuture w f message := by
    unfold World.cancelFuture
    split <;> rfl

section

variable {t : TaskId} {l : HandlerTask.Local} {faults : Faults}

/-- An advance is one advance, and the coroutine is built by then. -/
theorem advance_counted (faults : Faults) (t : TaskId) (turn : Turn) (l : HandlerTask.Local) :
    advanceCount (advance faults t turn l).world ≤ advanceCount l.world + 1 ∧
      owesAdvance (advance faults t turn l).task = 0 := by
  unfold advance
  dsimp only
  split
  · split
    · exact ⟨Nat.le_succ _, rfl⟩
    split
    · split <;> exact ⟨Nat.le_succ _, rfl⟩
    · refine ⟨?_, rfl⟩
      cases hpending : pendingThrow l.world turn <;>
        simp [stepCoroutine, advanceCount, World.note, List.countP_cons, advances, setWorld,
          setPhase, World.enterTask, World.enterContext]
  · exact ⟨by simp [advanceCount, World.note, advances, setPhase, setWorld], rfl⟩

/-- A handle of a task advances its coroutine at most once, perhaps when it is built. -/
theorem call_counted (finishedFuture : Option FutureId) (hidle : l.task.phase = .idle) :
    advanceCount (call faults t finishedFuture l).world +
        owesAdvance (call faults t finishedFuture l).task ≤ advanceCount l.world + 1 := by
  cases hcancelled : cancelledUnstarted l.task.state with
  | true =>
    rw [call_of_cancelledUnstarted hcancelled hidle, owesAdvance_of_idle endTurn_phase]
    have hsteady : Goes Steady l (endTurn faults false (finish faults t .internalError
        (.cancelled l.task.state.cancelMessage) (setState l (turnTaken l.task.state)))) :=
      steady_footprint.goes_trans (steady_footprint.setState _)
        (steady_footprint.goes_trans (steady_footprint.finish _ _ _)
          (steady_footprint.endTurn _ _))
    have heq : advanceCount _ = advanceCount l.world := hsteady
    omega
  | false =>
    unfold call
    dsimp only
    split
    · rw [owesAdvance_of_idle hidle]
      exact Nat.le_succ _
    split
    · next hopen hunbuilt =>
      have hnocancel : l.task.state.mustCancel = false := by
        simpa [cancelledUnstarted, hopen, hunbuilt] using hcancelled
      simp only [takeTurn, hnocancel, Bool.false_eq_true, if_false]
      exact le_rfl
    · obtain ⟨hcount, howes⟩ := advance_counted faults t
        (takeTurn finishedFuture l.task.state) (setState l (turnTaken l.task.state))
      rw [howes]
      exact hcount

/-- A coroutine that has yielded owes no advance. -/
theorem yieldStep_owes (y : Yielded) : owesAdvance (yieldStep faults t y l).task = 0 := by
  have hreschedule (l : HandlerTask.Local) :
      owesAdvance (rescheduleOrAbort faults t l).task = 0 := by
    rcases (reschedule_leaves faults t l).2 with hidle | ⟨entered, hclosing, -⟩
    · exact owesAdvance_of_idle hidle
    · simp [owesAdvance, hclosing]
  cases y with
  | none => exact hreschedule l
  | object typeName => exact hreschedule _
  | future f =>
    simp only [yieldStep]
    split
    · rw [leave_task]
      rfl
    · exact hreschedule _
    · rfl

/-- Control that comes back advances a coroutine only if it brings the coroutine. -/
theorem resume_counted (respond : Value → HandlerResponse) (faults : Faults) (t : TaskId)
    (input : Input) (l : HandlerTask.Local) :
    advanceCount (HandlerTask.resume respond faults t input l).world +
        owesAdvance (HandlerTask.resume respond faults t input l).task ≤
      advanceCount l.world + owesAdvance l.task := by
  cases hending : endingOfInput respond l.task.phase input with
  | some ending =>
    rw [resume_of_ending hending, owesAdvance_of_idle endTurn_phase]
    have hsteady : Goes Steady l (endTurn faults ending.entered
        (finish faults t ending.response ending.completion l)) :=
      steady_footprint.goes_trans (steady_footprint.finish _ _ _) (steady_footprint.endTurn _ _)
    have heq : advanceCount _ = advanceCount l.world := hsteady
    omega
  | none =>
    cases hphase : l.task.phase <;> cases input <;>
      simp only [endingOfInput, hphase, reduceCtorEq] at hending <;>
      simp only [HandlerTask.resume, hphase, le_refl]
    case building.factoryReturned turn coroutine context =>
      have howes : owesAdvance l.task = 1 := by rw [owesAdvance, hphase]
      rw [howes]
      cases hfault : faults.contextCopy with
      | true =>
        have hstart : start faults t turn coroutine context l = closeCoroutineQuietly false l := by
          simp [start, hfault]
        rw [hstart]
        exact Nat.le_succ _
      | false =>
        obtain ⟨l₁, hstart, hsame⟩ : ∃ l₁ : HandlerTask.Local,
            start faults t turn coroutine context l = advance faults t turn l₁ ∧
              advanceCount l₁.world = advanceCount l.world := by
          refine ⟨_, by rw [start, if_neg (by simp [hfault])], ?_⟩
          split <;> rfl
        obtain ⟨hcount, hzero⟩ := advance_counted faults t turn l₁
        rw [hstart, hzero, ← hsame]
        exact hcount
    case stepping.yielded y =>
      have hsteady : advanceCount (yieldStep faults t y l).world = advanceCount l.world :=
        steady_footprint.yieldStep y l
      rw [hsteady, yieldStep_owes]
      exact Nat.le_add_right _ _

end

/-- The advance that the running task still owes. -/
def advanceDue (s : Loop LoopHandles HandlerTask) : ℕ :=
  match s.running with
  | some t => ((s.tasks t).map owesAdvance).getD 0
  | none => 0

section

variable {respond : Value → HandlerResponse} {s s' : Loop LoopHandles HandlerTask}

/-- Only the running task can owe an advance. -/
theorem advanceDue_drive {t : TaskId} {k : HandlerTask} {w : World LoopHandles}
    {g : HandlerTask.Local → HandlerTask.Local} (htask : s.tasks t = some k) :
    advanceDue (Loop.drive (driver respond) { s with world := w } t g) =
      owesAdvance (g ⟨w, k⟩).task := by
  simp only [Loop.drive, htask, advanceDue]
  by_cases hphase : (g ⟨w, k⟩).task.phase = .idle
  · simp [driver, hphase, owesAdvance_of_idle hphase]
  · simp [driver, hphase, Loop.put]

/-- A turn does to the world what its task does. -/
theorem world_drive {t : TaskId} {k : HandlerTask} {w : World LoopHandles}
    {g : HandlerTask.Local → HandlerTask.Local} (htask : s.tasks t = some k) :
    (Loop.drive (driver respond) { s with world := w } t g).world = (g ⟨w, k⟩).world := by
  simp [Loop.drive, htask, Loop.put]

/-- A call on a task that leaves its phase alone. -/
theorem modify_counted {t : TaskId} {g : HandlerTask.Local → HandlerTask.Local}
    (hsteady : ∀ l, Goes Steady l (g l)) (hphase : ∀ l, (g l).task.phase = l.task.phase) :
    advanceCount (s.modify t g).world + advanceDue (s.modify t g) =
      advanceCount s.world + advanceDue s := by
  unfold Loop.modify
  split
  · next k hk =>
    have hcount : advanceCount (g ⟨s.world, k⟩).world = advanceCount s.world := hsteady _
    have hdue : advanceDue (s.put t (g ⟨s.world, k⟩)) = advanceDue s := by
      simp only [advanceDue, Loop.put]
      split
      · next t' _ =>
        by_cases ht : t' = t
        · subst ht
          simp [hk, owesAdvance, hphase]
        · rw [Function.update_of_ne ht]
      · rfl
    rw [hdue]
    exact congrArg (· + advanceDue s) hcount
  · rfl

/-- A cancellation neither advances a coroutine nor makes an advance due. -/
theorem cancelTask_counted (respond : Value → HandlerResponse) (s : Loop LoopHandles HandlerTask)
    (t : TaskId) (message : Option Value) :
    advanceCount (s.modify t (Loop.cancelTask (driver respond) t message)).world +
        advanceDue (s.modify t (Loop.cancelTask (driver respond) t message)) =
      advanceCount s.world + advanceDue s :=
  modify_counted (fun l => steady_footprint.trans (steady_footprint.cancel message l)
    (steady_footprint.note _ _ rfl)) fun l => cancel_phase t message l

/-- **One turn, one advance.** -/
theorem effect_counted (hwakeful : Wakeful s) {e : Event}
    (henabled : Loop.enabled (driver respond) s e = true) :
    advanceCount (Loop.effect (driver respond) s e).world +
        advanceDue (Loop.effect (driver respond) s e) ≤
      advanceCount s.world + advanceDue s + if runsHandle e then 1 else 0 := by
  cases e with
  | resume faults input =>
    simp only [Loop.enabled] at henabled
    split at henabled
    · next t hrunning =>
      obtain ⟨k, hk, -⟩ := (Option.any_eq_true _ _).mp henabled
      rw [effect_resume hrunning]
      have hdue : advanceDue s = owesAdvance k := by simp [advanceDue, hrunning, hk]
      have hcounted := resume_counted respond faults t input ⟨s.world, k⟩
      rw [world_drive hk, advanceDue_drive hk, hdue]
      simpa [runsHandle] using hcounted
    · cases henabled
  | run faults =>
    simp only [Loop.enabled, Bool.and_eq_true, Option.isNone_iff_eq_none] at henabled
    have hnothing : advanceDue s = 0 := by simp [advanceDue, henabled.1]
    cases hready : s.world.ready with
    | nil => simp [hready] at henabled
    | cons head rest =>
      have hcall {t : TaskId} (hwakes : head.wakes t = true) (f : Option FutureId) :
          advanceCount (Loop.drive (driver respond)
              { s with world := { s.world with ready := rest } } t (call faults t f)).world +
            advanceDue (Loop.drive (driver respond)
              { s with world := { s.world with ready := rest } } t (call faults t f)) ≤
            advanceCount s.world + 1 := by
        obtain ⟨k, hk, hidle, -, -⟩ := hwakeful.stepped hready hwakes
        rw [world_drive hk, advanceDue_drive hk]
        exact call_counted f hidle
      simp only [Loop.effect, hready, hnothing, runsHandle, if_true, Nat.add_zero]
      cases head with
      | step t e => exact hcall (by simp [Handle.wakes]) none
      | wake t f => exact hcall (by simp [Handle.wakes]) (some f)
      | cancel t =>
        have hcounted := cancelTask_counted respond
          { s with world := { s.world with ready := rest } } t none
        have hdue : advanceDue { s with world := { s.world with ready := rest } } = 0 := hnothing
        rw [hdue] at hcounted
        exact hcounted.le.trans (Nat.le_succ _)
      | doneCallback =>
        have hdue : advanceDue { s with world := { s.world with ready := rest } } = 0 := hnothing
        simp only [Loop.runHandle, hdue]
        exact Nat.le_succ _
  | act a =>
    refine le_of_eq ?_
    simp only [runsHandle, Bool.false_eq_true, if_false, Nat.add_zero, Loop.effect]
    cases a with
    | schedule t =>
      have habsent : s.tasks t = none := by simpa [Loop.enabled] using henabled
      have hdue : advanceDue (s.actEffect (driver respond) (.schedule t)) = advanceDue s := by
        simp only [advanceDue, Loop.actEffect]
        split
        · next t' hrunning =>
          have ht : t' ≠ t := by
            rintro rfl
            simpa [habsent] using hwakeful.present t' hrunning
          rw [Function.update_of_ne ht]
        · rfl
      rw [hdue]
      rfl
    | cancel t message => exact cancelTask_counted respond s t message
    | uncancel t =>
      exact modify_counted (fun l => steady_footprint.note _ _ rfl) fun _ => rfl
    | cancelling t =>
      exact modify_counted (fun l => steady_footprint.note _ _ rfl) fun _ => rfl
    | addDoneCallback t callback context =>
      refine modify_counted (steady_footprint.addTaskCallback callback context) fun l => ?_
      simp only [driver, HandlerTask.addDoneCallback]
      split <;> rfl
    | removeDoneCallback t callback =>
      exact modify_counted (fun l => steady_footprint.refl l) fun _ => rfl
    | cancelFuture f message =>
      exact congrArg (· + advanceDue s) (steady_footprint.cancelFuture s.world f message)
    | postCancel | complete | setBlocking | setCancelMode => rfl

/-- Coroutines are advanced at most as often as the loop runs handles. -/
theorem advances_le_runs {es : List Event} (hreach : (Loop.system (driver respond)).Reaches s)
    (hexec : (Loop.system (driver respond)).exec s es = some s') :
    advanceCount s'.world + advanceDue s' ≤
      advanceCount s.world + advanceDue s + es.countP runsHandle := by
  induction es generalizing s with
  | nil =>
    simp only [Transition.System.exec, Option.some.injEq] at hexec
    simp [hexec]
  | cons e es ih =>
    simp only [Transition.System.exec, Option.ite_none_right_eq_some] at hexec
    have hstep := effect_counted (Wakeful.of_reaches hreach) hexec.1
    have hrest := ih (.step hreach trivial hexec.1) hexec.2
    simp only [Loop.system] at hrest
    rw [List.countP_cons]
    omega

/-- A task that gets its turn gets control, or was cancelled before it had any. -/
theorem call_takes_turn {t : TaskId} {l : HandlerTask.Local} {faults : Faults}
    {f : Option FutureId} (hopen : l.task.state.finished = false)
    (hpaired : l.task.state.coroutine.isSome = l.task.state.context.isSome) :
    (call faults t f l).task.phase ≠ .idle ∨
      (call faults t f l).task.state.finished = true := by
  unfold call
  simp only [hopen, Bool.false_eq_true, if_false]
  split
  · split
    · right
      have hfinished := finish_task faults t .internalError
        (.cancelled (takeTurn f l.task.state).cancelMessage)
        (l := setState l (turnTaken l.task.state)) hopen
      rw [hfinished.1, complete_finished]
    · exact .inl (by simp)
  · next hbuilt =>
    left
    have hstarted : (setState l (turnTaken l.task.state)).task.state.coroutine.isSome = true := by
      simpa [turnTaken, Option.isSome_iff_ne_none] using hbuilt
    rcases (advance_hands faults t (takeTurn f l.task.state) hstarted hpaired).2 with
      ⟨entered, hclosing, -⟩ | ⟨hstepping, -⟩
    · simp [hclosing]
    · simp [hstepping]

/-- The handle at the head of the queue gives its task the turn. -/
theorem run_takes_turn (hwakeful : Wakeful s) {t : TaskId} {head : Handle} {faults : Faults}
    (hhead : s.world.ready.head? = some head) (hwakes : head.wakes t = true) :
    (Loop.effect (driver respond) s (.run faults)).running = some t ∨
      ((Loop.effect (driver respond) s (.run faults)).tasks t).any (·.state.finished) = true := by
  obtain ⟨rest, hready⟩ : ∃ rest, s.world.ready = head :: rest := by
    cases hready : s.world.ready with
    | nil => simp [hready] at hhead
    | cons h rest =>
      obtain rfl : h = head := by simpa [hready] using hhead
      exact ⟨rest, rfl⟩
  obtain ⟨k, htask, hidle, hopen, -⟩ := hwakeful.stepped hready hwakes
  have hturn (f : Option FutureId) :
      (call faults t f ⟨{ s.world with ready := rest }, k⟩).task.phase ≠ .idle ∨
        (call faults t f ⟨{ s.world with ready := rest }, k⟩).task.state.finished = true :=
    call_takes_turn hopen (hwakeful.tasks t k htask).paired
  have hdrive (f : Option FutureId) :
      (Loop.drive (driver respond) { s with world := { s.world with ready := rest } } t
          (call faults t f)).running = some t ∨
        ((Loop.drive (driver respond) { s with world := { s.world with ready := rest } } t
          (call faults t f)).tasks t).any (·.state.finished) = true := by
    rcases hturn f with hbusy | hfinished
    · exact .inl (by simp [Loop.drive, htask, driver, hbusy])
    · exact .inr (by simpa [Loop.drive, htask, Loop.put] using hfinished)
  simp only [Loop.effect, hready]
  cases head with
  | step t' e =>
    obtain rfl : t' = t := by simpa [Handle.wakes] using hwakes
    exact hdrive none
  | wake t' f =>
    obtain rfl : t' = t := by simpa [Handle.wakes] using hwakes
    exact hdrive (some f)
  | cancel t' => cases hwakes
  | doneCallback => cases hwakes

/-- **No task starves.** Between callbacks, an unfinished task that does not wait for a pending
future has a handle in the queue that wakes it. However the run goes on, it gets its turn as soon as
the loop has run the handles in front of that one, and until then at most as many coroutines have
been advanced. -/
theorem no_task_starves (hreach : (Loop.system (driver respond)).Reaches s)
    (hbetween : s.running = none) {t : TaskId} {k : HandlerTask} (htask : s.tasks t = some k)
    (hopen : k.state.finished = false) :
    (∃ f, k.state.waitingOn = some f ∧ (s.world.futures f).status = .pending ∧
      (s.world.futures f).callbacks.count t = 1) ∨
    ∃ i handle, s.world.ready[i]? = some handle ∧ handle.wakes t = true ∧
      ∀ es s', (Loop.system (driver respond)).exec s es = some s' → i < es.countP runsHandle →
        ∃ es₁ faults es₂ s₁, es = es₁ ++ .run faults :: es₂ ∧
          (Loop.system (driver respond)).exec s es₁ = some s₁ ∧
          advanceCount s₁.world ≤ advanceCount s.world + i ∧
          ((Loop.effect (driver respond) s₁ (.run faults)).running = some t ∨
            ((Loop.effect (driver respond) s₁ (.run faults)).tasks t).any (·.state.finished) =
              true) := by
  have hwakeful := Wakeful.of_reaches hreach
  have hserved {handle : Handle} {i : ℕ} (hi : s.world.ready[i]? = some handle)
      (hwakes : handle.wakes t = true) (es : List Event) (s' : Loop LoopHandles HandlerTask)
      (hexec : (Loop.system (driver respond)).exec s es = some s')
      (hcount : i < es.countP runsHandle) : ∃ es₁ faults es₂ s₁, es = es₁ ++ .run faults :: es₂ ∧
        (Loop.system (driver respond)).exec s es₁ = some s₁ ∧
        advanceCount s₁.world ≤ advanceCount s.world + i ∧
        ((Loop.effect (driver respond) s₁ (.run faults)).running = some t ∨
          ((Loop.effect (driver respond) s₁ (.run faults)).tasks t).any (·.state.finished) =
            true) := by
    obtain ⟨es₁, e, es₂, s₁, rfl, hruns, hbefore, hs₁, -, hhead⟩ :=
      loop_fifo.served hexec hi hcount
    obtain ⟨faults, rfl⟩ : ∃ faults, e = .run faults := by
      cases e with
      | run faults => exact ⟨faults, rfl⟩
      | resume faults input => cases hruns
      | act a => cases hruns
    have hcounted := advances_le_runs hreach hs₁
    have hnothing : advanceDue s = 0 := by simp [advanceDue, hbetween]
    refine ⟨es₁, faults, es₂, s₁, rfl, hs₁, by omega, ?_⟩
    exact run_takes_turn (Wakeful.of_reaches (hreach.exec hs₁)) hhead hwakes
  refine (hwakeful.waits hbetween htask hopen).imp_right fun ⟨handle, hmem, hwakes⟩ => ?_
  obtain ⟨i, hi⟩ := List.mem_iff_getElem?.mp hmem
  exact ⟨i, handle, hi, hwakes, hserved hi hwakes⟩

end

/-- Two tasks are scheduled. -/
def twoScheduled : List Event := [.act (.schedule 0), .act (.schedule 1)]

/-- The second of two scheduled tasks gets its turn after the first one. -/
theorem no_task_starves_twoScheduled :
    ∃ (s : Loop LoopHandles HandlerTask) (k : HandlerTask), s.tasks 1 = some k ∧
      ∃ i handle, s.world.ready[i]? = some handle ∧ handle.wakes 1 = true ∧ ∀ es s',
        (Loop.system (driver fun _ => .noContent)).exec s es = some s' → i < es.countP runsHandle →
          ∃ es₁ faults es₂ s₁, es = es₁ ++ .run faults :: es₂ ∧
            (Loop.system (driver fun _ => .noContent)).exec s es₁ = some s₁ ∧
            advanceCount s₁.world ≤ advanceCount s.world + i ∧
            ((Loop.effect (driver fun _ => .noContent) s₁ (.run faults)).running = some 1 ∨
              ((Loop.effect (driver fun _ => .noContent) s₁ (.run faults)).tasks 1).any
                (·.state.finished) = true) := by
  have hexec : (((Loop.system (driver fun _ => .noContent)).restrict fun _ _ => true).exec
      (Loop.fresh (driver fun _ => .noContent) 0 awaitedFutures) twoScheduled).map (fun s =>
        decide (s.running = none ∧ (s.tasks 1).any (fun k =>
          k.state.waitingOn = none ∧ k.state.finished = false) = true)) = some true := by decide
  obtain ⟨s, hs, hend⟩ := Transition.System.exists_reaches_of_exec
    (Loop.Fresh.fresh _ fun _ => rfl) hexec
  obtain ⟨hbetween, htask⟩ := of_decide_eq_true hend
  obtain ⟨k, hk, hstate⟩ := (Option.any_eq_true _ _).mp htask
  obtain ⟨hwaiting, hunfinished⟩ := of_decide_eq_true hstate
  refine ⟨s, k, hk, ?_⟩
  rcases no_task_starves hs hbetween hk hunfinished with ⟨f, hparked, -⟩ | hqueued
  · simp [hwaiting] at hparked
  · exact hqueued

end Rayo
