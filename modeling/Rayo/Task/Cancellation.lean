import Rayo.Task.PendingCancel

/-!
# Accepted cancellations

As long as no step returns and no turn is aborted while the flag is set, no request for cancellation
is lost in any run of the loop; the exit of a step that returns does not look at the flag.
-/

namespace Rayo.HandlerTask

open Asyncio World

/-- A request that `cancel` defers is in the flag when it returns. -/
theorem Kept.cancelTask {respond : Value → HandlerResponse} {t : TaskId} {l : Local}
    (h : Kept t l) (message : Option Value) :
    KeptTurn t l.world (Loop.cancelTask (driver respond) t message l) := by
  have hdeferred {l' : Local} (hunfinished : l.task.state.finished = false)
      (hmust : l'.task.state.mustCancel = true)
      (hfinished : l'.task.state.finished = l.task.state.finished)
      (hstored : l'.task.state.storedResult = l.task.state.storedResult)
      (hphase : l'.task.phase = l.task.phase) : Kept t l' :=
    ⟨fun _ => Or.inl ⟨hfinished.trans hunfinished, hmust⟩,
      fun hsome => by simp [hstored, h.storedResult hunfinished] at hsome,
      fun turn hbuilding => h.building turn (hphase ▸ hbuilding)⟩
  refine cancel_cases (P := fun r =>
      KeptTurn t l.world { r.1 with world := r.1.world.note (.cancelReturned t r.2) })
    (fun hfinished => ?_) (fun f hunfinished _ haccepts => ?_)
    (fun f hunfinished _ _ => ?_) fun hunfinished _ => ?_
  · exact ⟨h.congr (owes_cancelReturned (by simp)) rfl rfl rfl rfl rfl h.building,
      .note rfl (by simp)⟩
  · refine ⟨⟨fun howes => ?_, fun hsome => ?_, h.building⟩, .absorbed haccepts⟩
    · simp [owes_cancelReturned, cancelAwaited_log, owes, owing, settles, haccepts] at howes
    · simp [countRequest, h.storedResult hunfinished] at hsome
  · exact ⟨hdeferred hunfinished rfl rfl rfl rfl, .trans .cancelAwaited (.note rfl (by simp))⟩
  · exact ⟨hdeferred hunfinished rfl rfl rfl rfl, .note rfl (by simp)⟩

/-- A cancellation that is taken back leaves what is owed to its task. -/
theorem Kept.uncancelTask {respond : Value → HandlerResponse} {t : TaskId} {l : Local}
    (h : Kept t l) : KeptTurn t l.world (Loop.uncancelTask (driver respond) t l) := by
  refine ⟨⟨fun howes => ?_, fun hsome => ?_, h.building⟩, .note rfl (by simp)⟩
  · by_cases hzero : l.task.state.cancelRequests - 1 = 0
    · simp [Loop.uncancelTask, driver, World.note, owes, owing, settles, HandlerTask.uncancel,
        hzero] at howes
    · have hbefore : owes t l.world.log = true := by
        simpa [Loop.uncancelTask, driver, World.note, owes, owing, settles, HandlerTask.uncancel,
          hzero] using howes
      simpa [Loop.uncancelTask, driver, HandlerTask.uncancel, hzero, endedByException] using!
        h.owed hbefore
  · obtain ⟨hfinished, hmust⟩ := h.returned hsome
    exact ⟨hfinished, by simp [Loop.uncancelTask, driver, HandlerTask.uncancel, hmust]⟩

/-- An observation that says nothing about a request leaves what is owed. -/
theorem Kept.note {t : TaskId} {l : Local} {o : Observation} (h : Kept t l)
    (ho : subject o = t) (howing : owing t o = none) (habsorbed : o ≠ .cancelReturned t .absorbed) :
    KeptTurn t l.world { l with world := l.world.note o } :=
  ⟨h.congr (by simp [World.note, owes, howing]) rfl rfl rfl rfl rfl h.building,
    .note ho habsorbed⟩

/-- The discipline under which no request is lost: while one is pending on a task, no step of
it returns, no closed coroutine of it is given up, and entering it does not fail. -/
def sparesCancel (s : Loop LoopHandles HandlerTask) : Event → Bool
  | .run faults => match s.world.ready with
    | .step t _ :: _ | .wake t _ :: _ => (s.tasks t).all fun k =>
        !(k.state.coroutine.isSome && k.state.mustCancel &&
          (faults.enterTask || faults.enterContext))
    | _ => true
  | .resume _ input => match s.running with
    | some t => (s.tasks t).all fun k => !(k.state.mustCancel && abandons input)
    | none => true
  | .act _ => true

/-- Every task of the loop keeps what is owed to it. -/
structure Keeping (s : Loop LoopHandles HandlerTask) : Prop where
  wakeful : Wakeful s
  kept : ∀ t k, s.tasks t = some k → Kept t ⟨s.world, k⟩
  absent : ∀ t, s.tasks t = none → owes t s.world.log = false
  grounded : grounded s.world.log = true

namespace Keeping

variable {s : Loop LoopHandles HandlerTask} {t : TaskId}

/-- One task moves on, and the log with it. -/
theorem put (h : Keeping s) {l : Local} (hturn : KeptTurn t s.world l)
    {s' : Loop LoopHandles HandlerTask} (hwakeful : Wakeful s') (hworld : s'.world = l.world)
    (htasks : s'.tasks = Function.update s.tasks t (some l.task)) : Keeping s' := by
  refine ⟨hwakeful, fun t' k hk => ?_, fun t' hk => ?_, ?_⟩
  · rw [htasks] at hk
    by_cases ht : t' = t
    · subst ht
      rw [Function.update_self, Option.some.injEq] at hk
      exact hworld ▸ hk ▸ hturn.kept
    · rw [Function.update_of_ne ht] at hk
      have hold := h.kept t' k hk
      exact hold.congr (by rw [hworld]; exact hturn.framed.owes t' ht) rfl rfl rfl rfl rfl
        hold.building
  · rw [htasks] at hk
    by_cases ht : t' = t
    · simp [ht] at hk
    · rw [Function.update_of_ne ht] at hk
      rw [hworld, hturn.framed.owes t' ht, h.absent t' hk]
  · exact hworld ▸ hturn.framed.grounded h.grounded

/-- The log is as it was, and so is every task. -/
theorem congr (h : Keeping s) {s' : Loop LoopHandles HandlerTask} (hwakeful : Wakeful s')
    (hlog : s'.world.log = s.world.log) (htasks : s'.tasks = s.tasks) : Keeping s' :=
  ⟨hwakeful, fun t k hk => (h.kept t k (htasks ▸ hk)).congr (by rw [hlog]) rfl rfl rfl rfl rfl
      (h.kept t k (htasks ▸ hk)).building,
    fun t hk => by rw [hlog]; exact h.absent t (htasks ▸ hk), hlog ▸ h.grounded⟩

/-- A task that the loop drives. -/
theorem drive (h : Keeping s) {respond : Value → HandlerResponse} {w : World LoopHandles}
    {k : HandlerTask} {g : Local → Local} (htask : s.tasks t = some k) (hlog : w.log = s.world.log)
    (hwakeful : Wakeful (Loop.drive (driver respond) { s with world := w } t g))
    (hturn : KeptTurn t w (g ⟨w, k⟩)) :
    Keeping (Loop.drive (driver respond) { s with world := w } t g) := by
  refine h.put (hturn.after (.of_eq hlog)) hwakeful ?_ ?_ <;> simp [Loop.drive, htask, Loop.put]

/-- A call on a task. -/
theorem modify (h : Keeping s) {w : World LoopHandles} {g : Local → Local}
    (hlog : w.log = s.world.log)
    (hwakeful : Wakeful (({ s with world := w } : Loop LoopHandles HandlerTask).modify t g))
    (hturn : ∀ l, Kept t l → KeptTurn t l.world (g l)) :
    Keeping (({ s with world := w } : Loop LoopHandles HandlerTask).modify t g) := by
  cases htask : s.tasks t with
  | none =>
    exact h.congr hwakeful (by simp [Loop.modify, htask, hlog]) (by simp [Loop.modify, htask])
  | some k =>
    have hkept : Kept t ⟨w, k⟩ :=
      (h.kept t k htask).congr (by simp [hlog]) rfl rfl rfl rfl rfl (h.kept t k htask).building
    refine h.put ((hturn _ hkept).after (.of_eq hlog)) hwakeful ?_ ?_ <;>
      simp [Loop.modify, htask, Loop.put]

/-- What other code does on the loop keeps what is owed to every task. -/
theorem act (h : Keeping s) {respond : Value → HandlerResponse} (a : Action)
    (henabled : Loop.enabled (driver respond) s (.act a) = true)
    (hwakeful : Wakeful (s.actEffect (driver respond) a)) :
    Keeping (s.actEffect (driver respond) a) := by
  cases a with
  | schedule t =>
    have howes := h.absent t (by simpa [Loop.enabled] using henabled)
    have hfresh : Kept t ⟨(accept t s.world).callSoon (.step t none), new⟩ := by
      refine ⟨fun howed => ?_, fun hsome => ?_, fun turn hphase => ?_⟩
      · exact absurd (howes.symm.trans howed) (by simp)
      · simp [new, TaskState.default] at hsome
      · cases hphase
    exact h.put ⟨hfresh, .of_eq rfl⟩ hwakeful rfl rfl
  | cancel t message => exact h.modify rfl hwakeful fun l hl => hl.cancelTask message
  | uncancel t => exact h.modify rfl hwakeful fun l hl => hl.uncancelTask
  | cancelling t =>
    exact h.modify rfl hwakeful fun l hl =>
      hl.note (o := .cancellingReturned t (cancelling l.task)) rfl (by simp [owing, settles])
        (by simp)
  | addDoneCallback t callback context =>
    refine h.modify rfl hwakeful fun l hl => ?_
    simp only [driver, addDoneCallback]
    split <;> exact ⟨hl.congr rfl rfl rfl rfl rfl rfl hl.building, .of_eq rfl⟩
  | removeDoneCallback t callback =>
    exact h.modify rfl hwakeful fun l hl =>
      ⟨hl.congr rfl rfl rfl rfl rfl rfl hl.building, .of_eq rfl⟩
  | cancelFuture f message =>
    refine h.congr hwakeful ?_ rfl
    simp only [Loop.actEffect, cancelFuture]
    split <;> rfl
  | postCancel | complete | setBlocking | setCancelMode => exact h.congr hwakeful rfl rfl

/-- **One event.** -/
theorem effect (h : Keeping s) {respond : Value → HandlerResponse} {e : Event}
    (hallowed : sparesCancel s e = true)
    (henabled : Loop.enabled (driver respond) s e = true) :
    Keeping (Loop.effect (driver respond) s e) := by
  have hwakeful := h.wakeful.effect henabled
  cases e with
  | act a => exact h.act a henabled hwakeful
  | run faults =>
    simp only [Loop.effect] at hwakeful ⊢
    split at hwakeful
    · exact h
    next head rest hready =>
    have hcall (t : TaskId) (f : Option FutureId) (hwakes : head.wakes t = true)
        (hwakeful : Wakeful (Loop.drive (driver respond)
          { s with world := { s.world with ready := rest } } t (HandlerTask.call faults t f)))
        (hallowed : (s.tasks t).all (fun k => !(k.state.coroutine.isSome && k.state.mustCancel &&
          (faults.enterTask || faults.enterContext))) = true) :
        Keeping (Loop.drive (driver respond)
          { s with world := { s.world with ready := rest } } t (HandlerTask.call faults t f)) := by
      cases htask : s.tasks t with
      | none =>
        have hsome := ((h.wakeful.absent t htask).pop hready hwakes).1
        cases hsome
      | some k =>
        have hsourced := h.wakeful.tasks t k htask
        obtain ⟨source, hsource, -, hsome⟩ := hsourced.source
        obtain ⟨hphase, hunfinished⟩ := hsome.mp (hsource.pop hready hwakes).1
        have hkept : Kept t ⟨{ s.world with ready := rest }, k⟩ :=
          (h.kept t k htask).congr rfl rfl rfl rfl rfl rfl (h.kept t k htask).building
        refine h.drive htask rfl hwakeful (hkept.call faults f hunfinished hphase hsourced.paired
          fun hstarted hmust => ?_)
        have hnone : k.state.coroutine ≠ none := Option.isSome_iff_ne_none.mp hstarted
        have hflag : k.state.mustCancel = true := hmust
        simpa [htask, hnone, hflag] using hallowed
    cases head with
    | step t e =>
      exact hcall t none (by simp [Handle.wakes]) hwakeful
        (by simpa only [sparesCancel, hready] using hallowed)
    | wake t f =>
      exact hcall t (some f) (by simp [Handle.wakes]) hwakeful
        (by simpa only [sparesCancel, hready] using hallowed)
    | cancel t => exact h.modify rfl hwakeful fun l hl => hl.cancelTask none
    | doneCallback => exact h.congr hwakeful rfl rfl
  | resume faults input =>
    simp only [Loop.effect] at hwakeful ⊢
    split at hwakeful
    · next t hrunning =>
      obtain ⟨k, htask⟩ := Option.isSome_iff_exists.mp (h.wakeful.present t hrunning)
      have hbusy := (h.wakeful.running t k htask).mpr hrunning
      refine h.drive htask rfl hwakeful ((h.kept t k htask).resume faults input
        ((h.wakeful.tasks t k htask).unfinished hbusy) fun habandons => ?_)
      simpa [sparesCancel, hrunning, htask, habandons] using hallowed
    · exact h

/-- A fresh loop owes nothing to any task. -/
theorem of_fresh {respond : Value → HandlerResponse} (h : Loop.Fresh (driver respond) s) :
    Keeping s where
  wakeful := .of_fresh h
  kept t k ht := by simp [h.tasks t] at ht
  absent t _ := by simp [h.log, owes]
  grounded := by simp [h.log, HandlerTask.grounded]

/-- On every run that spares cancellations each task keeps what is owed to it. -/
theorem of_reachesUnder {respond : Value → HandlerResponse}
    (hreach : (Loop.system (driver respond)).ReachesUnder (fun s e => sparesCancel s e = true) s) :
    Keeping s :=
  hreach.invariant (fun _ => of_fresh) fun _ _ h hallowed henabled => h.effect hallowed henabled

end Keeping

/-- No cancellation that `cancel()` has accepted is lost. -/
structure CancellationsKept (s : Loop LoopHandles HandlerTask) : Prop where
  /-- The awaited future has accepted it, or it has been settled since, or it is pending, or the
  coroutine has ended by raising or as cancelled. -/
  kept : ∀ t k reply newer older, s.tasks t = some k → reply ≠ .finished →
    s.world.log = newer ++ .cancelReturned t reply :: older →
      (∃ f message rest, older = .futureCancelled t f message true :: rest) ∨
        (∃ o ∈ newer, settles t o = true) ∨
        (k.state.finished = false ∧ k.state.mustCancel = true) ∨
        endedByException k.state = true
  /-- No task returns with a request pending. -/
  returned : ∀ t k, s.tasks t = some k → k.state.storedResult.isSome = true →
    k.state.mustCancel = false

/-- An absorbed cancellation follows one that the awaited future has taken. -/
theorem absorbed_of_grounded {t : TaskId} {newer older : List Observation}
    (h : grounded (newer ++ .cancelReturned t .absorbed :: older) = true) :
    ∃ f message rest, older = .futureCancelled t f message true :: rest := by
  induction newer with
  | nil =>
    rcases older with _ | ⟨o, rest⟩
    · simp [grounded] at h
    · cases o <;> simp [grounded] at h
      next t' f message accepted =>
        obtain ⟨⟨rfl, rfl⟩, -⟩ := h
        exact ⟨f, message, rest, rfl⟩
  | cons o newer ih =>
    simp only [List.cons_append, grounded, Bool.and_eq_true] at h
    exact ih h.2

/-- **No cancellation is lost** in runs in which no task returns, or is aborted, while one is
pending on it. -/
theorem cancellationsKept_of_sparesCancel {respond : Value → HandlerResponse}
    {s : Loop LoopHandles HandlerTask}
    (hreach : (Loop.system (driver respond)).ReachesUnder (fun s e => sparesCancel s e = true) s) :
    CancellationsKept s := by
  have hkeeping := Keeping.of_reachesUnder hreach
  refine ⟨fun t k reply newer older htask hreply hlog => ?_, fun t k htask hsome =>
    ((hkeeping.kept t k htask).returned hsome).2⟩
  cases reply with
  | finished => exact absurd rfl hreply
  | absorbed => exact Or.inl (absorbed_of_grounded (hlog ▸ hkeeping.grounded))
  | deferred =>
    by_cases hsettled : ∃ o ∈ newer, settles t o = true
    · exact Or.inr (Or.inl hsettled)
    · have hquiet : ∀ o ∈ newer, settles t o = false := by simpa using hsettled
      have howes : owes t s.world.log = true := hlog ▸ owes_of_deferred hquiet
      exact Or.inr (Or.inr ((hkeeping.kept t k htask).owed howes))

/-- A handler cancels its own task in the middle of a step. -/
def selfCancelRun : List Event :=
  [.act (.schedule 0), .run .none, .resume .none (.factoryReturned 7 8), .act (.cancel 0 none)]

/-- The request of a step that yields is thrown in the next one. -/
theorem cancellationsKept_yieldingRun :
    ∃ s : Loop LoopHandles HandlerTask, s.world.log =
        [.threw 0 (.cancelledError none), .cancelReturned 0 .deferred, .sent 0] ∧
      CancellationsKept s := by
  have hexec : (((Loop.system (driver fun _ => .noContent)).restrict sparesCancel).exec
      (Loop.fresh (driver fun _ => .noContent) 0 awaitedFutures)
      (selfCancelRun ++ [.resume .none (.yielded .none), .run .none])).map (fun s =>
        decide (s.world.log =
          [.threw 0 (.cancelledError none), .cancelReturned 0 .deferred, .sent 0])) =
        some true := by decide
  obtain ⟨s, hs, hlog⟩ := Transition.System.exists_reachesUnder_of_exec
    (Loop.Fresh.fresh _ fun _ => rfl) hexec
  exact ⟨s, of_decide_eq_true hlog, cancellationsKept_of_sparesCancel hs⟩

/-- A step that returns loses a request that `cancel()` has just accepted: the task counts as
returned, not as cancelled, with the flag still set. -/
theorem returning_step_loses_cancellation :
    (∃ s : Loop LoopHandles HandlerTask, ∃ k,
        (Loop.system (driver fun _ => .noContent)).Reaches s ∧ s.tasks 0 = some k ∧
        s.world.log = [.cancelReturned 0 .deferred, .sent 0] ∧ k.state.finished = true ∧
        k.state.storedResult = some 5 ∧ k.state.finishedCancelled = false ∧
        k.state.mustCancel = true) ∧
      ¬ ∀ s, (Loop.system (driver fun _ => .noContent)).Reaches s → CancellationsKept s := by
  have hexec : (((Loop.system (driver fun _ => .noContent)).restrict fun _ _ => true).exec
      (Loop.fresh (driver fun _ => .noContent) 0 awaitedFutures)
      (selfCancelRun ++ [.resume .none (.returned 5)])).map (fun s =>
        decide (s.world.log = [.cancelReturned 0 .deferred, .sent 0] ∧
          (s.tasks 0).any (fun k => k.state.finished = true ∧ k.state.storedResult = some 5 ∧
            k.state.finishedCancelled = false ∧ k.state.mustCancel = true) = true)) =
        some true := by decide
  obtain ⟨s, hs, hend⟩ := Transition.System.exists_reaches_of_exec
    (Loop.Fresh.fresh _ fun _ => rfl) hexec
  obtain ⟨hlog, htask⟩ := of_decide_eq_true hend
  obtain ⟨k, hk, hstate⟩ := (Option.any_eq_true _ _).mp htask
  obtain ⟨hfinished, hresult, hcancelled, hmust⟩ := of_decide_eq_true hstate
  refine ⟨⟨s, k, hs, hk, hlog, hfinished, hresult, hcancelled, hmust⟩, fun hclaim => ?_⟩
  have hflag := (hclaim s hs).returned 0 k hk (by simp [hresult])
  simp [hmust] at hflag

end Rayo.HandlerTask
