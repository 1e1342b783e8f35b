import Rayo.Task.WakeTurns

/-!
# Every unfinished task has exactly one wake source

Between callbacks every unfinished task has one queued handle or one registration on one future,
never both and never none, whatever is done with tasks and futures.
-/

namespace Rayo.HandlerTask

open Asyncio World

/-- A task stays sourced as long as its sources are kept and its state stays. -/
theorem Sourced.congr {t : TaskId} {l l' : Local} (h : Sourced t l)
    (hworld : l.world.Keeps l'.world t)
    (hwaiting : l'.task.state.waitingOn = l.task.state.waitingOn)
    (hfinished : l'.task.state.finished = l.task.state.finished)
    (hcoroutine : l'.task.state.coroutine = l.task.state.coroutine)
    (hcontext : l'.task.state.context = l.task.state.context)
    (hphase : l'.task.phase = l.task.phase)
    (hcalls : l'.task.factoryCalls = l.task.factoryCalls) : Sourced t l' := by
  obtain ⟨source, hsource, hfuture, hsome⟩ := h.source
  obtain ⟨source', hsource', hsome', hfuture'⟩ := hworld source hsource
  exact {
    source := ⟨source', hsource', by rw [hfuture', hfuture, hwaiting], by
      rw [hsome', hsome, hphase, hfinished]⟩
    unfinished := by rw [hphase, hfinished]; exact h.unfinished
    paired := by rw [hcoroutine, hcontext]; exact h.paired
    stepping := by rw [hphase, hcoroutine]; exact h.stepping
    calledOnce := hcalls ▸ h.calledOnce
    uncalled := by rw [hphase, hfinished, hcoroutine, hcalls]; exact h.uncalled }

/-- A cancelled task is sourced, and so are the others. -/
theorem Sourced.cancel {t : TaskId} {l : Local} (h : Sourced t l) (message : Option Value) :
    Turned t l.world (cancel t message l).1 := by
  have hasked (f : FutureId) := keeps_cancelAwaited (w := l.world) (t := t) t f message
  refine cancel_cases (P := fun r => Turned t l.world r.1) (fun _ => ?_) (fun f _ _ _ => ?_)
    (fun f _ _ _ => ?_) fun _ _ => ?_
  · exact ⟨h, .refl t _⟩
  · exact ⟨h.congr (hasked f) rfl rfl rfl rfl rfl rfl, framed_cancelAwaited t f message⟩
  · exact ⟨h.congr (hasked f) rfl rfl rfl rfl rfl rfl, framed_cancelAwaited t f message⟩
  · exact ⟨h.congr (.refl _ t) rfl rfl rfl rfl rfl rfl, .refl t _⟩

/-- An observation but that of a lost turn leaves all tasks sourced. -/
theorem Sourced.note {t : TaskId} {l : Local} {o : Observation} (h : Sourced t l)
    (ho : ∀ t, o ≠ .turnLost t) : Turned t l.world { l with world := l.world.note o } :=
  ⟨h.congr (keeps_note o) rfl rfl rfl rfl rfl rfl, (undisturbed_note ho).framed t⟩

/-- A cancellation that somebody requests leaves all tasks sourced. -/
theorem Sourced.cancelTask {respond : Value → HandlerResponse} {t : TaskId} {l : Local}
    (h : Sourced t l) (message : Option Value) :
    Turned t l.world (Loop.cancelTask (driver respond) t message l) := by
  have hcancel := h.cancel message
  exact (hcancel.sourced.note (by simp)).after hcancel.framed

/-- A cancellation that is taken back leaves all tasks sourced. -/
theorem Sourced.uncancelTask {respond : Value → HandlerResponse} {t : TaskId} {l : Local}
    (h : Sourced t l) : Turned t l.world (Loop.uncancelTask (driver respond) t l) :=
  ⟨h.congr (keeps_note _) rfl rfl rfl rfl rfl rfl, (undisturbed_note (by simp)).framed t⟩

/-- A callback that is added leaves all tasks sourced. -/
theorem Sourced.addDoneCallback {t : TaskId} {l : Local} (h : Sourced t l)
    (callback context : Value) : Turned t l.world (addDoneCallback t callback context l) := by
  unfold HandlerTask.addDoneCallback
  split
  · have hworld : Undisturbed l.world (l.world.callSoon (.doneCallback t callback context)) :=
      undisturbed_callSoon fun _ => rfl
    exact ⟨h.congr (keeps_callSoon rfl) rfl rfl rfl rfl rfl rfl, hworld.framed t⟩
  · exact ⟨h.congr (.refl _ t) rfl rfl rfl rfl rfl rfl, .refl t _⟩

/-- A callback that is removed leaves all tasks sourced. -/
theorem Sourced.removeDoneCallback {respond : Value → HandlerResponse} {t : TaskId} {l : Local}
    (h : Sourced t l) (callback : Value) :
    Turned t l.world (Loop.removeDoneCallback (driver respond) callback l) :=
  ⟨h.congr (.refl _ t) rfl rfl rfl rfl rfl rfl, .refl t _⟩

/-- Every task of the loop is sourced, and at most one is in the middle of a turn. -/
structure Wakeful (s : Loop LoopHandles HandlerTask) : Prop where
  tasks : ∀ t k, s.tasks t = some k → Sourced t ⟨s.world, k⟩
  absent : ∀ t, s.tasks t = none → s.world.SourceIs t none
  running : ∀ t k, s.tasks t = some k → (k.phase ≠ .idle ↔ s.running = some t)
  present : ∀ t, s.running = some t → (s.tasks t).isSome = true
  armed : s.world.Armed
  noTurnLost : s.world.NoTurnLost

namespace Wakeful

variable {s : Loop LoopHandles HandlerTask} {t : TaskId} {l : Local}

/-- The world moves on without touching a task. -/
theorem world (h : Wakeful s) {w : World LoopHandles} (hkeeps : ∀ t, s.world.Keeps w t)
    (harmed : w.Armed) (hlost : w.NoTurnLost) : Wakeful { s with world := w } where
  tasks t k ht := (h.tasks t k ht).congr (hkeeps t) rfl rfl rfl rfl rfl rfl
  absent t ht := by
    obtain ⟨source, hsource, hsome, -⟩ := hkeeps t none (h.absent t ht)
    obtain rfl : source = none := by simpa using hsome
    exact hsource
  running := h.running
  present := h.present
  armed := harmed
  noTurnLost := hlost

/-- One task moves on, and the world with it. -/
theorem put (h : Wakeful s) (hframed : Framed t s.world l.world) (hsourced : Sourced t l)
    {running : Option TaskId} (hrunning : l.task.phase ≠ .idle ↔ running = some t)
    (hothers : ∀ t', t' ≠ t → (running = some t' ↔ s.running = some t')) :
    Wakeful { s.put t l with running := running } := by
  have hsame {t' : TaskId} (ht : t' ≠ t) := s.put_tasks_of_ne ht l
  have hself := s.put_tasks_self t l
  refine ⟨fun t' k hk => ?_, fun t' hk => ?_, fun t' k hk => ?_, fun t' ht' => ?_,
    hframed.armed h.armed, hframed.noTurnLost h.noTurnLost⟩ <;> by_cases ht : t' = t
  · subst ht
    obtain rfl := Option.some.inj (hself.symm.trans hk)
    exact hsourced
  · rw [hsame ht] at hk
    exact (h.tasks t' k hk).congr (hframed.keeps t' ht) rfl rfl rfl rfl rfl rfl
  · rw [ht, hself] at hk
    cases hk
  · rw [hsame ht] at hk
    obtain ⟨source, hsource, hsome, -⟩ := hframed.keeps t' ht none (h.absent t' hk)
    obtain rfl : source = none := by simpa using hsome
    exact hsource
  · subst ht
    obtain rfl := Option.some.inj (hself.symm.trans hk)
    exact hrunning
  · rw [hsame ht] at hk
    exact (h.running t' k hk).trans (hothers t' ht).symm
  · rw [ht, hself]
    rfl
  · rw [hsame ht]
    exact h.present t' ((hothers t' ht).mp ht')

/-- A turn of a task that may run: what the loop does when it drives it. -/
theorem drive (h : Wakeful s) {respond : Value → HandlerResponse} {k : HandlerTask}
    (hrunning : s.running = none ∨ s.running = some t) {w : World LoopHandles}
    (hframed : Framed t s.world w) (htask : s.tasks t = some k) {g : Local → Local}
    (hturn : Turned t w (g ⟨w, k⟩)) :
    Wakeful (Loop.drive (driver respond) { s with world := w } t g) := by
  simp only [Loop.drive, htask]
  refine h.put (hframed.trans hturn.framed) hturn.sourced ?_ fun t' ht => ?_
  · by_cases hphase : (g ⟨w, k⟩).task.phase = .idle <;> simp [driver, hphase]
  · rcases hrunning with hnone | hself
    · simp only [hnone, reduceCtorEq, iff_false]
      split <;> simp [Ne.symm ht]
    · simp only [hself, Option.some.injEq, Ne.symm ht, iff_false]
      split <;> simp [Ne.symm ht]

/-- A call on a task that leaves its phase alone. -/
theorem modify (h : Wakeful s) {w : World LoopHandles} (hframed : Framed t s.world w)
    (hkeeps : s.world.Keeps w t) {g : Local → Local}
    (hturn : ∀ l, Sourced t l → Turned t l.world (g l) ∧ (g l).task.phase = l.task.phase) :
    Wakeful (({ s with world := w } : Loop LoopHandles HandlerTask).modify t g) := by
  unfold Loop.modify
  split
  · next k hk =>
    have hsourced : Sourced t ⟨w, k⟩ :=
      (h.tasks t k hk).congr hkeeps rfl rfl rfl rfl rfl rfl
    obtain ⟨hturned, hphase⟩ := hturn ⟨w, k⟩ hsourced
    exact h.put (hframed.trans hturned.framed) hturned.sourced
      (by rw [hphase]; exact h.running t k hk) fun _ _ => Iff.rfl
  · exact h.world (fun t' => by
      by_cases ht : t' = t
      · exact ht ▸ hkeeps
      · exact hframed.keeps t' ht) (hframed.armed h.armed) (hframed.noTurnLost h.noTurnLost)

/-- The loop runs a handle that steps a task. -/
theorem call (h : Wakeful s) {respond : Value → HandlerResponse} (faults : Faults)
    (f : Option FutureId) {head : Handle} {rest : List Handle}
    (hready : s.world.ready = head :: rest) (hidle : s.running = none)
    (hwakes : ∀ t', head.wakes t' = true ↔ t' = t) :
    Wakeful (Loop.drive (driver respond) { s with world := { s.world with ready := rest } } t
      (HandlerTask.call faults t f)) := by
  have hself : head.wakes t = true := (hwakes t).mpr rfl
  have hframed : Framed t s.world { s.world with ready := rest } :=
    framed_pop hready fun t' ht => by simpa using (hwakes t').not.mpr ht
  cases htask : s.tasks t with
  | none =>
    have hsome := ((h.absent t htask).pop hready hself).1
    cases hsome
  | some k =>
    have hsourced := h.tasks t k htask
    obtain ⟨source, hsource, -, hsome⟩ := hsourced.source
    obtain ⟨hpresent, hpopped⟩ := hsource.pop hready hself
    obtain ⟨hphase, hunfinished⟩ := hsome.mp hpresent
    exact h.drive (Or.inl hidle) hframed htask (Turned.call (l := ⟨_, k⟩) faults f hpopped hphase
      hunfinished hsourced.paired (hsourced.uncalled hphase hunfinished) hsourced.calledOnce)

end Wakeful

/-- A task keeps its phase when it is cancelled. -/
@[simp] theorem cancel_phase (t : TaskId) (message : Option Value) (l : Local) :
    (cancel t message l).1.task.phase = l.task.phase :=
  cancel_cases (P := fun r => r.1.task.phase = l.task.phase) (fun _ => rfl)
    (fun _ _ _ _ => rfl) (fun _ _ _ _ => rfl) fun _ _ => rfl

/-- A loop whose task is cancelled wakes all its tasks. -/
theorem Wakeful.cancelTask {s : Loop LoopHandles HandlerTask} (h : Wakeful s)
    {respond : Value → HandlerResponse} {t : TaskId} (message : Option Value)
    {w : World LoopHandles} (hframed : Framed t s.world w) (hkeeps : s.world.Keeps w t) :
    Wakeful (({ s with world := w } : Loop LoopHandles HandlerTask).modify t
      (Loop.cancelTask (driver respond) t message)) :=
  h.modify hframed hkeeps fun l hl => ⟨hl.cancelTask message, cancel_phase t message l⟩

/-- What other code does on a loop keeps it wakeful. -/
theorem Wakeful.act {s : Loop LoopHandles HandlerTask} (h : Wakeful s)
    {respond : Value → HandlerResponse} (a : Action)
    (henabled : Loop.enabled (driver respond) s (.act a) = true) :
    Wakeful (s.actEffect (driver respond) a) := by
  have hsame (t : TaskId) : Framed t s.world s.world := .refl t _
  have hkeep (t : TaskId) : s.world.Keeps s.world t := .refl _ t
  cases a with
  | schedule t =>
    have habsent : s.tasks t = none := by simpa [Loop.enabled] using henabled
    have haccept : Undisturbed s.world (accept t s.world) := .of_eq rfl rfl rfl
    have hqueued := (haccept.sourceIs (h.absent t habsent)).callSoon none
    have hframed : Framed t s.world ((accept t s.world).callSoon (.step t none)) :=
      (haccept.framed t).trans (framed_callSoon fun t' ht => by
        simpa [Handle.wakes] using Ne.symm ht)
    refine h.put (l := ⟨(accept t s.world).callSoon (.step t none), new⟩) hframed
      ⟨⟨_, hqueued, rfl, by simp [new, TaskState.default]⟩, fun hbusy => absurd rfl hbusy, rfl,
        (fun hstep => by cases hstep), Nat.zero_le 1, fun _ _ _ => rfl⟩ ?_ fun _ _ => Iff.rfl
    have hnot : s.running ≠ some t := fun hrunning => by
      simpa [habsent] using h.present t hrunning
    simp [new, hnot]
  | postCancel t =>
    exact h.world (fun _ => keeps_callSoon rfl) h.armed h.noTurnLost
  | cancel t message => exact h.cancelTask message (hsame t) (hkeep t)
  | uncancel t => exact h.modify (hsame t) (hkeep t) fun l hl => ⟨hl.uncancelTask, rfl⟩
  | cancelling t =>
    exact h.modify (hsame t) (hkeep t) fun l hl =>
      ⟨hl.note (o := .cancellingReturned t (cancelling l.task)) (by simp), rfl⟩
  | addDoneCallback t callback context =>
    refine h.modify (hsame t) (hkeep t) fun l hl => ⟨hl.addDoneCallback callback context, ?_⟩
    simp only [driver, addDoneCallback]
    split <;> rfl
  | removeDoneCallback t callback =>
    exact h.modify (hsame t) (hkeep t) fun l hl => ⟨hl.removeDoneCallback callback, rfl⟩
  | complete f status =>
    exact h.world (fun _ => keeps_complete f status) (h.armed.complete f status) h.noTurnLost
  | cancelFuture f message =>
    have hframed : Framed 0 s.world (s.world.cancelFuture f message) :=
      framed_cancelFuture f message
    exact h.world (fun _ => keeps_cancelFuture f message) (hframed.armed h.armed)
      (hframed.noTurnLost h.noTurnLost)
  | setBlocking f blocking =>
    have hworld : Undisturbed s.world (s.world.setFuture f
        { s.world.futures f with blocking := blocking }) := undisturbed_setFuture rfl rfl
    exact h.world (fun _ => keeps_setFuture rfl) ((hworld.framed 0).armed h.armed)
      (hworld.noTurnLost h.noTurnLost)
  | setCancelMode f mode =>
    have hworld : Undisturbed s.world (s.world.setFuture f
        { s.world.futures f with cancelMode := mode }) := undisturbed_setFuture rfl rfl
    exact h.world (fun _ => keeps_setFuture rfl) ((hworld.framed 0).armed h.armed)
      (hworld.noTurnLost h.noTurnLost)

/-- **One event.** -/
theorem Wakeful.effect {s : Loop LoopHandles HandlerTask} (h : Wakeful s)
    {respond : Value → HandlerResponse} {e : Event}
    (henabled : Loop.enabled (driver respond) s e = true) :
    Wakeful (Loop.effect (driver respond) s e) := by
  cases e with
  | act a => exact h.act a henabled
  | run faults =>
    simp only [Loop.effect]
    split
    · exact h
    next head rest hready =>
    have hidle : s.running = none := by
      simp only [Loop.enabled, Bool.and_eq_true, Option.isNone_iff_eq_none] at henabled
      exact henabled.1
    cases head with
    | step t e => exact h.call faults none hready hidle fun t' => by simp [Handle.wakes, eq_comm]
    | wake t f =>
      exact h.call faults (some f) hready hidle fun t' => by simp [Handle.wakes, eq_comm]
    | cancel t =>
      exact h.cancelTask none (framed_pop hready fun _ _ => rfl) (keeps_pop hready rfl)
    | doneCallback => exact h.world (fun _ => keeps_pop hready rfl) h.armed h.noTurnLost
  | resume faults input =>
    simp only [Loop.effect, Loop.enabled] at henabled ⊢
    split
    · next t hrunning =>
      obtain ⟨k, htask⟩ := Option.isSome_iff_exists.mp (h.present t hrunning)
      simp only [hrunning, htask, Option.any_some] at henabled
      exact h.drive (Or.inr hrunning) (.refl t _) htask
        ((h.tasks t k htask).resume faults input henabled)
    · exact h

/-- A fresh loop is wakeful. -/
theorem Wakeful.of_fresh {s : Loop LoopHandles HandlerTask} {respond : Value → HandlerResponse}
    (h : Loop.Fresh (driver respond) s) : Wakeful s where
  tasks t k ht := by simp [h.tasks t] at ht
  absent t _ := ⟨by simp [handlesOf, h.ready, Source.handles], fun f => by
    simp [h.callbacks f, Source.registrations]⟩
  running t k ht := by simp [h.tasks t] at ht
  present t ht := by simp [h.running] at ht
  armed f hf := absurd (h.callbacks f) hf
  noTurnLost t ht := by simp [h.log] at ht

/-- Every state of every run is wakeful. -/
theorem Wakeful.of_reaches {s : Loop LoopHandles HandlerTask} {respond : Value → HandlerResponse}
    (hreach : (Loop.system (driver respond)).Reaches s) : Wakeful s :=
  hreach.invariant (fun _ => of_fresh) fun _ _ h henabled => h.effect henabled

/-- **One wake source.** Between callbacks, every unfinished task of the loop is stepped by a
single queued handle or a single registration on a pending future, and it waits on the
future that this comes from, if any. Its handler has been called at most once, it has a
coroutine exactly if it has a context, and no turn of it has been lost. -/
theorem unfinished_task_has_one_wake_source {respond : Value → HandlerResponse}
    {s : Loop LoopHandles HandlerTask} (hreach : (Loop.system (driver respond)).Reaches s)
    (hbetween : s.running = none) {t : TaskId} {k : HandlerTask} (htask : s.tasks t = some k) :
    (k.state.finished = false → ∃ source : Source, s.world.SourceIs t (some source) ∧
        k.state.waitingOn = source.future ∧
        ∀ f, source = .registration f → (s.world.futures f).status = .pending) ∧
      k.factoryCalls ≤ 1 ∧ k.state.coroutine.isSome = k.state.context.isSome ∧
      ∀ t', .turnLost t' ∉ s.world.log := by
  have hwakeful := Wakeful.of_reaches hreach
  have hsourced := hwakeful.tasks t k htask
  refine ⟨fun hunfinished => ?_, hsourced.calledOnce, hsourced.paired, hwakeful.noTurnLost⟩
  have hphase : k.phase = .idle := by
    by_contra hbusy
    simp [(hwakeful.running t k htask).mp hbusy] at hbetween
  obtain ⟨source, hsource, hwaiting, hsome⟩ := hsourced.source
  obtain ⟨source, rfl⟩ := Option.isSome_iff_exists.mp (hsome.mpr ⟨hphase, hunfinished⟩)
  refine ⟨source, hsource, hwaiting.symm, fun f hf => hwakeful.armed f fun hempty => ?_⟩
  have hcount := hsource.registrations f
  simp [hf, hempty, Source.registrations] at hcount

/-- Pending futures of loop 0 that are awaited as they should be. -/
def awaitedFutures (_ : FutureId) : Future := ⟨some 0, true, .pending, .completes, []⟩

/-- A handler starts and parks on future 3. -/
def parkingRun : List Event :=
  [.act (.schedule 0), .run .none, .resume .none (.factoryReturned 7 8),
    .act (.setBlocking 3 true), .resume .none (.yielded (.future 3))]

/-- A task that has parked on future 3 has that future as its source. -/
theorem unfinished_task_has_one_wake_source_parkingRun :
    ∃ s : Loop LoopHandles HandlerTask, ∃ k, s.tasks 0 = some k ∧
      k.state.waitingOn = some 3 ∧ ∃ source : Source, s.world.SourceIs 0 (some source) ∧
        k.state.waitingOn = source.future := by
  have hexec : (((Loop.system (driver fun _ => .noContent)).restrict fun _ _ => true).exec
      (Loop.fresh (driver fun _ => .noContent) 0 awaitedFutures) parkingRun).map (fun s =>
        decide (s.running = none ∧ (s.tasks 0).any (fun k =>
          k.state.waitingOn = some 3 ∧ k.state.finished = false) = true)) = some true := by decide
  obtain ⟨s, hs, hend⟩ := Transition.System.exists_reaches_of_exec
    (Loop.Fresh.fresh _ fun _ => rfl) hexec
  obtain ⟨hbetween, htask⟩ := of_decide_eq_true hend
  obtain ⟨k, hk, hstate⟩ := (Option.any_eq_true _ _).mp htask
  obtain ⟨hwaiting, hunfinished⟩ := of_decide_eq_true hstate
  obtain ⟨hsource, -⟩ := unfinished_task_has_one_wake_source hs hbetween hk
  obtain ⟨source, his, hfuture, -⟩ := hsource hunfinished
  exact ⟨s, k, hk, hwaiting, source, his, hfuture⟩

end Rayo.HandlerTask
