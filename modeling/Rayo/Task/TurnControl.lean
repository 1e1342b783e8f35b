import Rayo.Task.Undecided

/-!
# Who has control

At most one task of a loop is in the middle of a turn, and that one is not finished. This holds
whether or not every unfinished task can still be woken, so also on a loop on which a task has been
left behind in the middle of a turn.
-/

namespace Rayo

open Asyncio HandlerTask

section

variable {t : TaskId} {l : Local} {respond : Value → HandlerResponse} {faults : Faults}

/-- A task that Python code has control of after a call is not finished. -/
theorem unfinished_call {finishedFuture : Option FutureId} (hphase : l.task.phase = .idle)
    (hbusy : (call faults t finishedFuture l).task.phase ≠ .idle) :
    (call faults t finishedFuture l).task.state.finished = false := by
  cases hcancelled : cancelledUnstarted l.task.state with
  | true =>
    rw [call_of_cancelledUnstarted hcancelled hphase] at hbusy
    exact absurd endTurn_phase hbusy
  | false =>
    cases hfinished : l.task.state.finished with
    | true =>
      have hcall : call faults t finishedFuture l = l := by simp [call, hfinished]
      rw [hcall] at hbusy
      exact absurd hphase hbusy
    | false => exact (Undecided.call hcancelled).finished.trans hfinished

/-- A task that goes on in its turn is not finished if it had control before. -/
theorem unfinished_resume {input : Input} (hopen : l.task.state.finished = false)
    (hbusy : (resume respond faults t input l).task.phase ≠ .idle) :
    (resume respond faults t input l).task.state.finished = false := by
  cases hending : endingOfInput respond l.task.phase input with
  | none => exact (Undecided.resume hending).finished.trans hopen
  | some ending =>
    rw [resume_of_ending hending] at hbusy
    exact absurd endTurn_phase hbusy

end

/-- Only the task that has control is in the middle of a turn, and it is not finished. -/
structure Controlled (s : Loop LoopHandles HandlerTask) : Prop where
  running : ∀ t k, s.tasks t = some k → (k.phase ≠ .idle ↔ s.running = some t)
  present : ∀ t, s.running = some t → (s.tasks t).isSome = true
  unfinished : ∀ t k, s.tasks t = some k → k.phase ≠ .idle → k.state.finished = false

namespace Controlled

variable {s : Loop LoopHandles HandlerTask} {t : TaskId} {respond : Value → HandlerResponse}

/-- The world moves on without touching a task. -/
theorem world (h : Controlled s) (w : World LoopHandles) : Controlled { s with world := w } :=
  ⟨h.running, h.present, h.unfinished⟩

/-- While nothing runs, a task is idle. -/
theorem idle (h : Controlled s) (hnone : s.running = none) {k : HandlerTask}
    (hk : s.tasks t = some k) : k.phase = .idle := by
  by_contra hbusy
  simp [(h.running t k hk).mp hbusy] at hnone

/-- One task moves on, and the world with it. -/
theorem put (h : Controlled s) {l : Local} {running : Option TaskId}
    (hrunning : l.task.phase ≠ .idle ↔ running = some t)
    (hothers : ∀ t', t' ≠ t → (running = some t' ↔ s.running = some t'))
    (hunfinished : l.task.phase ≠ .idle → l.task.state.finished = false) :
    Controlled { s.put t l with running := running } := by
  have hsame {t' : TaskId} (ht : t' ≠ t) := s.put_tasks_of_ne ht l
  have hself := s.put_tasks_self t l
  refine ⟨fun t' k hk => ?_, fun t' ht' => ?_, fun t' k hk hbusy => ?_⟩ <;> by_cases ht : t' = t
  · subst ht
    obtain rfl := Option.some.inj (hself.symm.trans hk)
    exact hrunning
  · rw [hsame ht] at hk
    exact (h.running t' k hk).trans (hothers t' ht).symm
  · rw [ht, hself]
    rfl
  · rw [hsame ht]
    exact h.present t' ((hothers t' ht).mp ht')
  · subst ht
    obtain rfl := Option.some.inj (hself.symm.trans hk)
    exact hunfinished hbusy
  · rw [hsame ht] at hk
    exact h.unfinished t' k hk hbusy

/-- A turn of a task that may run. -/
theorem drive (h : Controlled s) (hrunning : s.running = none ∨ s.running = some t)
    {w : World LoopHandles} {g : Local → Local}
    (hunfinished : ∀ k, s.tasks t = some k → (g ⟨w, k⟩).task.phase ≠ .idle →
      (g ⟨w, k⟩).task.state.finished = false) :
    Controlled (Loop.drive (driver respond) { s with world := w } t g) := by
  unfold Loop.drive
  split
  · next k hk =>
    refine h.put ?_ (fun t' ht => ?_) (hunfinished k hk)
    · by_cases hphase : (g ⟨w, k⟩).task.phase = .idle <;> simp [driver, hphase]
    · rcases hrunning with hnone | hself
      · simp only [hnone, reduceCtorEq, iff_false]
        split <;> simp [Ne.symm ht]
      · simp only [hself, Option.some.injEq, Ne.symm ht, iff_false]
        split <;> simp [Ne.symm ht]
  · exact h.world w

/-- A call on a task that leaves its phase alone and does not finish it in the middle of a turn. -/
theorem modify (h : Controlled s) {g : Local → Local}
    (hphase : ∀ l : Local, (g l).task.phase = l.task.phase)
    (hfinished : ∀ k, s.tasks t = some k → k.phase ≠ .idle →
      (g ⟨s.world, k⟩).task.state.finished = k.state.finished) : Controlled (s.modify t g) := by
  unfold Loop.modify
  split
  · next k hk =>
    refine h.put (by rw [hphase]; exact h.running t k hk) (fun _ _ => .rfl) fun hbusy => ?_
    rw [hphase] at hbusy
    exact (hfinished k hk hbusy).trans (h.unfinished t k hk hbusy)
  · exact h

/-- What is quiet about a task leaves its turn under control. -/
theorem quiet (h : Controlled s) {g : Local → Local} (hquiet : ∀ l : Local, Quiet t l (g l)) :
    Controlled (s.modify t g) :=
  h.modify (fun l => (hquiet l).phase) fun _ _ _ => (hquiet _).finished

/-- An action of Python code or of another thread. -/
theorem act (h : Controlled s) {a : Action}
    (henabled : Loop.enabled (driver respond) s (.act a) = true) :
    Controlled (s.actEffect (driver respond) a) := by
  cases a with
  | schedule t =>
    have habsent : s.tasks t = none := by simpa [Loop.enabled] using henabled
    have hnot : s.running ≠ some t := fun hrunning => by
      simpa [habsent] using h.present t hrunning
    exact h.put (l := ⟨(accept t s.world).callSoon (.step t none), new⟩) (by simp [new, hnot])
      (fun _ _ => .rfl) fun hbusy => absurd rfl hbusy
  | cancel t message => exact h.quiet fun l => .cancelTask message l
  | uncancel t => exact h.quiet fun l => .uncancelTask l
  | cancelling t => exact h.quiet fun l => .cancellingTask l
  | addDoneCallback t callback context =>
    refine h.modify (fun l => ?_) fun k _ _ => ?_ <;>
      simp only [driver, HandlerTask.addDoneCallback] <;> split <;> rfl
  | removeDoneCallback t callback => exact h.modify (fun _ => rfl) fun _ _ _ => rfl
  | postCancel | complete | cancelFuture | setBlocking | setCancelMode => exact h.world _

/-- **One event.** -/
theorem effect (h : Controlled s) {e : Event}
    (henabled : Loop.enabled (driver respond) s e = true) :
    Controlled (Loop.effect (driver respond) s e) := by
  cases e with
  | act a => exact h.act henabled
  | run faults =>
    simp only [Loop.effect]
    split
    · exact h
    next head rest hready =>
    have hnone : s.running = none := by
      simp only [Loop.enabled, Bool.and_eq_true, Option.isNone_iff_eq_none] at henabled
      exact henabled.1
    cases head with
    | step t e => exact h.drive (.inl hnone) fun k hk => unfinished_call (h.idle hnone hk)
    | wake t f => exact h.drive (.inl hnone) fun k hk => unfinished_call (h.idle hnone hk)
    | cancel t => exact (h.world _).quiet fun l => .cancelTask none l
    | doneCallback => exact h.world _
  | resume faults input =>
    simp only [Loop.effect]
    split
    · next t hrunning =>
      refine h.drive (.inr hrunning) fun k hk => unfinished_resume ?_
      exact h.unfinished t k hk ((h.running t k hk).mpr hrunning)
    · exact h

/-- A fresh loop has its turns under control. -/
theorem of_fresh (h : Loop.Fresh (driver respond) s) : Controlled s where
  running t k hk := by simp [h.tasks t] at hk
  present t ht := by simp [h.running] at ht
  unfinished t k hk := by simp [h.tasks t] at hk

end Controlled

end Rayo
