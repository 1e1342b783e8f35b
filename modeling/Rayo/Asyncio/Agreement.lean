import Rayo.Asyncio.Loop

/-!
# Drivers that agree

Two drivers agree along a relation of their tasks if each operation keeps related tasks related and
does the same to the data of the loop. Then two loops that perform the same events never differ in
anything but how their tasks are represented. The argument is made once, for any two drivers.
-/

namespace Asyncio

variable {ρ σ σ' : Type}

/-- Related tasks with the same data. -/
structure Local.Agree (R : σ → σ' → Prop) (l : Local ρ σ) (l' : Local ρ σ') : Prop where
  world : l.world = l'.world
  task : R l.task l'.task

/-- The drivers agree along `R`. Calls on a task leave the Python code alone that it has called. -/
structure Driver.Agrees (D : Driver ρ σ) (D' : Driver ρ σ') (R : σ → σ' → Prop) : Prop where
  shared : D.shared = D'.shared
  fresh : R D.fresh D'.fresh
  idle : D.busy D.fresh = false
  accept : D.accept = D'.accept
  busy : ∀ {k k'}, R k k' → D.busy k = D'.busy k'
  accepts : ∀ {k k'} (input : Input), R k k' → D.accepts k input = D'.accepts k' input
  call : ∀ (faults : Faults) (t : TaskId) (e : Option Exception) (f : Option FutureId)
    {l : Local ρ σ} {l' : Local ρ σ'}, l.Agree R l' → D.busy l.task = false →
      (D.call faults t e f l).Agree R (D'.call faults t e f l')
  resume : ∀ (faults : Faults) (t : TaskId) (input : Input) {l : Local ρ σ} {l' : Local ρ σ'},
    l.Agree R l' → D.accepts l.task input = true →
      (D.resume faults t input l).Agree R (D'.resume faults t input l')
  cancel : ∀ (t : TaskId) (message : Option Value) {l : Local ρ σ} {l' : Local ρ σ'},
    l.Agree R l' → (D.cancel t message l).1.Agree R (D'.cancel t message l').1 ∧
      (D.cancel t message l).2 = (D'.cancel t message l').2
  cancel_busy : ∀ (t : TaskId) (message : Option Value) (l : Local ρ σ),
    D.busy (D.cancel t message l).1.task = D.busy l.task
  uncancel : ∀ {k k'}, R k k' → R (D.uncancel k).1 (D'.uncancel k').1 ∧
    (D.uncancel k).2 = (D'.uncancel k').2
  uncancel_busy : ∀ k, D.busy (D.uncancel k).1 = D.busy k
  cancelling : ∀ {k k'}, R k k' → D.cancelling k = D'.cancelling k'
  addDoneCallback : ∀ (t : TaskId) (callback context : Value) {l : Local ρ σ} {l' : Local ρ σ'},
    l.Agree R l' → (D.addDoneCallback t callback context l).Agree R
      (D'.addDoneCallback t callback context l')
  addDoneCallback_busy : ∀ (t : TaskId) (callback context : Value) (l : Local ρ σ),
    D.busy (D.addDoneCallback t callback context l).task = D.busy l.task
  removeDoneCallback : ∀ (callback : Value) {k k'}, R k k' →
    R (D.removeDoneCallback callback k) (D'.removeDoneCallback callback k')
  removeDoneCallback_busy : ∀ (callback : Value) k,
    D.busy (D.removeDoneCallback callback k) = D.busy k

/-- The loops are the same up to `R`, and only the running task has called Python code. -/
structure Loop.Agree (D : Driver ρ σ) (R : σ → σ' → Prop) (s : Loop ρ σ) (s' : Loop ρ σ') :
    Prop where
  world : s.world = s'.world
  running : s.running = s'.running
  tasks : ∀ t, Option.Rel R (s.tasks t) (s'.tasks t)
  busy : ∀ t k, s.tasks t = some k → D.busy k = true → s.running = some t

namespace Loop.Agree

variable {D : Driver ρ σ} {D' : Driver ρ σ'} {R : σ → σ' → Prop} {s : Loop ρ σ} {s' : Loop ρ σ'}

/-- The task is on both loops, or on neither. -/
theorem task_cases (h : s.Agree D R s') (t : TaskId) :
    (s.tasks t = none ∧ s'.tasks t = none) ∨
      ∃ k k', s.tasks t = some k ∧ s'.tasks t = some k' ∧ R k k' := by
  have htask := h.tasks t
  cases hk : s.tasks t <;> cases hk' : s'.tasks t <;> rw [hk, hk'] at htask
  · exact .inl ⟨rfl, rfl⟩
  · cases htask
  · cases htask
  · cases htask with
    | some hR => exact .inr ⟨_, _, rfl, rfl, hR⟩

/-- Two loops that agree have the same tasks. -/
theorem isSome_eq (h : s.Agree D R s') (t : TaskId) :
    (s.tasks t).isSome = (s'.tasks t).isSome := by
  obtain ⟨hk, hk'⟩ | ⟨k, k', hk, hk', -⟩ := h.task_cases t <;> simp [hk, hk']

/-- Two loops that agree do so in the same world. -/
theorem setWorld (h : s.Agree D R s') {w : World ρ} {w' : World ρ} (hw : w = w') :
    Loop.Agree D R { s with world := w } { s' with world := w' } :=
  ⟨hw, h.running, h.tasks, h.busy⟩

/-- One task is put back on both loops. -/
theorem rel_update (h : s.Agree D R s') {t : TaskId} {k : σ} {k' : σ'} (hR : R k k') (t' : TaskId) :
    Option.Rel R (Function.update s.tasks t (some k) t') (Function.update s'.tasks t (some k') t') := by
  by_cases ht : t' = t
  · subst ht
    simpa using Option.Rel.some hR
  · simpa [ht] using h.tasks t'

/-- A call on a task. -/
theorem modify (h : s.Agree D R s') {t : TaskId} {g : Local ρ σ → Local ρ σ}
    {g' : Local ρ σ' → Local ρ σ'} (hg : ∀ {l l'}, l.Agree R l' → (g l).Agree R (g' l'))
    (hbusy : ∀ l, D.busy (g l).task = D.busy l.task) :
    (s.modify t g).Agree D R (s'.modify t g') := by
  obtain ⟨hk, hk'⟩ | ⟨k, k', hk, hk', hR⟩ := h.task_cases t
  · simpa only [Loop.modify, hk, hk'] using h
  · simp only [Loop.modify, hk, hk', put]
    have hboth : (g ⟨s.world, k⟩).Agree R (g' ⟨s'.world, k'⟩) := hg ⟨h.world, hR⟩
    refine ⟨hboth.world, h.running, h.rel_update hboth.task, fun t' k₁ hk₁ hbusy₁ => ?_⟩
    by_cases ht : t' = t
    · subst ht
      obtain rfl : (g ⟨s.world, k⟩).task = k₁ := by simpa using hk₁
      exact h.busy t' k hk ((hbusy ⟨s.world, k⟩).symm.trans hbusy₁)
    · exact h.busy t' k₁ (by simpa [ht] using hk₁) hbusy₁

/-- A turn, or what is left of it. -/
theorem drive (hD : D.Agrees D' R) (h : s.Agree D R s') {t : TaskId} {g : Local ρ σ → Local ρ σ}
    {g' : Local ρ σ' → Local ρ σ'} (hrunning : s.running = none ∨ s.running = some t)
    (hg : ∀ k k', s.tasks t = some k → R k k' →
      (g ⟨s.world, k⟩).Agree R (g' ⟨s'.world, k'⟩)) :
    (s.drive D t g).Agree D R (s'.drive D' t g') := by
  obtain ⟨hk, hk'⟩ | ⟨k, k', hk, hk', hR⟩ := h.task_cases t
  · simpa only [Loop.drive, hk, hk'] using h
  · simp only [Loop.drive, hk, hk', put]
    have hboth := hg k k' hk hR
    refine ⟨hboth.world, by rw [hD.busy hboth.task], h.rel_update hboth.task,
      fun t' k₁ hk₁ hbusy₁ => ?_⟩
    by_cases ht : t' = t
    · subst ht
      obtain rfl : (g ⟨s.world, k⟩).task = k₁ := by simpa using hk₁
      simp [hbusy₁]
    · have hrun := h.busy t' k₁ (by simpa [ht] using hk₁) hbusy₁
      rcases hrunning with hnone | hsome
      · simp [hnone] at hrun
      · exact absurd (Option.some.inj (hrun.symm.trans hsome)) ht

/-- The same events can happen on two loops that agree. -/
theorem enabled_eq (hD : D.Agrees D' R) (h : s.Agree D R s') (e : Event) :
    s.enabled D e = s'.enabled D' e := by
  cases e with
  | run faults => simp only [Loop.enabled, h.world, h.running]
  | resume faults input =>
    simp only [Loop.enabled, h.running]
    cases s'.running with
    | none => rfl
    | some t =>
      obtain ⟨hk, hk'⟩ | ⟨k, k', hk, hk', hR⟩ := h.task_cases t
      · simp [hk, hk']
      · simp [hk, hk', hD.accepts input hR]
  | act a =>
    cases a with
    | schedule t =>
      have hsome := h.isSome_eq t
      simp only [Loop.enabled]
      cases hk : s.tasks t <;> cases hk' : s'.tasks t <;> simp_all
    | complete f status => simp only [Loop.enabled, h.world]
    | _ => simp [Loop.enabled, Action.task, h.isSome_eq]

/-- A cancellation does the same to two tasks that agree. -/
theorem cancelTask (hD : D.Agrees D' R) {t : TaskId} {message : Option Value} {l : Local ρ σ}
    {l' : Local ρ σ'} (h : l.Agree R l') :
    (Loop.cancelTask D t message l).Agree R (Loop.cancelTask D' t message l') := by
  obtain ⟨hlocal, hreply⟩ := hD.cancel t message h
  exact ⟨by simp only [Loop.cancelTask, hlocal.world, hreply], hlocal.task⟩

/-- A handle does the same on two loops that agree. -/
theorem runHandle (hD : D.Agrees D' R) (h : s.Agree D R s') (hidle : s.running = none)
    (faults : Faults) (handle : Handle) :
    (s.runHandle D faults handle).Agree D R (s'.runHandle D' faults handle) := by
  have hcall (t : TaskId) (e : Option Exception) (f : Option FutureId) :
      (s.drive D t (D.call faults t e f)).Agree D R (s'.drive D' t (D'.call faults t e f)) := by
    refine h.drive hD (.inl hidle) fun k k' hk hR => hD.call faults t e f ⟨h.world, hR⟩ ?_
    cases hbusy : D.busy k with
    | false => rfl
    | true => simpa [hidle] using h.busy t k hk hbusy
  cases handle with
  | step t e => exact hcall t e none
  | wake t f => exact hcall t none (some f)
  | cancel t => exact h.modify (cancelTask hD) (hD.cancel_busy t none)
  | doneCallback => exact h

/-- What other code does is the same on two loops that agree. -/
theorem act (hD : D.Agrees D' R) (h : s.Agree D R s') (a : Action)
    (henabled : s.enabled D (.act a) = true) : (s.actEffect D a).Agree D R (s'.actEffect D' a) := by
  cases a with
  | schedule t =>
    refine ⟨by simp only [actEffect, h.world, hD.accept], h.running, h.rel_update hD.fresh,
      fun t' k hk hbusy => ?_⟩
    by_cases ht : t' = t
    · subst ht
      obtain rfl : D.fresh = k := by simpa [actEffect] using hk
      rw [hD.idle] at hbusy
      cases hbusy
    · exact h.busy t' k (by simpa [actEffect, ht] using hk) hbusy
  | postCancel t => exact h.setWorld (by rw [h.world])
  | cancel t message => exact h.modify (cancelTask hD) (hD.cancel_busy t message)
  | uncancel t =>
    refine h.modify (fun {l l'} hl => ?_) fun l => hD.uncancel_busy l.task
    obtain ⟨hR, hcount⟩ := hD.uncancel hl.task
    exact ⟨by simp only [uncancelTask, hl.world, hcount], hR⟩
  | cancelling t =>
    refine h.modify (fun {l l'} hl => ?_) fun l => rfl
    exact ⟨by simp only [cancellingTask, hl.world, hD.cancelling hl.task], hl.task⟩
  | addDoneCallback t callback context =>
    exact h.modify (hD.addDoneCallback t callback context)
      (hD.addDoneCallback_busy t callback context)
  | removeDoneCallback t callback =>
    exact h.modify (fun hl => ⟨hl.world, hD.removeDoneCallback callback hl.task⟩)
      fun l => hD.removeDoneCallback_busy callback l.task
  | complete f status => exact h.setWorld (by rw [h.world])
  | cancelFuture f message => exact h.setWorld (by rw [h.world])
  | setBlocking f blocking => exact h.setWorld (by rw [h.world])
  | setCancelMode f mode => exact h.setWorld (by rw [h.world])

/-- Every event keeps the loops in agreement. -/
theorem effect (hD : D.Agrees D' R) (h : s.Agree D R s') (e : Event)
    (henabled : s.enabled D e = true) : (s.effect D e).Agree D R (s'.effect D' e) := by
  cases e with
  | run faults =>
    have hidle : s.running = none := by
      have hboth : s.running.isNone = true ∧ s.world.ready.isEmpty = false := by
        simpa [Loop.enabled] using henabled
      simpa using hboth.1
    simp only [Loop.effect, ← h.world]
    cases hready : s.world.ready with
    | nil => exact h
    | cons handle rest =>
      let w : World ρ := { s.world with ready := rest }
      have hpopped : Loop.Agree D R { s with world := w } { s' with world := w } := h.setWorld rfl
      exact hpopped.runHandle hD hidle faults handle
  | resume faults input =>
    simp only [Loop.effect, ← h.running]
    cases hrunning : s.running with
    | none => exact h
    | some t =>
      refine h.drive hD (.inr hrunning) fun k k' hk hR => hD.resume faults t input ⟨h.world, hR⟩ ?_
      simpa [Loop.enabled, hrunning, hk] using henabled
  | act a => exact h.act hD a henabled

end Loop.Agree

/-- The data of a fresh loop. -/
theorem Loop.Fresh.world_eq {D : Driver ρ σ} {s : Loop ρ σ} (h : Fresh D s) :
    s.world = ⟨s.world.loop, s.world.futures, [], none, [], [], [], D.shared⟩ := by
  have hready := h.ready
  have hcurrent := h.currentTask
  have hcontexts := h.contexts
  have hregistered := h.registered
  have hlog := h.log
  have hshared := h.shared
  cases hw : s.world
  simp_all

/-- **Drivers that agree cannot be told apart.** Two loops that begin with the same futures and
perform the same events have the same data and the same running task at every moment, and their
tasks are related. -/
theorem Driver.Agrees.lockstep {D : Driver ρ σ} {D' : Driver ρ σ'} {R : σ → σ' → Prop}
    (hD : D.Agrees D' R) {s : Loop ρ σ × Loop ρ σ'}
    (hreach : ((Loop.system D).lockstep (Loop.system D') fun a b =>
      a.world.loop = b.world.loop ∧ a.world.futures = b.world.futures).Reaches s) :
    s.1.Agree D R s.2 := by
  refine Transition.System.ReachesUnder.simulation hreach (fun a b ha hb hsame => ?_)
    (fun a b e h _ => h.enabled_eq hD e) fun a b e h _ henabled _ => h.effect hD e henabled
  refine ⟨?_, ha.running.trans hb.running.symm, fun t => ?_, fun t k hk => ?_⟩
  · rw [ha.world_eq, hb.world_eq, hsame.1, hsame.2, hD.shared]
  · rw [ha.tasks, hb.tasks]
    exact .none
  · rw [ha.tasks] at hk
    cases hk

end Asyncio
