import Rayo.Task.TaskView

/-!
# What the loop thread does is a step of each task, or nothing to it

The loop with all its tasks refines the steps of a single task. Here that is shown of `schedule`,
of the turns that the loop thread runs and of the stages of a `finish`.
-/

namespace Rayo.Lifecycle

open Asyncio HandlerTask

variable {respond : Value → HandlerResponse} {s : Lifecycle} {e : Event} {t t' : TaskId}

/-- A step of `t`, or nothing to it. -/
def Progress (respond : Value → HandlerResponse) (t : TaskId) (e : Event) (v v' : View) : Prop :=
  Step respond t e v v' ∨ v' = v

section

variable {k : HandlerTask} {l : Local}

/-- A turn of another task is none of this one. -/
theorem running_of_ne {r : Option TaskId} (hr : r = some t' ∨ r = none) (ht : t ≠ t') :
    r ≠ some t := by
  rcases hr with rfl | rfl
  · exact fun h => ht (Option.some.inj h).symm
  · simp

/-- Driving a task shows in its own view only. -/
theorem view_drive_self (respond : Value → HandlerResponse) (hk : s.loop.tasks t = some k)
    (g : Local → Local) :
    view { s with loop := s.loop.drive (driver respond) t g } t =
      { (view s t).put t (g ⟨s.loop.world, k⟩) with
        running := (g ⟨s.loop.world, k⟩).task.phase ≠ .idle } := by
  have hdrive : s.loop.drive (driver respond) t g =
      { s.loop.put t (g ⟨s.loop.world, k⟩) with
        running := if (g ⟨s.loop.world, k⟩).task.phase ≠ .idle then some t else none } := by
    simp [Loop.drive, hk, driver]
  have hput := view_put_self (s := s) (t := t) (l := g ⟨s.loop.world, k⟩)
  rw [hdrive, ← hput]
  by_cases hidle : (g ⟨s.loop.world, k⟩).task.phase = .idle
  · simp [view, hidle, responsesOf]
  · simp [view, hidle, responsesOf]

/-- A turn of one task leaves what another one sees as it is. -/
theorem view_drive_of_ne {g : Local → Local} (hk : s.loop.tasks t' = some k) (ht : t ≠ t')
    (hrunning : s.loop.running = some t' ∨ s.loop.running = none)
    (haside : Aside t s.loop.world (g ⟨s.loop.world, k⟩).world) :
    view { s with loop := s.loop.drive (driver respond) t' g } t = view s t := by
  refine view_congr ?_ ?_ ?_ rfl rfl rfl rfl rfl rfl rfl .rfl rfl
  · simpa [Loop.drive, hk, Loop.put] using haside
  · simp [Loop.drive, hk, Loop.put, ht]
  · have hbefore := running_of_ne hrunning ht
    have hafter : (s.loop.drive (driver respond) t' g).running ≠ some t := by
      simp only [Loop.drive, hk]
      split
      · exact fun h => ht (Option.some.inj h).symm
      · simp
    exact ⟨fun h => absurd h hafter, fun h => absurd h hbefore⟩

end

/-- The creation of a task is a step of that task. -/
theorem progress_create (henabled : enabled respond s (.create t') = true) :
    Progress respond t (.create t') (view s t) (view (effect respond s (.create t')) t) := by
  simp only [enabled, Bool.and_eq_true, Option.isNone_iff_eq_none, decide_eq_true_eq] at henabled
  by_cases ht : t = t'
  · subst ht
    have hview : view (effect respond s (.create t)) t =
        { view s t with task := some new, schedule := .inserted, live := true } := by
      ext : 1 <;> first | rfl | simp [view, effect, HandlerTask.accept]
    exact .inl (hview ▸ .create henabled.1 henabled.2)
  · refine .inr (view_congr ⟨?_, .rfl, rfl, rfl⟩ ?_ .rfl rfl ?_ rfl rfl rfl rfl rfl .rfl rfl)
    · simp [effect, HandlerTask.accept, ht]
    · simp [effect, ht]
    · simp [effect, ht]

/-- A call of `schedule` that goes through is a step of its task. -/
theorem progress_accept (henabled : enabled respond s (.accept t') = true) :
    Progress respond t (.accept t') (view s t) (view (effect respond s (.accept t')) t) := by
  simp only [enabled, decide_eq_true_eq] at henabled
  by_cases ht : t = t'
  · subst ht
    have hview : view (effect respond s (.accept t)) t =
        { view s t with schedule := .accepted } := by
      ext : 1 <;> first | rfl | simp [view, effect]
    exact .inl (hview ▸ .accept henabled)
  · refine .inr (view_congr (.of_eq rfl rfl rfl) rfl .rfl rfl ?_ rfl rfl rfl rfl rfl .rfl rfl)
    simp [effect, setWorld, ht]

/-- A call of `schedule` that is refused is a step of its task. -/
theorem progress_refuse (htidy : Tidy s) (henabled : enabled respond s (.refuse t') = true) :
    Progress respond t (.refuse t') (view s t) (view (effect respond s (.refuse t')) t) := by
  simp only [enabled, decide_eq_true_eq] at henabled
  obtain ⟨k, hk⟩ := Option.isSome_iff_exists.mp (htidy.inserted_task t' henabled)
  have hloop := modify_of_task hk (refusal t')
  by_cases ht : t = t'
  · subst ht
    have hput := view_put_self (s := s) (t := t) (l := refusal t ⟨s.loop.world, k⟩)
    have hview : view (effect respond s (.refuse t)) t =
        { (view s t).put t (refusal t ⟨s.loop.world, k⟩) with schedule := .refused } := by
      rw [← hput]
      simp [effect, hloop, view, responsesOf]
    exact .inl (hview ▸ .refuse (shows_of_task hk) henabled)
  · refine .inr (view_congr ?_ ?_ ?_ rfl ?_ rfl rfl rfl rfl rfl .rfl rfl)
    · have hremoved : Aside t s.loop.world (removeLive t' s.loop.world) := .removeLive ht
      have hsent := Aside.send ht .internalError
        (HandlerTask.setWorld ⟨s.loop.world, k⟩ (removeLive t' s.loop.world))
      simpa only [effect, hloop, Loop.put, refusal] using hremoved.trans hsent
    · simp [effect, hloop, Loop.put, ht]
    · simp [effect, hloop, Loop.put]
    · simp [effect, ht]

/-- What running the oldest handle does when it does not find its task cancelled. -/
theorem run_cases (respond : Value → HandlerResponse) {loop : Loop LoopHandles HandlerTask}
    (faults : Faults) (hnext : nextCancelled loop = none) :
    (∃ t k f, loop.tasks t = some k ∧ cancelledUnstarted k.state = false ∧
        loop.effect (driver respond) (.run faults) =
          (pop loop).drive (driver respond) t (call faults t f)) ∨
      (∃ t k, loop.tasks t = some k ∧ loop.effect (driver respond) (.run faults) =
        (pop loop).put t (Loop.cancelTask (driver respond) t none ⟨(pop loop).world, k⟩)) ∨
      loop.effect (driver respond) (.run faults) = pop loop := by
  cases hready : loop.world.ready with
  | nil =>
    refine .inr (.inr ?_)
    simp only [Loop.effect, hready, pop, List.tail_nil]
    rw [← hready]
  | cons h rest =>
    have hpop : pop loop = { loop with world := { loop.world with ready := rest } } := by
      simp [pop, hready]
    have heffect : loop.effect (driver respond) (.run faults) =
        (pop loop).runHandle (driver respond) faults h := by
      simp only [Loop.effect, hready, hpop]
    have hstep (t : TaskId) (f : Option FutureId) (hstepped : stepped h = some t)
        (hrun : (pop loop).runHandle (driver respond) faults h =
          (pop loop).drive (driver respond) t (call faults t f)) :
        (∃ t k f, loop.tasks t = some k ∧ cancelledUnstarted k.state = false ∧
          loop.effect (driver respond) (.run faults) =
            (pop loop).drive (driver respond) t (call faults t f)) ∨
        loop.effect (driver respond) (.run faults) = pop loop := by
      cases hk : loop.tasks t with
      | none =>
        refine .inr (heffect.trans (hrun.trans ?_))
        simp [Loop.drive, pop, hk]
      | some k =>
        have hnot : cancelledUnstarted k.state = false := by
          simpa [nextCancelled, hready, hstepped, hk] using hnext
        exact .inl ⟨t, k, f, hk, hnot, heffect.trans hrun⟩
    cases h with
    | step t e => exact (hstep t none rfl rfl).imp_right .inr
    | wake t f => exact (hstep t (some f) rfl rfl).imp_right .inr
    | doneCallback t callback context => exact .inr (.inr heffect)
    | cancel t =>
      cases hk : loop.tasks t with
      | none =>
        refine .inr (.inr (heffect.trans ?_))
        simp [Loop.runHandle, Loop.modify, pop, hk]
      | some k =>
        refine .inr (.inl ⟨t, k, hk, heffect.trans ?_⟩)
        simp [Loop.runHandle, Loop.modify, pop, hk]

/-- The task that asyncio cancels before its first step is an unstarted one of the loop. -/
theorem nextCancelled_eq_some {loop : Loop LoopHandles HandlerTask} {k : HandlerTask}
    (h : nextCancelled loop = some (t, k)) :
    loop.tasks t = some k ∧ cancelledUnstarted k.state = true := by
  simp only [nextCancelled, Option.bind_eq_bind, Option.bind_eq_some_iff,
    Option.ite_none_right_eq_some, Option.some.injEq, Prod.mk.injEq] at h
  obtain ⟨_, -, _, -, _, hk, hcancelled, rfl, rfl⟩ := h
  exact ⟨hk, hcancelled⟩

/-- A handle that the loop runs is a step of the task it belongs to. -/
theorem progress_run {faults : Faults} (henabled : enabled respond s (.run faults) = true) :
    Progress respond t (.run faults) (view s t) (view (effect respond s (.run faults)) t) := by
  simp only [enabled, Loop.enabled, Bool.and_eq_true, Bool.not_eq_true', Option.isNone_iff_eq_none]
    at henabled
  obtain ⟨⟨hended, hfinishing⟩, hrunning, -⟩ := henabled
  have hidle : (view s t).running = false := by simp [view, hrunning]
  have hnone : (view s t).finishing = none := by simp [view, hfinishing]
  have haside : Aside t s.loop.world (pop s.loop).world := .of_eq rfl rfl rfl
  cases hnext : nextCancelled s.loop with
  | some next =>
    obtain ⟨t', k⟩ := next
    obtain ⟨hk, hcancelled⟩ := nextCancelled_eq_some hnext
    by_cases ht : t = t'
    · subst ht
      have hview : view (effect respond s (.run faults)) t =
          { view s t with
            task := some { k with state := turnTaken k.state }
            running := true
            finishing :=
              some (.record .internalError (.cancelled k.state.cancelMessage), false)
            fate := .cancelledUnstarted k.state.cancelMessage } := by
        simp only [effect, hnext]
        ext : 1 <;> first | rfl | simp [view, Loop.put, setState]
      exact .inl (hview ▸ .runCancelled hended hidle hnone hk hcancelled)
    · right
      simp only [effect, hnext]
      refine view_congr haside ?_ ?_ rfl rfl ?_ rfl rfl rfl rfl .rfl ?_
      · simp [Loop.put, pop, ht]
      · simp [hrunning, Ne.symm ht]
      · simp [view, hfinishing, Ne.symm ht]
      · simp [ht]
  | none =>
    have hpopped : view { s with loop := pop s.loop } t = view s t :=
      view_congr haside rfl .rfl rfl rfl rfl rfl rfl rfl rfl .rfl rfl
    simp only [effect, hnext]
    rcases run_cases respond faults hnext with
      ⟨t', k, f, hk, hcancelled, hrun⟩ | ⟨t', k, hk, hrun⟩ | hrun
    · by_cases ht : t = t'
      · subst ht
        have hself := view_drive_self (s := { s with loop := pop s.loop }) respond hk (call faults t f)
        rw [hrun]
        refine .inl ?_
        rw [hself, hpopped]
        have hshows : (view s t).Shows t ⟨(pop s.loop).world, k⟩ := by
          rw [← hpopped]
          exact shows_of_task (s := { s with loop := pop s.loop }) hk
        exact .run f hended hidle hnone hshows hcancelled
      · right
        rw [hrun, ← hpopped]
        refine view_drive_of_ne (s := { s with loop := pop s.loop }) hk ht (.inr hrunning) ?_
        exact (Undecided.call (l := ⟨(pop s.loop).world, k⟩) hcancelled).aside t ht
    · rw [hrun]
      have hcancel : Quiet t' ⟨(pop s.loop).world, k⟩
          (Loop.cancelTask (driver respond) t' none ⟨(pop s.loop).world, k⟩) :=
        .cancelTask none _
      by_cases ht : t = t'
      · subst ht
        have hput := view_put_self (s := { s with loop := pop s.loop }) (t := t)
          (l := Loop.cancelTask (driver respond) t none ⟨(pop s.loop).world, k⟩)
        refine .inl ?_
        rw [hput, hpopped]
        have hshows : (view s t).Shows t ⟨(pop s.loop).world, k⟩ := by
          rw [← hpopped]
          exact shows_of_task (s := { s with loop := pop s.loop }) hk
        exact .call hshows hcancel
      · right
        rw [← hpopped]
        exact view_put_of_ne (s := { s with loop := pop s.loop }) ht (hcancel.aside t ht)
    · rw [hrun]
      exact .inr hpopped

/-- A turn that goes on is a step of its task. -/
theorem progress_resume {faults : Faults} {input : Input}
    (henabled : enabled respond s (.resume faults input) = true) :
    Progress respond t (.resume faults input) (view s t)
      (view (effect respond s (.resume faults input)) t) := by
  simp only [enabled, Bool.and_eq_true, Bool.not_eq_true', Option.isNone_iff_eq_none] at henabled
  obtain ⟨⟨hended, hfinishing⟩, henabled⟩ := henabled
  simp only [Loop.enabled] at henabled
  cases hrunning : s.loop.running with
  | none => simp [hrunning] at henabled
  | some t' =>
  simp only [hrunning, Option.any_eq_true] at henabled
  obtain ⟨k, hk, haccepts⟩ := henabled
  have hturn : runningTask s.loop = some (t', k) := by simp [runningTask, hrunning, hk]
  have hnone : (view s t).finishing = none := by simp [view, hfinishing]
  let fated : Lifecycle := { s with fate := Function.update s.fate t' (Fate.ofInput input) }
  have hother (ht : t ≠ t') : view fated t = view s t :=
    view_congr (.refl t _) rfl .rfl rfl rfl rfl rfl rfl rfl rfl .rfl (by simp [fated, ht])
  simp only [effect, hturn]
  cases hending : endingOfInput respond k.phase input with
  | some ending =>
    by_cases ht : t = t'
    · subst ht
      have hview : view { fated with
            finishing := some (t, .record ending.response ending.completion, ending.entered) } t =
          { view s t with
            finishing := some (.record ending.response ending.completion, ending.entered)
            fate := Fate.ofInput input } := by
        ext : 1 <;> first | rfl | simp [view, fated]
      refine .inl ?_
      rw [hview]
      exact .resumeEnding hended (by simp [view, hrunning]) hnone hk hending
    · refine .inr ?_
      rw [← hother ht]
      exact view_congr (.refl t _) rfl .rfl rfl rfl
        (by simp [view, fated, hfinishing, Ne.symm ht]) rfl rfl rfl rfl .rfl rfl
  | none =>
    have hdrive : s.loop.effect (driver respond) (.resume faults input) =
        s.loop.drive (driver respond) t' (HandlerTask.resume respond faults t' input) := by
      simp only [Loop.effect, hrunning, driver]
    rw [hdrive]
    by_cases ht : t = t'
    · subst ht
      refine .inl ?_
      have hself := view_drive_self (s := fated) respond hk
        (HandlerTask.resume respond faults t input)
      have hfate : view fated t = { view s t with fate := Fate.ofInput input } := by
        ext : 1 <;> first | rfl | simp [view, fated]
      rw [hself, hfate]
      exact .resume (l := ⟨s.loop.world, k⟩) hended (by simp [view, hrunning]) hnone
        (shows_of_task hk) haccepts hending
    · refine .inr ?_
      rw [← hother ht]
      refine view_drive_of_ne (s := fated) hk ht (.inl hrunning) ?_
      exact (Undecided.resume (l := ⟨s.loop.world, k⟩) hending).aside t ht

/-- What a stage of `finish` notes down and where it leaves its task do not interfere. -/
theorem View.remember_put (v : View) (faults : Faults) (k : HandlerTask) (stage : FinishStage)
    (l : Local) : (v.remember faults k stage).put t l = (v.put t l).remember faults k stage := by
  unfold View.remember
  split <;> first | rfl | (split <;> rfl)

section

variable {faults : Faults} {stage : FinishStage} {k : HandlerTask}

/-- A stage of `finish` advances a task that the loop has. -/
theorem work_of_task (faults : Faults) (stage : FinishStage) (hk : s.loop.tasks t = some k) :
    s.work faults t stage =
      ({ s.remember faults t k stage with
          loop := s.loop.put t (stage.advance faults t ⟨s.loop.world, k⟩).1 },
        (stage.advance faults t ⟨s.loop.world, k⟩).2) := by
  simp only [work, hk]

/-- A task sees that a stage of its own `finish` has been noted down. -/
theorem view_remember_self :
    view (s.remember faults t k stage) t = (view s t).remember faults k stage := by
  rcases stage with ⟨_, completion⟩ | _ | ⟨_, _ | _, _⟩ | ⟨_, _ | ⟨entry, rest⟩⟩ | _ | _ | _
  case record =>
    simp only [remember, View.remember]
    split
    · rfl
    · ext : 1 <;> first | rfl | simp [view]
  case unregister.true =>
    simp only [remember, View.remember]
    split
    · ext : 1 <;> first | rfl | simp [view]
    · rfl
  case fire.cons => ext : 1 <;> first | rfl | simp [view, remember, View.remember]
  all_goals rfl

/-- A task sees nothing of a stage that another one notes down. -/
theorem view_remember_of_ne (ht : t ≠ t') :
    view (s.remember faults t' k stage) t = view s t := by
  rcases stage with ⟨_, completion⟩ | _ | ⟨_, _ | _, _⟩ | ⟨_, _ | ⟨entry, rest⟩⟩ | _ | _ | _
  case record =>
    simp only [remember]
    split
    · rfl
    · ext : 1 <;> first | rfl | simp [view, Ne.symm ht]
  case unregister.true =>
    simp only [remember]
    split
    · ext : 1 <;> first | rfl | simp [view, ht]
    · rfl
  case fire.cons => ext : 1 <;> first | rfl | simp [view, remember, ht]
  all_goals rfl

/-- A stage of `finish` that is noted down leaves the loop as it is. -/
theorem remember_loop : (s.remember faults t k stage).loop = s.loop := by
  unfold remember
  split <;> first | rfl | (split <;> rfl)

/-- What a task sees of a stage of its own `finish`. -/
theorem view_work_self (faults : Faults) (stage : FinishStage) (hk : s.loop.tasks t = some k) :
    view (s.work faults t stage).1 t =
      ((view s t).put t (stage.advance faults t ⟨s.loop.world, k⟩).1).remember faults k stage := by
  have hput := view_put_self (s := s.remember faults t k stage) (t := t)
    (l := (stage.advance faults t ⟨s.loop.world, k⟩).1)
  rw [remember_loop] at hput
  rw [work_of_task _ _ hk, hput, view_remember_self, View.remember_put]

/-- A task sees nothing of a stage of another one's `finish`. -/
theorem view_work_of_ne (faults : Faults) (stage : FinishStage)
    (hk : s.loop.tasks t' = some k) (ht : t ≠ t') :
    view (s.work faults t' stage).1 t = view s t := by
  have haside := Aside.advance ht faults ⟨s.loop.world, k⟩ stage
  have hput := view_put_of_ne (s := s.remember faults t' k stage)
    (l := (stage.advance faults t' ⟨s.loop.world, k⟩).1) ht (by rwa [remember_loop])
  rw [remember_loop] at hput
  rw [work_of_task _ _ hk, hput, view_remember_of_ne ht]

/-- What follows the stage goes on with its task. -/
theorem work_modify (hk : s.loop.tasks t = some k) (g : Local → Local) :
    (s.work faults t stage).1.loop.modify t g =
      (s.work faults t stage).1.loop.put t (g (stage.advance faults t ⟨s.loop.world, k⟩).1) := by
  simp [work_of_task _ _ hk, Loop.put, Loop.modify]

end

/-- A stage of the `finish` that runs on the loop is a step of its task. -/
theorem progress_finish {faults : Faults} (htidy : Tidy s)
    (henabled : enabled respond s (.finish faults) = true) :
    Progress respond t (.finish faults) (view s t) (view (effect respond s (.finish faults)) t) := by
  simp only [enabled, Bool.and_eq_true, Bool.not_eq_true', Option.isSome_iff_exists] at henabled
  obtain ⟨hended, ⟨t', stage, entered⟩, hfinishing⟩ := henabled
  obtain ⟨hrunning, htask⟩ := htidy.finishing t' stage entered hfinishing
  obtain ⟨k, hk⟩ := Option.isSome_iff_exists.mp htask
  have hwork := work_of_task faults stage hk
  by_cases ht : t = t'
  · subst ht
    have hself := view_work_self faults stage hk
    have hstage : (view s t).finishing = some (stage, entered) := by simp [view, hfinishing]
    refine .inl ?_
    cases hnext : (stage.advance faults t ⟨s.loop.world, k⟩).2 with
    | some next =>
      have hview : view (effect respond s (.finish faults)) t =
          { view (s.work faults t stage).1 t with finishing := some (next, entered) } := by
        simp only [effect, hfinishing, hwork, hnext]
        ext : 1 <;> first | rfl | simp [view]
      rw [hview, hself]
      exact .finish hended hstage (shows_of_task hk) hnext
    | none =>
      have hview : view (effect respond s (.finish faults)) t =
          { (view (s.work faults t stage).1 t).put t
              (endTurn faults entered (stage.advance faults t ⟨s.loop.world, k⟩).1) with
            running := false
            finishing := none } := by
        have hput := view_put_self (s := (s.work faults t stage).1) (t := t)
          (l := endTurn faults entered (stage.advance faults t ⟨s.loop.world, k⟩).1)
        rw [← hput, ← work_modify hk]
        simp only [effect, hfinishing]
        rw [show (s.work faults t stage).2 = none by rw [hwork, hnext]]
        rfl
      rw [hview, hself, View.remember_put]
      exact .finishLast hended hstage (shows_of_task hk) hnext
  · refine .inr ?_
    have hbefore : (view s t).finishing = none := by simp [view, hfinishing, Ne.symm ht]
    have hother := view_work_of_ne faults stage hk ht
    rw [← hother]
    have hnone : (view (s.work faults t' stage).1 t).finishing = none := by rw [hother, hbefore]
    cases hnext : (stage.advance faults t' ⟨s.loop.world, k⟩).2 with
    | some next =>
      simp only [effect, hfinishing]
      rw [show (s.work faults t' stage).2 = some next by rw [hwork, hnext]]
      refine view_congr (.refl t _) rfl .rfl rfl rfl ?_ rfl rfl rfl rfl .rfl rfl
      rw [hnone]
      simp [view, Ne.symm ht]
    | none =>
      simp only [effect, hfinishing]
      rw [show (s.work faults t' stage).2 = none by rw [hwork, hnext]]
      refine view_congr ?_ ?_ ?_ rfl rfl ?_ rfl rfl rfl rfl .rfl rfl
      · simp only [work_modify hk, Loop.put]
        rw [hwork]
        exact .endTurn faults entered _
      · simp [work_modify hk, Loop.put, ht]
      · have hstill : (s.work faults t' stage).1.loop.running = some t' := by
          rw [hwork]
          exact hrunning
        simp [hstill, Ne.symm ht]
      · rw [hnone]
        rfl

/-- The end of the loop thread is a step of every task. -/
theorem progress_endLoop (henabled : enabled respond s .endLoop = true) :
    Progress respond t .endLoop (view s t) (view (effect respond s .endLoop) t) := by
  simp only [enabled, Bool.and_eq_true, Bool.not_eq_true', Option.isNone_iff_eq_none] at henabled
  obtain ⟨⟨hended, hfinishing⟩, hrunning⟩ := henabled
  have hview : view (effect respond s .endLoop) t = { view s t with ended := true } := rfl
  rw [hview]
  exact .inl (.endLoop hended (by simp [view, hrunning]) (by simp [view, hfinishing]))

end Rayo.Lifecycle
