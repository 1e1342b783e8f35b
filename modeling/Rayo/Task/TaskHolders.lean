import Rayo.Task.Enrollment

/-!
# Who holds a task

A task is referred to by the map of live tasks, by the `schedule` call that has created it, by its
turn and by the `stop` call that has taken it out of the map. Only its creation makes a task live,
and once nothing of these refers to it, nothing will again.
-/

namespace Rayo.Lifecycle

open Asyncio HandlerTask

variable {respond : Value → HandlerResponse} {t : TaskId} {e : Event} {v v' : View}
  {k : HandlerTask} {l l' : Local} {n : ℕ} {faults : Faults} {stage : FinishStage}

/-- Only the creation of a task makes it live. -/
theorem Step.live (hstep : Step respond t e v v') (hlive : v'.live = true) :
    v.live = true ∨ e = .create t := by
  cases hstep with
  | create => exact .inr rfl
  | @refuse _ l hshows =>
    simp [View.put, refusal, send_live, HandlerTask.removeLive] at hlive
  | @run _ l faults finishedFuture _ _ _ hshows hcancelled =>
    have hcall : Undecided t l (HandlerTask.call faults t finishedFuture l) := .call hcancelled
    rw [hshows.live, ← hcall.shared]
    exact .inl hlive
  | @resume _ l faults input _ _ _ hshows _ hending =>
    have hresume : Undecided t l (HandlerTask.resume respond faults t input l) := .resume hending
    rw [hshows.live, ← hresume.shared]
    exact .inl hlive
  | @finish _ l faults stage next entered _ _ hshows =>
    rw [hshows.live]
    simp only [View.remember_live, View.put] at hlive
    exact .inl (decide_eq_true (advance_live.subset (of_decide_eq_true hlive)))
  | @finishLast _ l faults stage entered _ _ hshows =>
    have hturn := (Undecided.endTurn (t := t) faults entered (stage.advance faults t l).1).shared
    rw [hshows.live]
    simp only [View.remember_live, View.put, hturn] at hlive
    exact .inl (decide_eq_true (advance_live.subset (of_decide_eq_true hlive)))
  | drain => cases hlive
  | @disposeFinish _ l faults c stage _ hshows =>
    rw [hshows.live]
    simp only [View.setDisposal, View.remember_live, View.put] at hlive
    exact .inl (decide_eq_true (advance_live.subset (of_decide_eq_true hlive)))
  | @call _ l l' _ hshows hquiet =>
    rw [hshows.live, ← hquiet.shared]
    exact .inl hlive
  | @finishAgain _ l faults response completion hshows hfinished =>
    have hsend : HandlerTask.finish faults t response completion l = send t response l := by
      simp only [HandlerTask.finish, hfinished, if_true]
    rw [hsend] at hlive
    simp only [View.put, send_live] at hlive
    rw [hshows.live]
    exact .inl hlive
  | _ => exact .inl hlive

/-- Something on the way from `schedule` to the end of `stop` refers to the task. -/
def View.Held (v : View) : Prop :=
  v.live = true ∨ v.schedule = .inserted ∨ v.running = true ∨ ∃ c, v.disposals c ≠ .none

/-- There is a task that is referred to. -/
theorem View.Held.task_isSome (h : v.Held) (hplaced : v.Placed) : v.task.isSome = true := by
  rcases h with hlive | hinserted | hrunning | ⟨c, hc⟩
  · exact hplaced.task_of_live hlive
  · exact hplaced.task_of_schedule (by rw [hinserted]; rintro ⟨⟩)
  · refine hplaced.task_isSome fun hblank => ?_
    rw [hblank] at hrunning
    cases hrunning
  · exact hplaced.task_of_disposal hc

/-- A request is inserted when its task is created. -/
theorem Step.inserted (hstep : Step respond t e v v') (h : v'.schedule = .inserted) :
    v.schedule = .inserted ∨ e = .create t := by
  cases hstep with
  | create => exact .inr rfl
  | accept => cases h
  | refuse => cases h
  | finish =>
    exact .inl (by simpa only [View.setDisposal, View.remember_schedule, View.put] using h)
  | finishLast =>
    exact .inl (by simpa only [View.setDisposal, View.remember_schedule, View.put] using h)
  | disposeFinish =>
    exact .inl (by simpa only [View.setDisposal, View.remember_schedule, View.put] using h)
  | _ => exact .inl h

/-- It is the turn of a task when the loop runs one of its handles. -/
theorem Step.running (hstep : Step respond t e v v') (h : v'.running = true) :
    v.running = true ∨ ∃ faults, e = .run faults := by
  cases hstep with
  | run => exact .inr ⟨_, rfl⟩
  | runCancelled => exact .inr ⟨_, rfl⟩
  | resume _ hrunning => exact .inl hrunning
  | finish => exact .inl (by simpa only [View.setDisposal, View.remember_running, View.put] using h)
  | finishLast => cases h
  | disposeFinish =>
    exact .inl (by simpa only [View.setDisposal, View.remember_running, View.put] using h)
  | _ => exact .inl h

/-- A `stop` call takes the tasks that are live. -/
theorem Step.disposals (hstep : Step respond t e v v') {c : StopId}
    (h : v'.disposals c ≠ .none) : v.live = true ∨ ∃ c, v.disposals c ≠ .none := by
  cases hstep with
  | finish => exact .inr ⟨c, by simpa only [View.remember_disposals, View.put] using h⟩
  | finishLast => exact .inr ⟨c, by simpa only [View.remember_disposals, View.put] using h⟩
  | drain _ hlive => exact .inl hlive
  | dispose hwaiting => exact .inr ⟨_, by rw [hwaiting]; rintro ⟨⟩⟩
  | disposeUnbuilt hwaiting => exact .inr ⟨_, by rw [hwaiting]; rintro ⟨⟩⟩
  | closed hclosing => exact .inr ⟨_, by rw [hclosing]; rintro ⟨⟩⟩
  | disposeFinish hdisposal => exact .inr ⟨_, by rw [hdisposal]; rintro ⟨⟩⟩
  | _ => exact .inr ⟨c, h⟩

/-- Nothing comes to refer to a task by itself. -/
theorem Step.held (hstep : Step respond t e v v') (h : v'.Held) :
    v.Held ∨ e = .create t ∨ (v'.running = true ∧ ∃ faults, e = .run faults) := by
  rcases h with hlive | hinserted | hrunning | ⟨c, hc⟩
  · exact (hstep.live hlive).imp .inl .inl
  · exact (hstep.inserted hinserted).imp (fun h => .inr (.inl h)) .inl
  · rcases hstep.running hrunning with hbefore | hrun
    · exact .inl (.inr (.inr (.inl hbefore)))
    · exact .inr (.inr ⟨hrunning, hrun⟩)
  · rcases hstep.disposals hc with hlive | hdisposal
    · exact .inl (.inl hlive)
    · exact .inl (.inr (.inr (.inr hdisposal)))

/-- Once a task has been created it stays known. -/
theorem Step.task_stays (hstep : Step respond t e v v') (h : v.task.isSome = true) :
    v'.task.isSome = true := by
  cases hstep with
  | create => rfl
  | accept => exact h
  | endLoop => exact h
  | drain => exact h
  | dispose => exact h
  | disposeUnbuilt => exact h
  | closed => exact h
  | finish => exact Option.isSome_of_eq_some (View.remember_task ..)
  | finishLast => exact Option.isSome_of_eq_some (View.remember_task ..)
  | disposeFinish => exact Option.isSome_of_eq_some (View.remember_task ..)
  | resumeEnding => exact h
  | _ => rfl

/-- Only `schedule` creates tasks. -/
theorem Step.task_new (hstep : Step respond t e v v') (h : v'.task.isSome = true) :
    v.task.isSome = true ∨ e = .create t := by
  cases hstep with
  | create => exact .inr rfl
  | accept => exact .inl h
  | endLoop => exact .inl h
  | drain => exact .inl h
  | dispose => exact .inl h
  | disposeUnbuilt => exact .inl h
  | closed => exact .inl h
  | resumeEnding => exact .inl h
  | runCancelled _ _ _ htask => exact .inl (Option.isSome_of_eq_some htask)
  | addDoneCallback htask => exact .inl (Option.isSome_of_eq_some htask)
  | removeDoneCallback htask => exact .inl (Option.isSome_of_eq_some htask)
  | refuse hshows => exact .inl (Option.isSome_of_eq_some hshows.task)
  | run _ _ _ _ hshows => exact .inl (Option.isSome_of_eq_some hshows.task)
  | resume _ _ _ hshows => exact .inl (Option.isSome_of_eq_some hshows.task)
  | finish _ _ hshows => exact .inl (Option.isSome_of_eq_some hshows.task)
  | finishLast _ _ hshows => exact .inl (Option.isSome_of_eq_some hshows.task)
  | disposeFinish _ hshows => exact .inl (Option.isSome_of_eq_some hshows.task)
  | call hshows => exact .inl (Option.isSome_of_eq_some hshows.task)
  | finishAgain hshows => exact .inl (Option.isSome_of_eq_some hshows.task)

/-- A task is live only while its request is not refused. -/
def View.Admitted (v : View) : Prop :=
  v.live = true → v.schedule = .inserted ∨ v.schedule = .accepted

/-- **One step** keeps what a view shows of the call of `schedule`. -/
theorem Step.admitted (hstep : Step respond t e v v') (h : v.Admitted) : v'.Admitted := by
  intro hlive
  rcases hstep.live hlive with hbefore | rfl
  · cases hstep with
    | create => exact .inl rfl
    | accept => exact .inr rfl
    | refuse => simp [View.put, refusal, send_live, HandlerTask.removeLive] at hlive
    | drain => cases hlive
    | finish =>
      rw [View.remember_schedule]
      exact h hbefore
    | finishLast =>
      rw [View.remember_schedule]
      exact h hbefore
    | disposeFinish =>
      rw [View.setDisposal, View.remember_schedule]
      exact h hbefore
    | _ => exact h hbefore
  · cases hstep with
    | create => exact .inl rfl
    | call hshows hquiet =>
      refine h ?_
      rw [hshows.live, ← hquiet.shared]
      exact hlive

/-- The event takes the task that the view is of out of `live_tasks`, by its address. -/
def View.removes (v : View) (t : TaskId) : Event → Bool
  | .refuse t' => t' = t
  | e => v.performs isRemoveLive e

/-- A stage that is not about `live_tasks` leaves it alone. -/
theorem advance_liveTasks (faults : Faults) (t : TaskId) (l : Local)
    (hstage : ∀ response wasRegistered callbacks,
      stage ≠ .removeLive response wasRegistered callbacks) :
    (stage.advance faults t l).1.world.shared.liveTasks = l.world.shared.liveTasks := by
  rcases stage with _ | _ | _ | ⟨_, _ | _⟩ | _ | _ | _ <;> dsimp only [FinishStage.advance]
  case removeLive => exact absurd rfl (hstage _ _ _)
  all_goals first | rfl | (split <;> rfl)

/-- A live task stays live unless it is removed by its address or the map is emptied. -/
theorem Step.live_of_live (hstep : Step respond t e v v') (hlive : v.live = true) :
    v'.live = true ∨ v.removes t e = true ∨ ∃ c order, e = .drain c order := by
  have hadvance {l : Local} (faults : Faults) (stage : FinishStage) (hshows : v.Shows t l)
      (hstage : ∀ response wasRegistered callbacks,
        stage ≠ .removeLive response wasRegistered callbacks) :
      (v.put t (stage.advance faults t l).1).live = true := by
    rw [hshows.live] at hlive
    simp only [View.put, advance_liveTasks faults t l hstage]
    exact hlive
  cases hstep with
  | create => exact .inl rfl
  | refuse => exact .inr (.inl (decide_eq_true rfl))
  | @run _ l faults finishedFuture _ _ _ hshows hcancelled =>
    have hcall : Undecided t l (HandlerTask.call faults t finishedFuture l) := .call hcancelled
    rw [hshows.live, ← hcall.shared] at hlive
    exact .inl hlive
  | @resume _ l faults input _ _ _ hshows _ hending =>
    have hresume : Undecided t l (HandlerTask.resume respond faults t input l) := .resume hending
    rw [hshows.live, ← hresume.shared] at hlive
    exact .inl hlive
  | @finish _ l faults stage next entered _ hfinishing hshows =>
    by_cases hstage : ∃ response wasRegistered callbacks,
        stage = .removeLive response wasRegistered callbacks
    · obtain ⟨response, wasRegistered, callbacks, rfl⟩ := hstage
      exact .inr (.inl (View.performs_finish faults hfinishing))
    · refine .inl ?_
      rw [← hadvance faults stage hshows fun r w c h => hstage ⟨r, w, c, h⟩]
      exact View.remember_live ..
  | @finishLast _ l faults stage entered _ hfinishing hshows =>
    by_cases hstage : ∃ response wasRegistered callbacks,
        stage = .removeLive response wasRegistered callbacks
    · obtain ⟨response, wasRegistered, callbacks, rfl⟩ := hstage
      exact .inr (.inl (View.performs_finish faults hfinishing))
    · have hturn := (Undecided.endTurn (t := t) faults entered (stage.advance faults t l).1).shared
      refine .inl ?_
      rw [← hadvance faults stage hshows fun r w c h => hstage ⟨r, w, c, h⟩]
      refine (View.remember_live ..).trans ?_
      simp only [View.put, hturn]
  | drain => exact .inr (.inr ⟨_, _, rfl⟩)
  | @disposeFinish _ l faults c stage hdisposal hshows =>
    by_cases hstage : ∃ response wasRegistered callbacks,
        stage = .removeLive response wasRegistered callbacks
    · obtain ⟨response, wasRegistered, callbacks, rfl⟩ := hstage
      exact .inr (.inl (View.performs_disposeFinish faults hdisposal))
    · refine .inl ?_
      rw [← hadvance faults stage hshows fun r w c h => hstage ⟨r, w, c, h⟩]
      exact View.remember_live ..
  | @call _ l l' _ hshows hquiet =>
    rw [hshows.live, ← hquiet.shared] at hlive
    exact .inl hlive
  | @finishAgain _ l faults response completion hshows hfinished =>
    have hsend : HandlerTask.finish faults t response completion l = send t response l := by
      simp only [HandlerTask.finish, hfinished, if_true]
    rw [hshows.live] at hlive
    refine .inl ?_
    rw [hsend]
    simp only [View.put, send_live]
    exact hlive
  | _ => exact .inl hlive

end Rayo.Lifecycle
