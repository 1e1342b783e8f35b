import Mathlib.Data.List.Nodup
import Rayo.Task.TaskSteps

/-!
# Where a task can be

A task is live until it is finished or a `stop` call takes it, belongs to one `stop` call at
most, and is in the middle of a `finish` on the loop thread only while it is its turn. This
holds of all runs, and it keeps the lists of tasks apart.
-/

namespace Rayo.Lifecycle

open Asyncio HandlerTask

namespace View

variable {v : View} {t : TaskId} {l : Local}

/-- The view of a task that has not been created. -/
def blank (ended : Bool) : View where
  ended := ended
  task := none
  schedule := .idle
  live := false
  registered := false
  responses := []
  operations := []
  running := false
  finishing := none
  disposals _ := .none
  completions := []
  added := []
  handed := []
  unregisterError := false
  fate := .unbuilt

/-- What a view shows in every run. -/
structure Placed (v : View) : Prop where
  blank : v.task = none → v = blank v.ended
  live : v.live = true → ∀ c, v.disposals c = .none
  single : ∀ c c', v.disposals c ≠ .none → v.disposals c' ≠ .none → c = c'
  finishing : v.finishing ≠ none → v.running = true
  idle : v.running = false → ∀ k, v.task = some k → k.phase = .idle

/-- A view of a task shows that task. -/
theorem Shows.task (h : v.Shows t l) : v.task = some l.task := (congrArg View.task h).symm

/-- It shows whether the task is in the registry. -/
theorem Shows.live (h : v.Shows t l) : v.live = decide (t ∈ l.world.shared.liveTasks) :=
  (congrArg View.live h).symm

/-- It shows whether asyncio has the task registered. -/
theorem Shows.registered (h : v.Shows t l) : v.registered = decide (t ∈ l.world.registered) :=
  (congrArg View.registered h).symm

/-- It shows the responses to the request of the task. -/
theorem Shows.responses (h : v.Shows t l) :
    v.responses = l.world.shared.responses.filter (·.1 = t) := (congrArg View.responses h).symm

/-- It shows the operations of the task. -/
theorem Shows.operations (h : v.Shows t l) : v.operations = Rayo.operations l.world t :=
  (congrArg View.operations h).symm

/-- A view that is not blank shows a task. -/
theorem Placed.task_isSome (h : v.Placed) (hblank : v ≠ View.blank v.ended) :
    v.task.isSome = true := by
  by_contra hnone
  exact hblank (h.blank (by simpa using hnone))

/-- A task that `schedule` has been called for is there. -/
theorem Placed.task_of_schedule (h : v.Placed) (hschedule : v.schedule ≠ .idle) :
    v.task.isSome = true :=
  h.task_isSome fun hblank => hschedule (by rw [hblank]; rfl)

/-- A task in the registry is there. -/
theorem Placed.task_of_live (h : v.Placed) (hlive : v.live = true) : v.task.isSome = true := by
  refine h.task_isSome fun hblank => ?_
  rw [hblank] at hlive
  simp [View.blank] at hlive

/-- A task that a stop call has drained is there. -/
theorem Placed.task_of_disposal (h : v.Placed) {c : StopId} (hdisposal : v.disposals c ≠ .none) :
    v.task.isSome = true :=
  h.task_isSome fun hblank => hdisposal (by rw [hblank]; rfl)

/-- A task whose `finish` runs is there. -/
theorem Placed.task_of_finishing (h : v.Placed) (hfinishing : v.finishing ≠ none) :
    v.task.isSome = true :=
  h.task_isSome fun hblank => hfinishing (by rw [hblank]; rfl)

/-- The view of a task that has not been created is placed. -/
theorem blank_placed (ended : Bool) : (blank ended).Placed := by
  refine ⟨fun _ => rfl, fun h => ?_, fun c _ h => ?_, fun h => ?_, fun _ k h => ?_⟩
  · simp [blank] at h
  · exact absurd rfl h
  · exact absurd rfl h
  · simp [blank] at h

/-- The `stop` call that has the task goes on with it, or one takes it that no other has. -/
theorem Placed.setDisposal (h : v.Placed) {c : StopId} (disposal : Disposal)
    (htask : v.task.isSome = true) (hlive : v.live = false)
    (hother : ∀ c', v.disposals c' ≠ .none → c' = c) : (v.setDisposal c disposal).Placed := by
  refine ⟨fun hnone => ?_, fun hl => ?_, ?_, h.finishing, h.idle⟩
  · simp only [View.setDisposal] at hnone
    simp [hnone] at htask
  · simp only [View.setDisposal] at hl
    simp [hl] at hlive
  · intro c₁ c₂ h₁ h₂
    have honly : ∀ c', (v.setDisposal c disposal).disposals c' ≠ .none → c' = c := by
      intro c' hc'
      by_cases hc : c' = c
      · exact hc
      · exact hother c' (by simpa [View.setDisposal, hc] using hc')
    rw [honly c₁ h₁, honly c₂ h₂]

/-- The task changes, and where it is does not. -/
theorem Placed.put (h : v.Placed) (hlive : t ∈ l.world.shared.liveTasks → v.live = true)
    (hphase : v.running = false → l.task.phase = .idle) : (v.put t l).Placed := by
  refine ⟨(by rintro ⟨⟩), fun hl => h.live (hlive ?_), h.single, h.finishing, fun hrunning k hk => ?_⟩
  · simpa [View.put] using hl
  · obtain rfl : l.task = k := Option.some.inj hk
    exact hphase hrunning

/-- What a stage of `finish` notes says nothing about where its task is. -/
theorem remember_eq (v : View) (faults : Faults) (k : HandlerTask) (stage : FinishStage) :
    ∃ completions handed unregisterError, v.remember faults k stage =
      { v with
        completions := completions
        handed := handed
        unregisterError := unregisterError } := by
  unfold View.remember
  split
  · split <;> exact ⟨_, _, _, rfl⟩
  · split <;> exact ⟨_, _, _, rfl⟩
  · exact ⟨_, _, _, rfl⟩
  · exact ⟨_, _, _, rfl⟩

/-- What the histories note leaves the task as it is. -/
theorem remember_task (v : View) (faults : Faults) (k : HandlerTask) (stage : FinishStage) :
    (v.remember faults k stage).task = v.task := by
  obtain ⟨completions, handed, unregisterError, hv⟩ := remember_eq v faults k stage
  rw [hv]

/-- What the histories note leaves the running turn as it is. -/
theorem remember_running (v : View) (faults : Faults) (k : HandlerTask) (stage : FinishStage) :
    (v.remember faults k stage).running = v.running := by
  obtain ⟨completions, handed, unregisterError, hv⟩ := remember_eq v faults k stage
  rw [hv]

/-- What the histories note leaves the stop calls as they are. -/
theorem remember_disposals (v : View) (faults : Faults) (k : HandlerTask) (stage : FinishStage) :
    (v.remember faults k stage).disposals = v.disposals := by
  obtain ⟨completions, handed, unregisterError, hv⟩ := remember_eq v faults k stage
  rw [hv]

/-- What the histories note leaves the `finish` on the loop as it is. -/
theorem remember_finishing (v : View) (faults : Faults) (k : HandlerTask) (stage : FinishStage) :
    (v.remember faults k stage).finishing = v.finishing := by
  obtain ⟨completions, handed, unregisterError, hv⟩ := remember_eq v faults k stage
  rw [hv]

/-- What the histories note leaves the responses as they are. -/
theorem remember_responses (v : View) (faults : Faults) (k : HandlerTask) (stage : FinishStage) :
    (v.remember faults k stage).responses = v.responses := by
  obtain ⟨completions, handed, unregisterError, hv⟩ := remember_eq v faults k stage
  rw [hv]

/-- What the histories note leaves the call of `schedule` as it is. -/
theorem remember_schedule (v : View) (faults : Faults) (k : HandlerTask) (stage : FinishStage) :
    (v.remember faults k stage).schedule = v.schedule := by
  obtain ⟨completions, handed, unregisterError, hv⟩ := remember_eq v faults k stage
  rw [hv]

/-- What the histories note leaves the loop thread as it is. -/
theorem remember_ended (v : View) (faults : Faults) (k : HandlerTask) (stage : FinishStage) :
    (v.remember faults k stage).ended = v.ended := by
  obtain ⟨completions, handed, unregisterError, hv⟩ := remember_eq v faults k stage
  rw [hv]

/-- What the histories note of `finish` leaves the fate of the coroutine as it is. -/
theorem remember_fate (v : View) (faults : Faults) (k : HandlerTask) (stage : FinishStage) :
    (v.remember faults k stage).fate = v.fate := by
  obtain ⟨completions, handed, unregisterError, hv⟩ := remember_eq v faults k stage
  rw [hv]

/-- A placed view stays placed as the histories note a stage of `finish`. -/
theorem Placed.remember (h : v.Placed) (faults : Faults) (k : HandlerTask) (stage : FinishStage)
    (htask : v.task.isSome = true) : (v.remember faults k stage).Placed := by
  obtain ⟨completions, handed, unregisterError, hv⟩ := remember_eq v faults k stage
  rw [hv]
  refine ⟨fun hnone => ?_, h.live, h.single, h.finishing, h.idle⟩
  simp only at hnone
  simp [hnone] at htask

end View

section

variable {faults : Faults} {stage : FinishStage} {t : TaskId} {l : Local}

/-- A stage of `finish` adds nothing to the registry. -/
theorem advance_live :
    (stage.advance faults t l).1.world.shared.liveTasks.Sublist l.world.shared.liveTasks := by
  rcases stage with _ | _ | _ | ⟨_, _ | _⟩ | _ | _ | _ <;> simp only [FinishStage.advance]
  case removeLive => exact List.filter_sublist
  all_goals first | exact .refl _ | (split <;> exact .refl _)

/-- A stage of `finish` leaves the phase of its task as it is. -/
theorem advance_phase : (stage.advance faults t l).1.task.phase = l.task.phase := by
  rcases stage with _ | _ | _ | ⟨_, _ | _⟩ | _ | _ | _ <;> simp only [FinishStage.advance]
  all_goals first | rfl | (split <;> rfl)

/-- A response leaves the registry as it is. -/
theorem send_live {response : HandlerResponse} :
    (send t response l).world.shared.liveTasks = l.world.shared.liveTasks := by
  unfold send
  split <;> rfl

/-- A response leaves the phase of its task as it is. -/
theorem send_phase {response : HandlerResponse} :
    (send t response l).task.phase = l.task.phase := by
  unfold send
  split <;> rfl

end

variable {respond : Value → HandlerResponse} {t : TaskId} {e : Event} {v v' : View}
  {faults : Faults} {stage : FinishStage} {l l' : Local}

/-- A turn comes back, or leaves Python code running. -/
theorem View.Placed.turn (h : v.Placed) (hshows : v.Shows t l) (hfinishing : v.finishing = none)
    (hshared : l'.world.shared = l.world.shared) :
    ({ v.put t l' with running := l'.task.phase ≠ .idle } : View).Placed := by
  refine ⟨(by rintro ⟨⟩), fun hl => h.live ?_, h.single, fun hne => absurd hfinishing hne, ?_⟩
  · rw [hshows.live, ← hshared]
    exact hl
  · intro hidle k hk
    obtain rfl : l'.task = k := Option.some.inj hk
    simpa using hidle

/-- A stage of a `finish`. -/
theorem View.Placed.work (h : v.Placed) (hshows : v.Shows t l) :
    ((v.put t (stage.advance faults t l).1).remember faults l.task stage).Placed := by
  refine View.Placed.remember (h.put (fun hl => ?_) fun hrunning => ?_) faults l.task stage rfl
  · rw [hshows.live]
    exact decide_eq_true (advance_live.subset hl)
  · rw [advance_phase]
    exact h.idle hrunning _ hshows.task

/-- The `stop` call that has the task goes on with it. -/
theorem View.Placed.disposal (h : v.Placed) {c : StopId} (disposal : Disposal)
    (hc : v.disposals c ≠ .none) : (v.setDisposal c disposal).Placed := by
  refine h.setDisposal disposal (h.task_of_disposal hc) ?_ fun c' hc' => h.single c' c hc' hc
  by_contra hlive
  exact hc (h.live (by simpa using hlive) c)

/-- A task is where it can be after every step. -/
theorem Step.placed (hstep : Step respond t e v v') (h : v.Placed) : v'.Placed := by
  cases hstep with
  | create hnone hidle =>
    have hblank := h.blank hnone
    have hdisposals : v.disposals = fun _ => .none := congrArg View.disposals hblank
    have hfinishing : v.finishing = none := congrArg View.finishing hblank
    refine ⟨(by rintro ⟨⟩), fun _ c => congrFun hdisposals c, h.single, h.finishing, fun _ k hk => ?_⟩
    obtain rfl : new = k := Option.some.inj hk
    rfl
  | accept hinserted =>
    have htask := h.task_of_schedule (by simp [hinserted])
    refine ⟨fun hnone => ?_, h.live, h.single, h.finishing, h.idle⟩
    simp only at hnone
    simp [hnone] at htask
  | @refuse _ l hshows _ =>
    have hput : (v.put t (refusal t l)).Placed := by
      refine h.put (fun hl => ?_) fun hrunning => ?_
      · rw [hshows.live]
        simp only [refusal, send_live] at hl
        simpa using List.mem_of_mem_filter hl
      · rw [refusal, send_phase]
        exact h.idle hrunning _ hshows.task
    exact ⟨(by rintro ⟨⟩), hput.live, hput.single, hput.finishing, hput.idle⟩
  | @run _ l faults finishedFuture hended hrunning hfinishing hshows hcancelled =>
    have hquiet : Undecided t l (HandlerTask.call faults t finishedFuture l) := .call hcancelled
    exact h.turn hshows hfinishing hquiet.shared
  | runCancelled hended hrunning hfinishing htask hcancelled =>
    refine ⟨(by rintro ⟨⟩), h.live, h.single, fun _ => rfl, (by rintro ⟨⟩)⟩
  | @resume _ l faults input hended hrunning hfinishing hshows haccepts hending =>
    have hquiet : Undecided t l (HandlerTask.resume respond faults t input l) := .resume hending
    have hturn := h.turn hshows hfinishing hquiet.shared
    exact ⟨(by rintro ⟨⟩), hturn.live, hturn.single, hturn.finishing, hturn.idle⟩
  | resumeEnding hended hrunning hfinishing htask hending =>
    refine ⟨fun hnone => ?_, h.live, h.single, fun _ => hrunning, h.idle⟩
    simp only at hnone
    simp [hnone] at htask
  | @finish _ l faults stage next entered hended hfinishing hshows hnext =>
    have hwork : ((v.put t (stage.advance faults t l).1).remember faults l.task stage).Placed :=
      h.work hshows
    refine ⟨fun hnone => ?_, hwork.live, hwork.single, fun _ => ?_, hwork.idle⟩
    · simp [View.remember_task, View.put] at hnone
    · rw [View.remember_running]
      exact h.finishing (by simp [hfinishing])
  | @finishLast _ l faults stage entered hended hfinishing hshows hnext =>
    have hput : (v.put t (endTurn faults entered (stage.advance faults t l).1)).Placed := by
      refine h.put (fun hl => ?_) fun _ => endTurn_phase
      rw [(Undecided.endTurn (t := t) faults entered _).shared] at hl
      rw [hshows.live]
      exact decide_eq_true (advance_live.subset hl)
    have hwork := hput.remember faults l.task stage rfl
    refine ⟨fun hnone => ?_, hwork.live, hwork.single, fun hne => absurd rfl hne, fun _ k hk => ?_⟩
    · simp [View.remember_task, View.put] at hnone
    · simp only [View.remember_task, View.put, Option.some.injEq] at hk
      exact hk ▸ endTurn_phase
  | endLoop hended hrunning hfinishing =>
    refine ⟨fun hnone => ?_, h.live, h.single, h.finishing, h.idle⟩
    have hblank := h.blank hnone
    exact congrArg (fun v : View => { v with ended := true }) hblank
  | drain hdisposal hlive =>
    have htask := h.task_of_live hlive
    have hnone := h.live hlive
    have hdrained : ({ v with live := false } : View).Placed := by
      refine ⟨fun hempty => ?_, (by rintro ⟨⟩), h.single, h.finishing, h.idle⟩
      simp only at hempty
      simp [hempty] at htask
    exact hdrained.setDisposal .waiting htask rfl fun c' hc' => absurd (hnone c') hc'
  | dispose hwaiting htask _ => exact h.disposal .closing (by simp [hwaiting])
  | disposeUnbuilt hwaiting htask _ => exact h.disposal _ (by simp [hwaiting])
  | closed hclosing =>
    have hset := h.disposal (.finishing (.record .internalError .aborted))
      (by rw [hclosing]; rintro ⟨⟩)
    refine ⟨fun hnone => ?_, hset.live, hset.single, hset.finishing, hset.idle⟩
    have htask := h.task_of_disposal (by rw [hclosing]; rintro ⟨⟩)
    simp only [View.setDisposal] at hnone
    simp [hnone] at htask
  | @disposeFinish _ l faults c stage hdisposal hshows =>
    refine View.Placed.disposal (h.work hshows) _ ?_
    rw [View.remember_disposals]
    simp [View.put, hdisposal]
  | @call _ l l' _ hshows hquiet =>
    refine h.put (fun hl => ?_) fun hrunning => ?_
    · rw [hshows.live, ← hquiet.shared]
      exact decide_eq_true hl
    · rw [hquiet.phase]
      exact h.idle hrunning _ hshows.task
  | addDoneCallback htask =>
    refine ⟨(by rintro ⟨⟩), h.live, h.single, h.finishing, fun hrunning k hk => ?_⟩
    have hphase := h.idle hrunning _ htask
    obtain rfl := Option.some.inj hk
    split
    · exact hphase
    · exact hphase
  | removeDoneCallback htask =>
    refine ⟨(by rintro ⟨⟩), h.live, h.single, h.finishing, fun hrunning k hk => ?_⟩
    have hphase := h.idle hrunning _ htask
    obtain rfl := Option.some.inj hk
    exact hphase
  | finishAgain hshows hfinished hsent =>
    refine h.put (fun hl => ?_) fun hrunning => ?_
    · rw [HandlerTask.finish, if_pos hfinished, send_live] at hl
      rw [hshows.live]
      exact decide_eq_true hl
    · rw [HandlerTask.finish, if_pos hfinished, send_phase]
      exact h.idle hrunning _ hshows.task

/-- Nothing happens to a task before it is created. -/
theorem Step.of_absent (hstep : Step respond t e v v') (h : v.Placed) (hnone : v.task = none) :
    v' = { View.blank v.ended with task := some new, schedule := .inserted, live := true } ∨
      v' = View.blank true := by
  have hblank := h.blank hnone
  cases hstep with
  | create =>
    left
    exact congrArg (fun v : View =>
      { v with task := some new, schedule := .inserted, live := true }) hblank
  | endLoop =>
    right
    exact congrArg (fun v : View => { v with ended := true }) hblank
  | accept hinserted => exact absurd hinserted (by rw [hblank]; rintro ⟨⟩)
  | refuse hshows => cases (hshows.task.symm.trans hnone)
  | run _ _ _ _ hshows => cases (hshows.task.symm.trans hnone)
  | runCancelled _ _ _ htask => cases (htask.symm.trans hnone)
  | resume _ _ _ hshows => cases (hshows.task.symm.trans hnone)
  | resumeEnding _ _ _ htask => cases (htask.symm.trans hnone)
  | finish _ _ hshows => cases (hshows.task.symm.trans hnone)
  | finishLast _ _ hshows => cases (hshows.task.symm.trans hnone)
  | drain _ hlive => exact absurd hlive (by rw [hblank]; rintro ⟨⟩)
  | dispose _ htask => cases (htask.symm.trans hnone)
  | disposeUnbuilt _ htask => cases (htask.symm.trans hnone)
  | closed hc => exact absurd hc (by rw [hblank]; rintro ⟨⟩)
  | disposeFinish _ hshows => cases (hshows.task.symm.trans hnone)
  | call hshows => cases (hshows.task.symm.trans hnone)
  | addDoneCallback htask => cases (htask.symm.trans hnone)
  | removeDoneCallback htask => cases (htask.symm.trans hnone)
  | finishAgain hshows => cases (hshows.task.symm.trans hnone)

variable {s : Lifecycle}

/-- What a loop with all its tasks keeps in every run. -/
structure Sound (s : Lifecycle) : Prop where
  live_nodup : s.live.Nodup
  stops_nodup : ∀ c, (s.stops c).tasks.Nodup
  placed : ∀ t, (view s t).Placed

/-- A sound loop keeps its lists of tasks apart. -/
theorem Sound.tidy (h : Sound s) : Tidy s := by
  refine ⟨h.live_nodup, fun t ht => ?_, h.stops_nodup, fun c t ht => ?_, fun t ht => ?_,
    fun t stage entered hs => ?_⟩
  · exact (h.placed t).task_of_live (by simpa [view] using ht)
  · exact (h.placed t).task_of_disposal (c := c) fun hnone => disposalOf_eq_none.mp hnone ht
  · exact (h.placed t).task_of_schedule (by simp [view, ht])
  · have hfinishing : (view s t).finishing ≠ none := by simp [view, hs]
    refine ⟨?_, (h.placed t).task_of_finishing hfinishing⟩
    simpa [view] using (h.placed t).finishing hfinishing

/-- Where the shared data stay, the registry does. -/
theorem live_of_shared {w w' : World LoopHandles} (h : w'.shared = w.shared) :
    w'.shared.liveTasks.Sublist w.shared.liveTasks := by
  rw [h]

/-- The registry gets no new task from what is done to a task that adds none. -/
theorem modify_live {loop : Loop LoopHandles HandlerTask} {g : Local → Local}
    (hg : ∀ k, loop.tasks t = some k →
      (g ⟨loop.world, k⟩).world.shared.liveTasks.Sublist loop.world.shared.liveTasks) :
    (loop.modify t g).world.shared.liveTasks.Sublist loop.world.shared.liveTasks := by
  unfold Loop.modify
  split
  · next k hk => exact hg k hk
  · exact .refl _

/-- The registry gets no new task from a turn that leaves the shared data alone. -/
theorem drive_live {s : Loop LoopHandles HandlerTask} {g : Local → Local}
    (hg : ∀ k, s.tasks t = some k → (g ⟨s.world, k⟩).world.shared = s.world.shared) :
    (s.drive (driver respond) t g).world.shared.liveTasks.Sublist s.world.shared.liveTasks := by
  unfold Loop.drive
  split
  · next k hk => exact live_of_shared (hg k hk)
  · exact .refl _

/-- A stage of `finish` adds nothing to the registry of its loop. -/
theorem work_live {faults : Faults} {stage : FinishStage} :
    (s.work faults t stage).1.live.Sublist s.live := by
  cases hk : s.loop.tasks t with
  | none =>
    simp only [work, hk]
    exact .refl _
  | some k =>
    rw [work_of_task _ _ hk]
    exact advance_live

/-- Only `schedule` makes a task live. -/
theorem live_sublist (henabled : enabled respond s e = true) (he : ∀ t, e ≠ .create t) :
    (effect respond s e).live.Sublist s.live := by
  cases e with
  | create t => exact absurd rfl (he t)
  | refuse t =>
    refine modify_live fun k _ => ?_
    rw [refusal, send_live]
    exact List.filter_sublist
  | run faults =>
    cases hnext : nextCancelled s.loop with
    | some next =>
      simp only [effect, hnext]
      exact .refl _
    | none =>
      simp only [effect, hnext]
      rcases run_cases respond faults hnext with
        ⟨t', k, f, hk, hcancelled, hrun⟩ | ⟨t', k, hk, hrun⟩ | hrun
      · rw [hrun]
        refine drive_live (s := pop s.loop) fun k' hk' => ?_
        obtain rfl : k = k' := Option.some.inj (hk.symm.trans hk')
        exact (Undecided.call (t := t') hcancelled).shared
      · rw [hrun]
        exact live_of_shared (@Quiet.cancelTask t' respond none _).shared
      · rw [hrun]
        exact .refl _
  | resume faults input =>
    simp only [enabled, Loop.enabled] at henabled
    cases hrunning : s.loop.running with
    | none => simp [hrunning] at henabled
    | some t =>
      cases hk : s.loop.tasks t with
      | none => simp [hrunning, hk] at henabled
      | some k =>
        have hturn : runningTask s.loop = some (t, k) := by simp [runningTask, hrunning, hk]
        cases hending : endingOfInput respond k.phase input with
        | some ending =>
          simp only [effect, hturn, hending]
          exact .refl _
        | none =>
          simp only [effect, hturn, hending, Loop.effect, hrunning]
          refine drive_live fun k' hk' => ?_
          obtain rfl : k = k' := Option.some.inj (hk.symm.trans hk')
          exact (Undecided.resume (t := t) (l := ⟨s.loop.world, k⟩) hending).shared
  | finish faults =>
    cases hfinishing : s.finishing with
    | none =>
      simp only [effect, hfinishing]
      exact .refl _
    | some finishing =>
      obtain ⟨t, stage, entered⟩ := finishing
      have hwork := @work_live t s faults stage
      simp only [effect, hfinishing]
      split
      · exact hwork
      · refine (modify_live fun k _ => ?_).trans hwork
        exact live_of_shared (Undecided.endTurn (t := t) faults entered _).shared
  | drain c order => exact List.nil_sublist _
  | dispose c =>
    simp only [effect]
    split
    · split <;> exact .refl _
    · exact .refl _
  | closed c =>
    simp only [effect]
    split <;> exact .refl _
  | disposeFinish faults c =>
    simp only [effect]
    split
    · exact work_live
    · exact .refl _
  | act a =>
    cases a with
    | schedule t => simp [enabled] at henabled
    | cancel t message =>
      exact modify_live fun k _ => live_of_shared (Quiet.cancelTask message _).shared
    | uncancel t => exact modify_live fun k _ => .refl _
    | cancelling t => exact modify_live fun k _ => .refl _
    | addDoneCallback t callback context =>
      refine modify_live fun k _ => ?_
      simp only [driver, HandlerTask.addDoneCallback]
      split <;> exact .refl _
    | removeDoneCallback t callback => exact modify_live fun k _ => .refl _
    | cancelFuture f message =>
      simp only [effect, Loop.effect, Loop.actEffect, World.cancelFuture]
      split <;> exact .refl _
    | _ => exact .refl _
  | setName t name => exact modify_live fun k _ => .refl _
  | dropRequest t =>
    simp only [effect]
    split <;> exact .refl _
  | finishAgain faults t response completion =>
    refine modify_live fun k hk => ?_
    have hfinished : k.state.finished = true := by
      simp only [enabled, finished, hk, Option.any_some, Bool.and_eq_true] at henabled
      exact henabled.1
    rw [HandlerTask.finish, if_pos hfinished, send_live]
  | _ => exact .refl _

/-- A stop call that goes on with tasks without repetition leaves all stop calls without one. -/
theorem setStop_nodup (c' : StopId) (call : StopCall) (h : ∀ c, (s.stops c).tasks.Nodup)
    (hcall : call.tasks.Nodup) (c : StopId) : ((s.setStop c' call).stops c).tasks.Nodup := by
  by_cases hc : c = c'
  · subst hc
    simpa [setStop] using hcall
  · simpa [setStop, hc] using h c

/-- A stage changes the loop and the histories. -/
theorem work_eq (s : Lifecycle) (faults : Faults) (t : TaskId) (stage : FinishStage) :
    ∃ loop completions handed unregisterErrors, (s.work faults t stage).1 =
      { s with
        loop := loop
        completions := completions
        handed := handed
        unregisterErrors := unregisterErrors } := by
  cases hk : s.loop.tasks t with
  | none =>
    simp only [work, hk]
    exact ⟨_, _, _, _, rfl⟩
  | some k =>
    rw [work_of_task _ _ hk]
    rcases stage with _ | _ | ⟨_, _ | _, _⟩ | ⟨_, _ | _⟩ | _ | _ | _ <;> simp only [remember]
    case record => split <;> exact ⟨_, _, _, _, rfl⟩
    case unregister.true => split <;> exact ⟨_, _, _, _, rfl⟩
    all_goals exact ⟨_, _, _, _, rfl⟩

/-- A stage of `finish` leaves the stop calls as they are. -/
theorem work_stops {faults : Faults} {stage : FinishStage} :
    (s.work faults t stage).1.stops = s.stops := by
  obtain ⟨loop, completions, handed, unregisterErrors, hwork⟩ := work_eq s faults t stage
  rw [hwork]

/-- A `stop` call takes its tasks out of `live_tasks`, and then one after the other. -/
theorem effect_stops_nodup (h : Sound s) (henabled : enabled respond s e = true) (c : StopId) :
    ((effect respond s e).stops c).tasks.Nodup := by
  have hstops := h.stops_nodup
  cases e with
  | takeHandle c' =>
    refine setStop_nodup c' _ hstops ?_ c
    split <;> exact List.nodup_nil
  | join c' => exact setStop_nodup c' .draining hstops List.nodup_nil c
  | drain c' order =>
    refine setStop_nodup c' _ hstops ?_ c
    cases hstop : s.stops c' <;> simp only [enabled, hstop, Bool.false_eq_true] at henabled
    have hperm : order.Perm s.live := by simpa using henabled
    exact hperm.nodup_iff.mpr h.live_nodup
  | stopReturns c' => exact setStop_nodup c' .returned hstops List.nodup_nil c
  | dispose c' =>
    simp only [effect]
    split
    · next t rest hstop =>
      have htasks := hstops c'
      rw [hstop] at htasks
      split
      · exact setStop_nodup c' (.closing t rest) hstops htasks c
      · exact setStop_nodup c' (.finishing t (.record .internalError .aborted) rest) hstops htasks c
    · exact hstops c
  | closed c' =>
    simp only [effect]
    split
    · next t rest hstop =>
      have htasks := hstops c'
      rw [hstop] at htasks
      exact setStop_nodup c' (.finishing t (.record .internalError .aborted) rest) hstops htasks c
    · exact hstops c
  | disposeFinish faults c' =>
    simp only [effect]
    split
    · next t stage rest hstop =>
      have htasks := hstops c'
      rw [hstop] at htasks
      refine setStop_nodup (s := (s.work faults t stage).1) c' _ (by rwa [work_stops]) ?_ c
      cases (s.work faults t stage).2 with
      | none => exact (List.nodup_cons.mp htasks).2
      | some next => exact htasks
    · exact hstops c
  | run faults =>
    simp only [effect]
    split <;> exact hstops c
  | resume faults input =>
    simp only [effect]
    split
    · exact hstops c
    · split <;> exact hstops c
  | finish faults =>
    simp only [effect]
    split
    · exact hstops c
    · next t stage entered hfinishing =>
      split
      · simpa only [work_stops] using hstops c
      · simpa only [work_stops] using hstops c
  | act a =>
    cases a with
    | removeDoneCallback t callback =>
      simp only [effect, noteAction]
      split <;> exact hstops c
    | _ => exact hstops c
  | dropRequest t =>
    simp only [effect]
    split <;> exact hstops c
  | _ => exact hstops c

/-- **One step** of a loop keeps what its runs keep. -/
theorem Sound.effect (h : Sound s) (henabled : enabled respond s e = true) :
    Sound (effect respond s e) := by
  refine ⟨?_, effect_stops_nodup h henabled, fun t => ?_⟩
  · by_cases he : ∃ t, e = .create t
    · obtain ⟨t, rfl⟩ := he
      exact List.Nodup.insert h.live_nodup
    · exact (live_sublist henabled fun t ht => he ⟨t, ht⟩).nodup h.live_nodup
  · rcases progress h.tidy henabled t with hstep | hsame
    · exact hstep.placed (h.placed t)
    · exact hsame ▸ h.placed t

/-- It holds from the start. -/
theorem Fresh.view (h : Fresh respond s) (t : TaskId) : view s t = .blank false := by
  ext : 1 <;> simp [Lifecycle.view, View.blank, operations, responsesOf, driver, disposalOf,
    h.loop.tasks, h.loop.running, h.loop.registered, h.loop.log, h.loop.shared, h.finishing,
    h.ended, h.schedules, h.stops, h.completions, h.added, h.handed, h.unregisterErrors, h.fate]

/-- A fresh loop is sound. -/
theorem Fresh.sound (h : Fresh respond s) : Sound s := by
  refine ⟨?_, fun c => ?_, fun t => ?_⟩
  · rw [Lifecycle.live, h.loop.shared]
    exact List.nodup_nil
  · rw [h.stops c]
    exact List.nodup_nil
  · rw [h.view t]
    exact View.blank_placed false

/-- The invariant rule for one task: what holds of a task before it is created, and is kept by
each of its permitted steps, holds in all runs whose events are permitted. -/
theorem view_invariant {allowed : Lifecycle → Event → Prop} {I : View → Prop}
    (permitted : Event → View → Prop) (hreach : (system respond).ReachesUnder allowed s) (t : TaskId)
    (hpermitted : ∀ s e, allowed s e → permitted e (view s t)) (hblank : I (.blank false))
    (hstep : ∀ e v v', v.Placed → I v → permitted e v → Step respond t e v v' → I v') :
    Sound s ∧ I (view s t) := by
  refine hreach.invariant (I := fun s => Sound s ∧ I (view s t))
    (fun s hs => ⟨Fresh.sound hs, Fresh.view hs t ▸ hblank⟩) fun s e h hallowed henabled => ?_
  obtain ⟨hsound, hI⟩ := h
  refine ⟨hsound.effect henabled, ?_⟩
  rcases progress hsound.tidy henabled t with hs | hsame
  · exact hstep e _ _ (hsound.placed t) hI (hpermitted s e hallowed) hs
  · exact hsame.symm ▸ hI

end Rayo.Lifecycle
