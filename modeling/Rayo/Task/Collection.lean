import Rayo.CycleCollector
import Rayo.Task.TaskHolders

/-!
# Tasks and the collector of cycles

A parked request is a cycle: its task waits for a future whose callback is the task. It is kept by
the map of live tasks, or by the `stop` call that took it out of the map, and neither of them is
reported to the collector. `__traverse__` reports the rest, except of a task whose state is locked.
There is no `__clear__`, so that a cycle of nothing but tasks is never freed.
-/

namespace Rayo.Lifecycle

open Asyncio HandlerTask CycleCollector

/-- A task that is not finished is in the map of live tasks or with a `stop` call, and what works on
it begins with its record. -/
structure View.Retained (v : View) : Prop where
  kept : ∀ k, v.task = some k → k.state.finished = false → v.schedule ≠ .refused →
    v.live = true ∨ ∃ c, v.disposals c ≠ .none
  works : ∀ k, v.task = some k → k.state.finished = false → ∀ stage, v.Works stage →
    ∃ response completion, stage = .record response completion

variable {respond : Value → HandlerResponse} {t : TaskId} {e : Event} {v v' : View}
  {k : HandlerTask} {l l' : Local} {faults : Faults} {stage : FinishStage}

/-- There is nothing to keep of a finished task. -/
theorem View.Retained.of_finished (h : ∀ k, v.task = some k → k.state.finished = true) :
    v.Retained := by
  constructor <;> intro k hk hunfinished
  · exact absurd (h k hk) (by simp [hunfinished])
  · exact absurd (h k hk) (by simp [hunfinished])

/-- Only these parts of a view matter. -/
theorem View.Retained.congr (h : v.Retained)
    (htask : ∀ k', v'.task = some k' → k'.state.finished = false →
      ∃ k, v.task = some k ∧ k.state.finished = false)
    (hlive : v.live = true → v'.live = true)
    (hschedule : v.schedule = .refused → v'.schedule = .refused)
    (hdisposals : ∀ c, v.disposals c ≠ .none → v'.disposals c ≠ .none)
    (hworks : ∀ stage, v'.Works stage → v.Works stage ∨
      ∃ response completion, stage = .record response completion) : v'.Retained := by
  constructor <;> intro k' hk' hunfinished'
  · intro hrefused
    obtain ⟨k, hk, hunfinished⟩ := htask k' hk' hunfinished'
    rcases h.kept k hk hunfinished fun hr => hrefused (hschedule hr) with hl | ⟨c, hc⟩
    · exact .inl (hlive hl)
    · exact .inr ⟨c, hdisposals c hc⟩
  · intro stage hstage
    obtain ⟨k, hk, hunfinished⟩ := htask k' hk' hunfinished'
    exact (hworks stage hstage).elim (h.works k hk hunfinished stage) id

/-- Part of a turn changes none of them. -/
theorem View.Retained.undecided (h : v.Retained) (hshows : v.Shows t l)
    (hundecided : Undecided t l l') : (v.put t l').Retained := by
  refine h.congr (fun k' hk' hunfinished => ?_) (fun hlive => ?_) id (fun _ => id) fun _ => .inl
  · obtain rfl : l'.task = k' := Option.some.inj hk'
    exact ⟨l.task, hshows.task, hundecided.finished.symm.trans hunfinished⟩
  · rw [hshows.live, ← hundecided.shared] at hlive
    exact hlive

/-- A stage of `finish` leaves its task finished. -/
theorem finished_of_advance (hstage : l.task.state.finished = false →
    ∃ response completion, stage = .record response completion) :
    (stage.advance faults t l).1.task.state.finished = true := by
  rcases advance_state faults t l stage with ⟨hnot, hstate⟩ | ⟨_, _, -, -, hstate⟩
  · rw [hstate]
    by_contra hunfinished
    obtain ⟨response, completion, rfl⟩ := hstage (by simpa using hunfinished)
    exact hunfinished (hnot response completion rfl)
  · rw [hstate]
    exact complete_finished ..

/-- What works on a retained task finishes it. -/
theorem View.Retained.worked (h : v.Retained) (hshows : v.Shows t l) (hworks : v.Works stage) :
    (stage.advance faults t l).1.task.state.finished = true :=
  finished_of_advance fun hunfinished => h.works l.task hshows.task hunfinished stage hworks

/-- A `stop` call begins with the task or gets further with it. -/
theorem View.Retained.setDisposal (h : v.Retained) {c : StopId} {disposal : Disposal}
    (hne : disposal ≠ .none) (hrecord : ∀ stage, disposal = .finishing stage →
      ∃ response completion, stage = .record response completion) :
    (v.setDisposal c disposal).Retained := by
  refine h.congr (fun k hk hunfinished => ⟨k, hk, hunfinished⟩) id id (fun c' hc' => ?_)
    fun stage hstage => (View.works_setDisposal hstage).imp id (hrecord stage)
  by_cases hcc : c' = c
  · subst hcc
    simpa [View.setDisposal] using hne
  · simpa [View.setDisposal, hcc] using hc'

/-- **One step** retains a task that is not finished. -/
theorem Step.retained (hstep : Step respond t e v v') (hplaced : v.Placed) (h : v.Retained) :
    v'.Retained := by
  have hsame : ∀ k, v.task = some k → k.state.finished = false →
      ∃ k, v.task = some k ∧ k.state.finished = false :=
    fun k hk hunfinished => ⟨k, hk, hunfinished⟩
  have hworks {stage : FinishStage} {next : Option (FinishStage × Bool)} {v' : View}
      (hfinishing : v'.finishing = next) (hdisposals : v'.disposals = v.disposals)
      (hrecord : ∀ stage entered, next = some (stage, entered) →
        ∃ response completion, stage = .record response completion) (hstage : v'.Works stage) :
      v.Works stage ∨ ∃ response completion, stage = .record response completion := by
    rcases hstage with ⟨entered, hstage⟩ | ⟨c, hc⟩
    · exact .inr (hrecord stage entered (hfinishing.symm.trans hstage))
    · exact .inl (.inr ⟨c, hdisposals ▸ hc⟩)
  cases hstep with
  | create hnone =>
    refine ⟨fun _ _ _ _ => .inl rfl, fun _ _ _ stage hstage => ?_⟩
    rw [hplaced.blank hnone] at hstage
    rcases hstage with ⟨_, hstage⟩ | ⟨_, hstage⟩ <;> cases hstage
  | accept hinserted =>
    refine h.congr hsame id (fun hrefused => ?_) (fun _ => id) fun _ => .inl
    rw [hinserted] at hrefused
    cases hrefused
  | @refuse _ l hshows =>
    refine ⟨fun _ _ _ hrefused => absurd rfl hrefused, fun k hk hunfinished => ?_⟩
    obtain rfl : (refusal t l).task = k := Option.some.inj hk
    have hstate : (refusal t l).task.state = l.task.state := HandlerTask.send_state ..
    exact h.works l.task hshows.task (hstate ▸ hunfinished)
  | run _ _ _ _ hshows hcancelled =>
    exact (h.undecided hshows (.call hcancelled)).congr
      (fun k hk hunfinished => ⟨k, hk, hunfinished⟩) id id (fun _ => id) fun _ => .inl
  | @runCancelled _ k _ _ _ _ htask =>
    refine h.congr (fun k' hk' hunfinished => ⟨k, htask, ?_⟩) id id (fun _ => id) fun _ =>
      hworks rfl rfl fun stage entered hrecord => ?_
    · obtain rfl := Option.some.inj hk'
      exact hunfinished
    · cases hrecord
      exact ⟨_, _, rfl⟩
  | resume _ _ _ hshows _ hending =>
    exact (h.undecided hshows (.resume hending)).congr
      (fun k hk hunfinished => ⟨k, hk, hunfinished⟩) id id (fun _ => id) fun _ => .inl
  | resumeEnding =>
    refine h.congr hsame id id (fun _ => id) fun _ => hworks rfl rfl fun stage entered hrecord => ?_
    cases hrecord
    exact ⟨_, _, rfl⟩
  | @finish _ l faults stage next entered _ hfinishing hshows =>
    refine .of_finished fun k hk => ?_
    obtain rfl := Option.some.inj ((View.remember_task ..).symm.trans hk)
    exact h.worked hshows (.inl ⟨entered, hfinishing⟩)
  | @finishLast _ l faults stage entered _ hfinishing hshows =>
    refine .of_finished fun k hk => ?_
    obtain rfl := Option.some.inj ((View.remember_task ..).symm.trans hk)
    rw [endTurn_state]
    exact h.worked hshows (.inl ⟨entered, hfinishing⟩)
  | endLoop => exact h.congr hsame id id (fun _ => id) fun _ => .inl
  | @drain _ c =>
    refine ⟨fun _ _ _ _ => .inr ⟨c, ?_⟩, fun k hk hunfinished stage hstage => ?_⟩
    · simp [View.setDisposal]
    · rcases View.works_setDisposal hstage with hstage | hstage
      · exact h.works k hk hunfinished stage hstage
      · cases hstage
  | dispose => exact h.setDisposal (by rintro ⟨⟩) (by rintro _ ⟨⟩)
  | disposeUnbuilt => exact h.setDisposal (by rintro ⟨⟩) (by rintro _ ⟨⟩; exact ⟨_, _, rfl⟩)
  | closed =>
    exact View.Retained.setDisposal (v := { v with fate := v.fate.close })
      (h.congr hsame id id (fun _ => id) fun _ => .inl) (by rintro ⟨⟩)
      (by rintro _ ⟨⟩; exact ⟨_, _, rfl⟩)
  | @disposeFinish _ l faults c stage hdisposal hshows =>
    refine .of_finished fun k hk => ?_
    obtain rfl := Option.some.inj ((View.remember_task ..).symm.trans hk)
    exact h.worked hshows (.inr ⟨c, hdisposal⟩)
  | call hshows hquiet => exact h.undecided hshows hquiet.toUndecided
  | @addDoneCallback _ k _ _ htask =>
    refine h.congr (fun k' hk' hunfinished => ⟨k, htask, ?_⟩) id id (fun _ => id) fun _ => .inl
    obtain rfl := Option.some.inj hk'
    split at hunfinished <;> exact hunfinished
  | @removeDoneCallback _ k _ htask =>
    refine h.congr (fun k' hk' hunfinished => ⟨k, htask, ?_⟩) id id (fun _ => id) fun _ => .inl
    obtain rfl := Option.some.inj hk'
    exact hunfinished
  | @finishAgain _ l faults response completion hshows hfinished =>
    refine .of_finished fun k hk => ?_
    obtain rfl := Option.some.inj hk
    have hsend : HandlerTask.finish faults t response completion l = send t response l := by
      simp only [HandlerTask.finish, hfinished, if_true]
    rw [hsend, HandlerTask.send_state]
    exact hfinished

/-- A task that has not been created is retained. -/
theorem View.blank_retained : (View.blank false).Retained :=
  .of_finished fun _ h => by cases h

/-- In every run a task that is not finished is retained. -/
theorem retained {s : Lifecycle} (hreach : (system respond).Reaches s) (t : TaskId) :
    (view s t).Retained :=
  (view_invariant (fun _ _ => True) hreach t (fun _ _ _ => trivial) View.blank_retained
    fun _ _ _ hplaced h _ hstep => hstep.retained hplaced h).2

/-- A finished task is in the map of live tasks only until its `finish` takes it out. -/
def View.Dismissed (v : View) : Prop :=
  ∀ k, v.task = some k → k.state.finished = true → v.live = true →
    ∃ stage, v.Works stage ∧ isRemoveLive stage = true

/-- Only these parts of a view matter. -/
theorem View.Dismissed.congr (h : v.Dismissed)
    (htask : ∀ k', v'.task = some k' → k'.state.finished = true →
      ∃ k, v.task = some k ∧ k.state.finished = true)
    (hlive : v'.live = true → v.live = true)
    (hworks : ∀ stage, isRemoveLive stage = true → v.Works stage → v'.Works stage) :
    v'.Dismissed := by
  intro k' hk' hfinished' hlive'
  obtain ⟨k, hk, hfinished⟩ := htask k' hk' hfinished'
  obtain ⟨stage, hstage, hremoves⟩ := h k hk hfinished (hlive hlive')
  exact ⟨stage, hworks stage hremoves hstage, hremoves⟩

/-- Part of a turn changes none of them. -/
theorem View.Dismissed.undecided (h : v.Dismissed) (hshows : v.Shows t l)
    (hundecided : Undecided t l l') : (v.put t l').Dismissed := by
  refine h.congr (fun k' hk' hfinished => ?_) (fun hlive => ?_) fun _ _ => id
  · obtain rfl : l'.task = k' := Option.some.inj hk'
    exact ⟨l.task, hshows.task, hundecided.finished.symm.trans hfinished⟩
  · rw [hshows.live, ← hundecided.shared]
    exact hlive

/-- A stage that leaves a finished task live was not about the map, or the next one is. -/
theorem advance_dismisses (hfinished : (stage.advance faults t l).1.task.state.finished = true)
    (hlive : t ∈ (stage.advance faults t l).1.world.shared.liveTasks) :
    (∃ next, (stage.advance faults t l).2 = some next ∧ isRemoveLive next = true) ∨
      l.task.state.finished = true ∧ t ∈ l.world.shared.liveTasks ∧ isRemoveLive stage = false := by
  cases hstage : isRemoveLive stage with
  | true =>
    cases stage with
    | removeLive => simp [FinishStage.advance, HandlerTask.removeLive] at hlive
    | _ => cases hstage
  | false =>
    have hother : ∀ response wasRegistered callbacks,
        stage ≠ .removeLive response wasRegistered callbacks := by
      rintro _ _ _ rfl
      cases hstage
    rw [advance_liveTasks faults t l hother] at hlive
    rcases advance_state faults t l stage with ⟨-, hstate⟩ | ⟨_, _, rfl, hunfinished, -⟩
    · exact .inr ⟨hstate ▸ hfinished, hlive, rfl⟩
    · simp [FinishStage.advance, hunfinished, isRemoveLive]

/-- A `finish` gets further on the thread that it is on, and dismisses its task. -/
theorem View.Dismissed.advance (h : v.Dismissed) (faults : Faults) (stage : FinishStage)
    (hshows : v.Shows t l)
    (htask : ∀ k, v'.task = some k → k.state = (stage.advance faults t l).1.task.state)
    (hlive : v'.live = true → t ∈ (stage.advance faults t l).1.world.shared.liveTasks)
    (hnext : ∀ next, (stage.advance faults t l).2 = some next → v'.Works next)
    (hworks : ∀ stage', stage' ≠ stage → v.Works stage' → v'.Works stage') : v'.Dismissed := by
  intro k hk hfinished hlive'
  rcases advance_dismisses (htask k hk ▸ hfinished) (hlive hlive') with
    ⟨next, hadvance, hremoves⟩ | ⟨hfinished, hmem, hstage⟩
  · exact ⟨next, hnext next hadvance, hremoves⟩
  · have hbefore : v.live = true := by rw [hshows.live, decide_eq_true hmem]
    obtain ⟨stage', hstage', hremoves⟩ := h l.task hshows.task hfinished hbefore
    refine ⟨stage', hworks stage' ?_ hstage', hremoves⟩
    rintro rfl
    cases hstage.symm.trans hremoves

/-- A `stop` call that was not finishing the task goes on to its next step. -/
theorem View.Works.setDisposal (h : v.Works stage) {c : StopId} (disposal : Disposal)
    (hbefore : ∀ stage, v.disposals c ≠ .finishing stage) :
    (v.setDisposal c disposal).Works stage := by
  rcases h with hfinishing | ⟨c', hc'⟩
  · exact .inl hfinishing
  · have hcc : c' ≠ c := by
      rintro rfl
      exact hbefore stage hc'
    exact .inr ⟨c', by simpa [View.setDisposal, hcc] using hc'⟩

/-- **One step** dismisses a task that is finished. -/
theorem Step.dismissed (hstep : Step respond t e v v') (h : v.Dismissed) : v'.Dismissed := by
  have hsame : ∀ k, v.task = some k → k.state.finished = true →
      ∃ k, v.task = some k ∧ k.state.finished = true := fun k hk hfinished => ⟨k, hk, hfinished⟩
  have hbegun {stage : FinishStage} {v' : View} (hnone : v.finishing = none)
      (hdisposals : v'.disposals = v.disposals) (hstage : v.Works stage) : v'.Works stage := by
    rcases hstage with ⟨entered, hstage⟩ | ⟨c, hc⟩
    · cases hnone.symm.trans hstage
    · exact .inr ⟨c, hdisposals ▸ hc⟩
  cases hstep with
  | create =>
    intro k hk hfinished
    obtain rfl := Option.some.inj hk
    cases hfinished
  | accept => exact h.congr hsame id fun _ _ => id
  | refuse hshows =>
    intro k hk hfinished hlive
    simp [View.put, refusal, send_live, HandlerTask.removeLive] at hlive
  | run _ _ _ _ hshows hcancelled =>
    exact (h.undecided hshows (.call hcancelled)).congr
      (fun k hk hfinished => ⟨k, hk, hfinished⟩) id fun _ _ => id
  | @runCancelled _ k _ _ _ hnone htask =>
    refine h.congr (fun k' hk' hfinished => ⟨k, htask, ?_⟩) id fun _ _ => hbegun hnone rfl
    obtain rfl := Option.some.inj hk'
    exact hfinished
  | resume _ _ _ hshows _ hending =>
    exact (h.undecided hshows (.resume hending)).congr
      (fun k hk hfinished => ⟨k, hk, hfinished⟩) id fun _ _ => id
  | resumeEnding _ _ hnone => exact h.congr hsame id fun _ _ => hbegun hnone rfl
  | @finish _ l faults stage next entered _ hfinishing hshows hnext =>
    refine h.advance faults stage hshows (fun k hk => ?_) (fun hlive => ?_)
      (fun next' hnext' => ?_) fun stage' hne hstage => ?_
    · exact congrArg _ (Option.some.inj (hk.symm.trans (View.remember_task ..)))
    · rw [View.remember_live] at hlive
      exact of_decide_eq_true hlive
    · obtain rfl := Option.some.inj (hnext.symm.trans hnext')
      exact .inl ⟨entered, rfl⟩
    · rcases hstage with ⟨entered', hstage⟩ | ⟨c, hc⟩
      · cases hfinishing.symm.trans hstage
        exact absurd rfl hne
      · refine .inr ⟨c, ?_⟩
        simp only [View.remember_disposals]
        exact hc
  | @finishLast _ l faults stage entered _ hfinishing hshows hnext =>
    refine h.advance faults stage hshows (fun k hk => ?_) (fun hlive => ?_)
      (fun next' hnext' => ?_) fun stage' hne hstage => ?_
    · obtain rfl := Option.some.inj (hk.symm.trans (View.remember_task ..))
      exact endTurn_state
    · rw [View.remember_live] at hlive
      have hturn := (Undecided.endTurn (t := t) faults entered (stage.advance faults t l).1).shared
      rw [← hturn]
      exact of_decide_eq_true hlive
    · cases hnext.symm.trans hnext'
    · rcases hstage with ⟨entered', hstage⟩ | ⟨c, hc⟩
      · cases hfinishing.symm.trans hstage
        exact absurd rfl hne
      · refine .inr ⟨c, ?_⟩
        simp only [View.remember_disposals]
        exact hc
  | endLoop => exact h.congr hsame id fun _ _ => id
  | drain =>
    intro k hk hfinished hlive
    cases hlive
  | dispose hwaiting =>
    exact h.congr hsame id fun _ _ hstage => hstage.setDisposal _ (by simp [hwaiting])
  | disposeUnbuilt hwaiting =>
    exact h.congr hsame id fun _ _ hstage => hstage.setDisposal _ (by simp [hwaiting])
  | @closed _ c hclosing =>
    refine h.congr hsame id fun stage _ hstage => ?_
    exact View.Works.setDisposal (v := { v with fate := v.fate.close }) hstage _
      (by simp [hclosing])
  | @disposeFinish _ l faults c stage hdisposal hshows =>
    refine h.advance faults stage hshows (fun k hk => ?_) (fun hlive => ?_)
      (fun next' hnext' => ?_) fun stage' hne hstage => ?_
    · exact congrArg _ (Option.some.inj (hk.symm.trans (View.remember_task ..)))
    · simp only [View.setDisposal, View.remember_live] at hlive
      exact of_decide_eq_true hlive
    · exact .inr ⟨c, by simp [View.setDisposal, hnext']⟩
    · rcases hstage with ⟨entered, hstage⟩ | ⟨c', hc'⟩
      · refine .inl ⟨entered, ?_⟩
        simp only [View.setDisposal, View.remember_finishing]
        exact hstage
      · have hcc : c' ≠ c := by
          rintro rfl
          exact hne (Disposal.finishing.inj (hc'.symm.trans hdisposal))
        refine .inr ⟨c', ?_⟩
        simp only [View.setDisposal, View.remember_disposals, Function.update_of_ne hcc]
        exact hc'
  | call hshows hquiet => exact h.undecided hshows hquiet.toUndecided
  | @addDoneCallback _ k _ _ htask =>
    refine h.congr (fun k' hk' hfinished => ⟨k, htask, ?_⟩) id fun _ _ => id
    obtain rfl := Option.some.inj hk'
    split at hfinished <;> exact hfinished
  | @removeDoneCallback _ k _ htask =>
    refine h.congr (fun k' hk' hfinished => ⟨k, htask, ?_⟩) id fun _ _ => id
    obtain rfl := Option.some.inj hk'
    exact hfinished
  | @finishAgain _ l faults response completion hshows hfinished =>
    have hsend : HandlerTask.finish faults t response completion l = send t response l := by
      simp only [HandlerTask.finish, hfinished, if_true]
    refine h.congr (fun _ _ _ => ⟨l.task, hshows.task, hfinished⟩) (fun hlive => ?_) fun _ _ => id
    rw [hsend] at hlive
    simp only [View.put, send_live] at hlive
    rw [hshows.live]
    exact hlive

/-- In every run a finished task is dismissed, and only requests that are not refused are live. -/
theorem dismissed {s : Lifecycle} (hreach : (system respond).Reaches s) (t : TaskId) :
    (view s t).Dismissed ∧ (view s t).Admitted := by
  have hblank : (View.blank false).Dismissed ∧ (View.blank false).Admitted :=
    ⟨fun _ h => (by cases h), fun h => (by cases h)⟩
  exact (view_invariant (I := fun v => v.Dismissed ∧ v.Admitted) (fun _ _ => True) hreach t
    (fun _ _ _ => trivial) hblank fun _ _ _ _ h _ hstep =>
      ⟨hstep.dismissed h.1, hstep.admitted h.2⟩).2

/-- The objects that the collector meets. -/
inductive Object (Other : Type*)
  | task (t : TaskId)
  | future (f : FutureId)
  | other (o : Other)
  deriving DecidableEq

/-- Which objects the tokens stand for, and what the state of a loop does not say of them. -/
structure Memory (Other : Type*) where
  handler : TaskId → Object Other
  handlerKwargs : TaskId → Object Other
  value : Value → Object Other
  exception : TaskId → Exception → Object Other
  /-- What a future refers to besides its callbacks. -/
  future : FutureId → List (Object Other)
  other : Other → List (Object Other)
  /-- Whether the type of an object that is not a task has a `__clear__`. -/
  clearable : Object Other → Prop
  /-- The objects that the collector knows. -/
  tracked : Finset (Object Other)
  /-- The references in the queue of the loop, on stacks and in requests. -/
  elsewhere : Object Other → ℕ

variable {Other : Type*} [DecidableEq Other] (m : Memory Other) (t : TaskId)

/-- The references in a `TaskState`. -/
def stateReferences (st : TaskState) : List (Object Other) :=
  st.coroutine.toList.map m.value ++ st.context.toList.map m.value ++
    st.waitingOn.toList.map .future ++ st.deferredThrow.toList.map (m.exception t) ++
    st.cancelMessage.toList.map m.value ++ st.name.toList.map m.value ++
    st.doneCallbacks.flatMap (fun (callback, context) => [m.value callback, m.value context]) ++
    st.cancelledMessage.toList.map m.value ++ st.storedResult.toList.map m.value ++
    st.storedException.toList.map (m.exception t)

/-- The references in a `HandlerTask`. -/
def references (k : HandlerTask) : List (Object Other) :=
  m.handler t :: m.handlerKwargs t :: stateReferences m t k.state

/-- `HandlerTask::__traverse__`, with the lock of the state taken or not. -/
def traverse (contended : Bool) (k : HandlerTask) : List (Object Other) :=
  m.handler t :: m.handlerKwargs t ::
    if contended then []
    else
      k.state.coroutine.toList.map m.value ++ k.state.context.toList.map m.value ++
        k.state.waitingOn.toList.map .future ++ k.state.deferredThrow.toList.map (m.exception t) ++
        k.state.cancelMessage.toList.map m.value ++ k.state.cancelledMessage.toList.map m.value ++
        k.state.name.toList.map m.value ++ k.state.storedResult.toList.map m.value ++
        k.state.storedException.toList.map (m.exception t) ++
        k.state.doneCallbacks.flatMap fun (callback, context) =>
          [m.value callback, m.value context]

/-- Every reference of a task is reported once. -/
theorem traverse_perm (k : HandlerTask) : (traverse m t false k).Perm (references m t k) := by
  refine List.perm_iff_count.mpr fun y => ?_
  simp only [traverse, references, stateReferences, Bool.false_eq_true, if_false, List.count_cons,
    List.count_append]
  omega

omit [DecidableEq Other] in
/-- With the lock taken only some of them are. -/
theorem traverse_sublist (k : HandlerTask) : (traverse m t true k).Sublist (references m t k) :=
  ((List.nil_sublist _).cons_cons _).cons_cons _

/-- A `HandlerTask` has no `__clear__`. -/
def clears : Object Other → Prop
  | .task _ => False
  | y => m.clearable y

variable (s : Lifecycle)

/-- How often one object refers to another one. -/
def owns (x y : Object Other) : ℕ :=
  match x with
  | .task t => ((s.loop.tasks t).map (references m t)).elim 0 (List.count y)
  | .future f => ((s.loop.world.futures f).callbacks.map Object.task ++ m.future f).count y
  | .other o => (m.other o).count y

/-- How often one object reports another one, with the locks of some tasks taken. -/
def visits (contended : TaskId → Bool) (x y : Object Other) : ℕ :=
  match x with
  | .task t => ((s.loop.tasks t).map (traverse m t (contended t))).elim 0 (List.count y)
  | _ => owns m s x y

open Classical in
/-- The references of the map of live tasks and of the `stop` calls. -/
noncomputable def registryRefs (y : Object Other) : ℕ :=
  match y with
  | .task t => (if t ∈ s.live then 1 else 0) + if ∃ c, t ∈ (s.stops c).tasks then 1 else 0
  | _ => 0

/-- The objects of a loop with their references. -/
noncomputable def heap : CycleCollector.Heap (Object Other) where
  tracked := m.tracked
  owns := owns m s
  outside y := m.elsewhere y + registryRefs s y

variable {m t s} {contended : TaskId → Bool}

/-- No object reports more references than it has, whatever locks are taken. -/
theorem visits_le (x y : Object Other) : visits m s contended x y ≤ owns m s x y := by
  cases x with
  | task t =>
    simp only [visits, owns]
    cases s.loop.tasks t with
    | none => exact le_rfl
    | some k =>
      cases hlock : contended t with
      | true => exact (traverse_sublist m t k).count_le y
      | false => exact ((traverse_perm m t k).count_eq y).le
  | future f => exact le_rfl
  | other o => exact le_rfl

/-- With no lock taken every reference is reported. -/
theorem visits_uncontended : visits m s (fun _ => false) = owns m s := by
  funext x y
  cases x with
  | task t =>
    simp only [visits, owns]
    cases s.loop.tasks t with
    | none => rfl
    | some k => exact (traverse_perm m t k).count_eq y
  | future f => rfl
  | other o => rfl

/-- What `__traverse__` reports are references. -/
theorem honest : Honest (heap m s) (visits m s contended) := fun x _ y => visits_le x y

/-- A task that is not finished is in use. -/
theorem live_of_unfinished (hreach : (system respond).Reaches s) (m : Memory Other)
    {k : HandlerTask} (hk : s.loop.tasks t = some k) (hunfinished : k.state.finished = false)
    (hrefused : s.schedules t ≠ .refused) (htracked : .task t ∈ m.tracked) :
    Live (heap m s) (.task t) := by
  refine .root htracked (Nat.lt_of_lt_of_le ?_ (Nat.le_add_left _ _))
  rcases (retained hreach t).kept k hk hunfinished hrefused with hlive | ⟨c, hc⟩
  · have hmem : t ∈ s.live := by simpa [view] using hlive
    simp [registryRefs, hmem]
  · have hmem : ∃ c, t ∈ (s.stops c).tasks :=
      ⟨c, by_contra fun hnot => hc (disposalOf_eq_none.mpr hnot)⟩
    simp [registryRefs, hmem]

/-- A group of objects that nothing else refers to. The tasks in it are finished, with nothing left
of their `finish`, or were refused. -/
structure Forgotten (m : Memory Other) (s : Lifecycle) (group : Finset (Object Other)) : Prop where
  tracked : group ⊆ m.tracked
  elsewhere : ∀ y ∈ group, m.elsewhere y = 0
  closed : ∀ y ∈ group, ∀ x ∈ m.tracked, 0 < owns m s x y → x ∈ group
  ended : ∀ t, .task t ∈ group → s.finished t = true ∨ s.schedules t = .refused
  finishing : ∀ t stage entered, .task t ∈ group → s.finishing ≠ some (t, stage, entered)
  stops : ∀ t c, .task t ∈ group → t ∉ (s.stops c).tasks

/-- Neither the map of live tasks nor a `stop` call refers to such a group. -/
theorem Forgotten.registryRefs {group : Finset (Object Other)} (h : Forgotten m s group)
    (hreach : (system respond).Reaches s) {y : Object Other} (hy : y ∈ group) :
    registryRefs s y = 0 := by
  cases y with
  | task t =>
    have hstops : ¬∃ c, t ∈ (s.stops c).tasks := fun ⟨c, hc⟩ => h.stops t c hy hc
    have hlive : t ∉ s.live := by
      intro hlive
      obtain ⟨hdismissed, hadmitted⟩ := dismissed hreach t
      have hview : (view s t).live = true := decide_eq_true hlive
      rcases h.ended t hy with hfinished | hrefused
      · obtain ⟨k, hk, hfinished⟩ := (Option.any_eq_true _ _).mp hfinished
        obtain ⟨stage, ⟨entered, hstage⟩ | ⟨c, hc⟩, -⟩ := hdismissed k hk hfinished hview
        · exact h.finishing t stage entered hy (view_finishing.mp hstage)
        · have hnone : (view s t).disposals c = .none := disposalOf_eq_none.mpr (h.stops t c hy)
          cases hnone.symm.trans hc
      · have hschedule : (view s t).schedule = .refused := hrefused
        rcases hadmitted hview with hs | hs <;> cases hschedule.symm.trans hs
    simp [Lifecycle.registryRefs, hstops, hlive]
  | future f => rfl
  | other o => rfl

/-- A task whose handler awaits future 3, and what its coroutine refers to. -/
def parkedCycle : Memory Unit where
  handler _ := .other ()
  handlerKwargs _ := .other ()
  value _ := .other ()
  exception _ _ := .other ()
  future _ := []
  other _ := [.future 3]
  clearable _ := True
  tracked := {.task 0, .future 3, .other ()}
  elsewhere _ := 0

/-- A handler parks on future 3. -/
def parkedRun : List Event :=
  startOfHandler .none ++ [.act (.setBlocking 3 true), .resume .none (.yielded (.future 3))]

end Rayo.Lifecycle
