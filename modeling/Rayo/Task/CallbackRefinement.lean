import Rayo.Task.Ledger
import Rayo.Task.DoneCallbacks

/-!
# The done callbacks of a task on its loop

Seen from one task, every run of an event loop with all its threads is a run of the done
callbacks of that task. There a callback is equal to itself only.
-/

namespace Rayo

open Asyncio HandlerTask

/-- The entry of `TaskState::done_callbacks` for a registration. -/
def Registration.entry (r : Registration) : Value × Value := (r.callback, r.context)

namespace Lifecycle

/-- What a view shows of the done callbacks. The lists that calls of `finish` have taken and not
yet handed on are on the loop thread and in the calls of `stop`. -/
@[ext] structure CallbackView where
  finished : Bool
  doneCallbacks : List (Value × Value)
  taken : Option StopId → List (Value × Value)
  handed : List (Value × Value)

/-- The callbacks that a call of `stop` has taken. -/
def Disposal.callbacks : Disposal → List (Value × Value)
  | .finishing stage => stage.callbacks
  | .none | .waiting | .closing => []

namespace View

/-- The lists that were taken. -/
def taken (v : View) : Option StopId → List (Value × Value)
  | none => v.finishing.elim [] (·.1.callbacks)
  | some c => (v.disposals c).callbacks

/-- The done callbacks of the task. -/
def callbackView (v : View) : CallbackView where
  finished := v.task.any (·.state.finished)
  doneCallbacks := v.task.elim [] (·.state.doneCallbacks)
  taken := v.taken
  handed := v.handed

end View

/-- The view shows these done callbacks. Only one call of `finish` has any. -/
structure CallbackView.Tracks (c : CallbackView) (d : DoneCallbacks) : Prop where
  finished : d.completion.isSome = c.finished
  doneCallbacks : d.doneCallbacks.map Registration.entry = c.doneCallbacks
  taken : ∃ place, ∀ p,
    c.taken p = if p = place then d.handing.map Registration.entry else []
  late : d.late = []
  handed : d.handed.map (·.1.entry) = c.handed

variable {respond : Value → HandlerResponse} {t : TaskId} {v v' : View} {d : DoneCallbacks}
  {c c' : CallbackView}

/-- Some run of the done callbacks of the task ends as the view shows it. -/
def CallbackView.Reached (t : TaskId) (c : CallbackView) : Prop :=
  ∃ d, (DoneCallbacks.system t).Reaches d ∧ c.Tracks d

/-- What has been reached depends on the callbacks of the task alone. -/
theorem CallbackView.Reached.congr (h : c.Reached t) (hfinished : c'.finished = c.finished)
    (hcallbacks : c'.doneCallbacks = c.doneCallbacks) (htaken : c'.taken = c.taken)
    (hhanded : c'.handed = c.handed) : c'.Reached t :=
  CallbackView.ext hfinished hcallbacks htaken hhanded ▸ h

/-- An event of the done callbacks goes on with the run. -/
theorem CallbackView.Reached.step (hreach : (DoneCallbacks.system t).Reaches d)
    {e : DoneCallbacks.Event} (henabled : DoneCallbacks.enabled d e = true)
    (htracks : c'.Tracks (DoneCallbacks.effect t d e)) : c'.Reached t :=
  ⟨_, hreach.step trivial henabled, htracks⟩

/-- `add_done_callback` with an unfinished task, which gives a context. -/
theorem CallbackView.Reached.add_unfinished (h : c.Reached t) (hunfinished : c.finished = false)
    (callback context : Value) : CallbackView.Reached t
      { c with doneCallbacks := c.doneCallbacks ++ [(callback, context)] } := by
  obtain ⟨d, hreach, htracks⟩ := h
  have hopen : d.completion = none := by
    have hfinished := htracks.finished.trans hunfinished
    simpa using hfinished
  refine CallbackView.Reached.step hreach (e := .add callback (some context) none) rfl ?_
  simp only [DoneCallbacks.effect,
    DoneCallbacks.addDoneCallback_of_unfinished (Option.some_or ..) hopen]
  refine ⟨htracks.finished, ?_, htracks.taken, htracks.late, htracks.handed⟩
  simp [htracks.doneCallbacks, Registration.entry, DoneCallbacks.registration]

/-- With a finished one it calls `call_soon` before anything else happens. -/
theorem CallbackView.Reached.add_finished (h : c.Reached t) (hfinished : c.finished = true)
    (callback context : Value) : CallbackView.Reached t
      { c with handed := c.handed ++ [(callback, context)] } := by
  obtain ⟨d, hreach, htracks⟩ := h
  have hdone : d.completion.isSome = true := htracks.finished.trans hfinished
  have hadd := hreach.step (e := .add callback (some context) none) trivial rfl
  simp only [DoneCallbacks.system, DoneCallbacks.effect,
    DoneCallbacks.addDoneCallback_of_finished (Option.some_or ..) hdone, htracks.late,
    List.nil_append] at hadd
  refine CallbackView.Reached.step hadd
    (e := .fireLate (d.registration callback context) true) ?_
    ⟨htracks.finished, htracks.doneCallbacks, htracks.taken, ?_, ?_⟩
  · simp [DoneCallbacks.enabled]
  · simp [DoneCallbacks.effect, DoneCallbacks.callSoon]
  · simp only [DoneCallbacks.effect, DoneCallbacks.callSoon, List.map_append, htracks.handed]
    rfl

/-- `remove_done_callback` of a callback that is equal to itself only. -/
theorem CallbackView.Reached.remove (h : c.Reached t) (callback : Value) :
    CallbackView.Reached t
      { c with doneCallbacks := c.doneCallbacks.filter (·.1 ≠ callback) } := by
  obtain ⟨d, hreach, htracks⟩ := h
  refine CallbackView.Reached.step hreach
    (e := .remove (fun r callback => some (r.callback = callback)) callback) rfl
    ⟨htracks.finished, ?_, htracks.taken, htracks.late, htracks.handed⟩
  rw [← htracks.doneCallbacks, List.filter_map]
  refine congrArg (List.map Registration.entry) (List.filter_congr fun r _ => ?_)
  by_cases hr : r.callback = callback <;> simp [DoneCallbacks.equal, Registration.entry, hr]

/-- The locked section of a `finish` on the loop thread or in a call of `stop`. -/
theorem CallbackView.Reached.record (h : c.Reached t) (hunfinished : c.finished = false)
    (completion : CompletionKind) (place : Option StopId) : CallbackView.Reached t
      { c with
        finished := true
        doneCallbacks := []
        taken := Function.update c.taken place c.doneCallbacks } := by
  obtain ⟨d, hreach, htracks⟩ := h
  have hopen : d.completion = none := by
    have hfinished := htracks.finished.trans hunfinished
    simpa using hfinished
  have hempty := ((DoneCallbacks.sound hreach).unfinished hopen).1
  refine CallbackView.Reached.step hreach (e := .finish completion) rfl ?_
  simp only [DoneCallbacks.effect, DoneCallbacks.finish, hopen, Option.isSome_none,
    Bool.false_eq_true, if_false]
  refine ⟨rfl, rfl, ⟨place, fun p => ?_⟩, htracks.late, htracks.handed⟩
  by_cases hp : p = place
  · subst hp
    simp [htracks.doneCallbacks]
  · obtain ⟨before, htaken⟩ := htracks.taken
    simp [hp, htaken, hempty]

/-- The next callback of a list that was taken. -/
theorem CallbackView.Reached.fire (h : c.Reached t) {place : Option StopId}
    {entry : Value × Value} {rest : List (Value × Value)} (htaken : c.taken place = entry :: rest)
    (accepted : Bool) : CallbackView.Reached t
      { c with
        taken := Function.update c.taken place rest
        handed := c.handed ++ [entry] } := by
  obtain ⟨d, hreach, htracks⟩ := h
  obtain ⟨holder, hholder⟩ := htracks.taken
  have hplace : place = holder := by
    by_contra hne
    rw [hholder, if_neg hne] at htaken
    cases htaken
  subst hplace
  rw [hholder, if_pos rfl] at htaken
  obtain ⟨r, handing, hhanding, hr, hrest⟩ := List.map_eq_cons_iff.mp htaken
  refine CallbackView.Reached.step hreach (e := .fire accepted) ?_ ?_
  · simp [DoneCallbacks.enabled, hhanding]
  simp only [DoneCallbacks.effect, hhanding, DoneCallbacks.callSoon]
  refine ⟨htracks.finished, htracks.doneCallbacks, ⟨place, fun p => ?_⟩, htracks.late, ?_⟩
  · by_cases hp : p = place
    · subst hp
      simp [hrest]
    · simp [hp, hholder]
  · simp [htracks.handed, hr]

/-- A call of `finish` that has not begun or has nothing left has taken nothing. -/
theorem View.taken_setDisposal (v : View) (stop : StopId) (disposal : Disposal) :
    (v.setDisposal stop disposal).taken =
      Function.update v.taken (some stop) disposal.callbacks := by
  funext p
  cases p with
  | none => simp [View.taken, View.setDisposal]
  | some p =>
    by_cases hp : p = stop
    · subst hp
      simp [View.taken, View.setDisposal]
    · simp [View.taken, View.setDisposal, hp]

/-- One access of a `finish`, on the loop thread or in a call of `stop`. -/
theorem CallbackView.Reached.advance {l : Local} {p : Option StopId} {s : FinishStage}
    (h : c.Reached t) (faults : Faults) (htaken : c.taken p = s.callbacks)
    (hfinished : l.task.state.finished = c.finished)
    (hcallbacks : l.task.state.doneCallbacks = c.doneCallbacks) {v : View}
    (hhanded : v.handed = c.handed) :
    CallbackView.Reached t
      { finished := (s.advance faults t l).1.task.state.finished
        doneCallbacks := (s.advance faults t l).1.task.state.doneCallbacks
        taken := Function.update c.taken p
          ((s.advance faults t l).2.elim [] FinishStage.callbacks)
        handed := (v.remember faults l.task s).handed } := by
  have hsame : ∀ {callbacks : List (Value × Value)}, callbacks = s.callbacks →
      Function.update c.taken p callbacks = c.taken := by
    intro callbacks heq
    rw [heq, ← htaken, Function.update_eq_self]
  cases s with
  | record response completion =>
    cases hdone : l.task.state.finished with
    | true =>
      refine h.congr ?_ ?_ ?_ ?_ <;>
        simp only [FinishStage.advance, View.remember, hdone, if_true, Option.elim_some]
      · exact hdone.symm.trans hfinished
      · exact hcallbacks
      · exact hsame rfl
      · exact hhanded
    | false =>
      refine (h.record (hfinished.symm.trans hdone) completion p).congr ?_ ?_ ?_ ?_ <;>
        simp only [FinishStage.advance, View.remember, hdone, Bool.false_eq_true, if_false,
          Option.elim_some]
      · exact complete_finished _ _
      · exact complete_doneCallbacks _ _
      · exact congrArg _ hcallbacks
      · exact hhanded
  | removeLive response wasRegistered callbacks =>
    exact h.congr hfinished hcallbacks (hsame rfl) hhanded
  | unregister response wasRegistered callbacks =>
    refine h.congr ?_ ?_ (hsame rfl) ?_ <;> simp only [FinishStage.advance]
    · split <;> exact hfinished
    · split <;> exact hcallbacks
    · cases wasRegistered with
      | false => exact hhanded
      | true =>
        simp only [View.remember]
        split <;> exact hhanded
  | fire response callbacks =>
    cases callbacks with
    | nil => exact h.congr hfinished hcallbacks (hsame rfl) hhanded
    | cons entry rest =>
      obtain ⟨callback, context⟩ := entry
      refine (h.fire htaken (!faults.doneCallback callback)).congr ?_ ?_ rfl ?_ <;>
        simp only [FinishStage.advance, View.remember]
      · split <;> exact hfinished
      · split <;> exact hcallbacks
      · rw [hhanded]
  | take response =>
    cases hsender : l.task.sender <;>
      refine h.congr ?_ ?_ (hsame ?_) hhanded <;>
      simp only [FinishStage.advance, hsender, Bool.false_eq_true, if_true, if_false] <;>
      first | exact hfinished | exact hcallbacks | rfl
  | decrement response => exact h.congr hfinished hcallbacks (hsame rfl) hhanded
  | deliver response => exact h.congr hfinished hcallbacks (hsame rfl) hhanded

/-- The task has been worked on, but its callbacks have not. -/
theorem CallbackView.Reached.undecided {l l' : Local} (h : v.callbackView.Reached t)
    (hshows : v.Shows t l) (hundecided : Undecided t l l') (htask : v'.task = some l'.task)
    (htaken : v'.taken = v.taken) (hhanded : v'.handed = v.handed) :
    v'.callbackView.Reached t := by
  refine h.congr ?_ ?_ htaken hhanded <;>
    simp only [View.callbackView, htask, hshows.task, Option.any_some, Option.elim_some]
  · exact hundecided.finished
  · exact hundecided.doneCallbacks

/-- A call of `stop` has come further with the task, without taking its callbacks. -/
theorem CallbackView.Reached.setDisposal (h : v.callbackView.Reached t) {stop : StopId}
    {disposal : Disposal} (hbefore : (v.disposals stop).callbacks = [])
    (hafter : disposal.callbacks = []) : (v.setDisposal stop disposal).callbackView.Reached t := by
  refine h.congr rfl rfl ?_ rfl
  simp only [View.callbackView, View.taken_setDisposal, hafter]
  rw [Function.update_eq_self_iff]
  exact hbefore.symm

/-- **Every step of a task is one of its done callbacks.** -/
theorem Step.reached {e : Event} (hstep : Step respond t e v v')
    (h : v.callbackView.Reached t) : v'.callbackView.Reached t := by
  cases hstep with
  | create htask =>
    refine h.congr ?_ ?_ rfl rfl <;> simp [View.callbackView, htask, new, TaskState.default]
  | accept => exact h
  | refuse hshows =>
    refine h.congr ?_ ?_ rfl rfl <;>
      simp [View.callbackView, View.put, refusal, hshows.task]
  | run f _ _ _ hshows hcancelled => exact h.undecided hshows (.call hcancelled) rfl rfl rfl
  | runCancelled _ _ hfinishing htask =>
    refine h.congr ?_ ?_ ?_ rfl
    · simp [View.callbackView, htask, turnTaken]
    · simp [View.callbackView, htask, turnTaken]
    · funext p
      cases p <;> simp [View.callbackView, View.taken, hfinishing, FinishStage.callbacks]
  | resume _ _ _ hshows _ hending => exact h.undecided hshows (.resume hending) rfl rfl rfl
  | resumeEnding _ _ hfinishing =>
    refine h.congr rfl rfl ?_ rfl
    funext p
    cases p <;> simp [View.callbackView, View.taken, hfinishing, FinishStage.callbacks]
  | @finish _ l faults stage next entered _ hfinishing hshows hnext =>
    have hadvance := h.advance (l := l) (p := none) (s := stage) faults
      (by simp [View.callbackView, View.taken, hfinishing])
      (by simp [View.callbackView, hshows.task]) (by simp [View.callbackView, hshows.task])
      (v := v.put t (stage.advance faults t l).1) rfl
    refine hadvance.congr ?_ ?_ ?_ rfl
    · simp [View.callbackView, View.remember_task, View.put]
    · simp [View.callbackView, View.remember_task, View.put]
    · funext p
      cases p <;> simp [View.callbackView, View.taken, View.remember_disposals, View.put, hnext]
  | @finishLast _ l faults stage entered _ hfinishing hshows hlast =>
    have hadvance := h.advance (l := l) (p := none) (s := stage) faults
      (by simp [View.callbackView, View.taken, hfinishing])
      (by simp [View.callbackView, hshows.task]) (by simp [View.callbackView, hshows.task])
      (v := v.put t (endTurn faults entered (stage.advance faults t l).1)) rfl
    have hend := Undecided.endTurn (t := t) faults entered (stage.advance faults t l).1
    refine hadvance.congr ?_ ?_ ?_ rfl
    · simp [View.callbackView, View.remember_task, View.put, hend.finished]
    · simp [View.callbackView, View.remember_task, View.put, hend.doneCallbacks]
    · funext p
      cases p <;> simp [View.callbackView, View.taken, View.remember_disposals, View.put, hlast]
  | endLoop => exact h
  | drain hnone =>
    exact CallbackView.Reached.setDisposal (v := { v with live := false }) h
      (by simp [hnone, Disposal.callbacks]) rfl
  | dispose hwaiting => exact h.setDisposal (by simp [hwaiting, Disposal.callbacks]) rfl
  | disposeUnbuilt hwaiting => exact h.setDisposal (by simp [hwaiting, Disposal.callbacks]) rfl
  | closed hclosing =>
    exact CallbackView.Reached.setDisposal (v := { v with fate := v.fate.close }) h
      (by simp [hclosing, Disposal.callbacks]) rfl
  | @disposeFinish _ l faults stop stage hdisposal hshows =>
    have hadvance := h.advance (l := l) (p := some stop) (s := stage) faults
      (by simp [View.callbackView, View.taken, hdisposal, Disposal.callbacks])
      (by simp [View.callbackView, hshows.task]) (by simp [View.callbackView, hshows.task])
      (v := v.put t (stage.advance faults t l).1) rfl
    refine hadvance.congr ?_ ?_ ?_ rfl
    · simp [View.callbackView, View.remember_task, View.put, View.setDisposal]
    · simp [View.callbackView, View.remember_task, View.put, View.setDisposal]
    · simp only [View.callbackView, View.taken_setDisposal]
      congr 1
      · funext p
        cases p <;> simp [View.taken, View.remember_disposals, View.remember_finishing, View.put]
      · cases (stage.advance faults t l).2 <;> rfl
  | call hshows hquiet => exact h.undecided hshows hquiet.toUndecided rfl rfl rfl
  | @addDoneCallback _ k callback context htask =>
    cases hfinished : k.state.finished with
    | false =>
      refine (h.add_unfinished (by simpa [View.callbackView, htask] using hfinished) callback
        context).congr ?_ ?_ rfl ?_ <;> simp [View.callbackView, htask, hfinished]
    | true =>
      refine (h.add_finished (by simpa [View.callbackView, htask] using hfinished) callback
        context).congr ?_ ?_ rfl ?_ <;> simp [View.callbackView, htask, hfinished]
  | @removeDoneCallback _ k callback htask =>
    refine (h.remove callback).congr ?_ ?_ rfl rfl <;>
      simp [View.callbackView, htask, HandlerTask.removeDoneCallback]
  | @finishAgain _ l faults response completion hshows hfinished =>
    refine h.congr ?_ ?_ rfl rfl <;>
      simp [View.callbackView, View.put, hshows.task, HandlerTask.finish, hfinished]

/-- **The done callbacks of a task behave in every run of its loop as they do on their own.** -/
theorem callbacks_refine {s : Lifecycle} (hreach : (system respond).Reaches s) (t : TaskId) :
    ∃ d, (DoneCallbacks.system t).Reaches d ∧ (view s t).callbackView.Tracks d := by
  have hblank : (View.blank false).callbackView.Reached t := by
    refine ⟨.new, .init rfl, rfl, rfl, ⟨none, fun p => ?_⟩, rfl, rfl⟩
    cases p <;> simp [View.callbackView, View.taken, View.blank, Disposal.callbacks,
      DoneCallbacks.new]
  exact (view_invariant (fun _ _ => True) hreach t (fun _ _ _ => trivial) hblank
    fun e v v' _ h _ hstep => hstep.reached h).2

end Lifecycle

end Rayo
