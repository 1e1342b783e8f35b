import Rayo.Task.Enlistment

/-!
# The registries of one task

A task is in `live_tasks` from its request to its `finish`, and in asyncio's registry from its start
to its `finish`. While its `finish` is under way its remaining stages say which of the two it is
still to leave. If asyncio accepts the calls, each task is unregistered as often as it was started.
-/

namespace Rayo.Lifecycle

open Asyncio HandlerTask

/-- The part of a `finish` that is still to take its task out of asyncio's registry, and whether
the task was in it. -/
def pendingUnregister : Option FinishStage → Option Bool
  | some (.removeLive _ wasRegistered _) | some (.unregister _ wasRegistered _) =>
    some wasRegistered
  | _ => none

/-- An unfinished task is in both registries where it belongs, and was never unregistered. -/
structure Unfinished (v : View) (k : HandlerTask) (unregistrations : ℕ) : Prop where
  unfinished : k.state.finished = false
  registered : v.registered = k.state.coroutine.isSome
  flag : k.state.registeredWithAsyncio = k.state.coroutine.isSome
  unregistrations : unregistrations = 0
  live : v.schedule = .refused ∨ v.live = true ∨ ∃ c, v.disposals c ≠ .none
  works : ∀ stage, v.Works stage → ∃ response completion, stage = .record response completion

/-- A finished task is in neither, up to what is left of its `finish`, and was unregistered once
if it was started. -/
structure Finished (v : View) (k : HandlerTask) (unregistrations : ℕ) (rest : Option FinishStage) :
    Prop where
  finished : k.state.finished = true
  live : mayBeLive rest = false → v.live = false
  pending : ∀ wasRegistered, pendingUnregister rest = some wasRegistered →
    wasRegistered = k.state.coroutine.isSome ∧ v.registered = wasRegistered ∧ unregistrations = 0
  settled : pendingUnregister rest = none →
    v.registered = false ∧ unregistrations = if k.state.coroutine.isSome then 1 else 0
  begun : ∀ response completion, rest ≠ some (.record response completion)

/-- What the registries say of a task. -/
inductive Enrolled (v : View) (unregistrations : ℕ) : Prop
  | absent : v.task = none → unregistrations = 0 → Enrolled v unregistrations
  | unfinished {k : HandlerTask} : v.task = some k → Unfinished v k unregistrations →
    Enrolled v unregistrations
  | finished {k : HandlerTask} (rest : Option FinishStage) : v.task = some k → v.Leaves rest →
    Finished v k unregistrations rest → Enrolled v unregistrations

/-- The stage takes its task out of `live_tasks`. -/
def isRemoveLive : FinishStage → Bool
  | .removeLive .. => true
  | _ => false

/-- The stage takes its task out of asyncio's registry. -/
def isUnregister : FinishStage → Bool
  | .unregister _ true _ => true
  | _ => false

/-- The event is such a stage of the `finish` of the task that the view is of. -/
def View.performs (v : View) (p : FinishStage → Bool) : Event → Bool
  | .finish _ => v.finishing.any (p ·.1)
  | .disposeFinish _ c => match v.disposals c with
    | .finishing stage => p stage
    | _ => false
  | _ => false

/-- Asyncio accepts what the event asks of its registry. -/
def registrySucceeds : Event → Bool
  | .run faults | .resume faults _ | .finish faults | .disposeFinish faults _
  | .finishAgain faults _ _ _ => !faults.registerTask && !faults.unregisterTask
  | _ => true

variable {respond : Value → HandlerResponse} {t : TaskId} {e : Event} {v v' : View}
  {k : HandlerTask} {l l' : Local} {n : ℕ} {faults : Faults} {stage : FinishStage}
  {rest : Option FinishStage}

/-- The registries follow from the data of the loop. -/
theorem Unfinished.enlists (h : Unfinished v l.task n) (hshows : v.Shows t l)
    (hundecided : Undecided t l l') (henlists : Enlists t l l') :
    Unfinished (v.put t l') l'.task n := by
  have hlive : (v.put t l').live = v.live := by
    rw [hshows.live, ← hundecided.shared]
    rfl
  refine ⟨hundecided.finished.trans h.unfinished, ?_, ?_, h.unregistrations, hlive ▸ h.live,
    h.works⟩
  · rcases henlists with hsame | ⟨hcoroutine, -, hmem⟩
    · simp only [enlistment, Prod.mk.injEq] at hsame
      rw [hsame.1, ← h.registered, hshows.registered, ← hsame.2.2]
      rfl
    · rw [hcoroutine]
      exact decide_eq_true hmem
  · rcases henlists with hsame | ⟨hcoroutine, hflag, -⟩
    · simp only [enlistment, Prod.mk.injEq] at hsame
      rw [hsame.1, hsame.2.1, h.flag]
    · rw [hcoroutine, hflag]

/-- What the histories note leaves the map of live tasks as it is. -/
theorem View.remember_live (v : View) (faults : Faults) (k : HandlerTask) (stage : FinishStage) :
    (v.remember faults k stage).live = v.live := by
  obtain ⟨completions, handed, unregisterError, hv⟩ := remember_eq v faults k stage
  rw [hv]

/-- What the histories note leaves asyncio's registry as it is. -/
theorem View.remember_registered (v : View) (faults : Faults) (k : HandlerTask)
    (stage : FinishStage) : (v.remember faults k stage).registered = v.registered := by
  obtain ⟨completions, handed, unregisterError, hv⟩ := remember_eq v faults k stage
  rw [hv]

/-- Only these parts of a finished task matter. -/
theorem Finished.congr {k' : HandlerTask} (h : Finished v k n rest)
    (hlive : v'.live = true → v.live = true) (hregistered : v'.registered = v.registered)
    (hfinished : k'.state.finished = k.state.finished)
    (hcoroutine : k'.state.coroutine = k.state.coroutine) : Finished v' k' n rest := by
  refine ⟨hfinished.trans h.finished, fun hrest => ?_, fun wasRegistered hpending => ?_,
    fun hsettled => ?_, h.begun⟩
  · by_contra hne
    exact absurd (hlive (by simpa using hne)) (by simp [h.live hrest])
  · obtain ⟨hstarted, hmem, hcount⟩ := h.pending wasRegistered hpending
    exact ⟨by rw [hcoroutine, hstarted], hregistered.trans hmem, hcount⟩
  · obtain ⟨hmem, hcount⟩ := h.settled hsettled
    exact ⟨hregistered.trans hmem, by rw [hcoroutine, hcount]⟩

/-- **The first stage finishes the task.** -/
theorem Unfinished.record (h : Unfinished v l.task n) (faults : Faults)
    (response : HandlerResponse) (completion : CompletionKind) (hshows : v.Shows t l) :
    ∃ l' next, (FinishStage.record response completion).advance faults t l = (l', some next) ∧
      Finished ((v.put t l').remember faults l.task (.record response completion)) l'.task n
        (some next) := by
  refine ⟨setState l (l.task.state.complete completion), .removeLive response
    l.task.state.registeredWithAsyncio l.task.state.doneCallbacks, ?_, ?_⟩
  · simp only [FinishStage.advance, h.unfinished, Bool.false_eq_true, if_false]
  · constructor
    · simp
    · rintro ⟨⟩
    · rintro wasRegistered ⟨⟩
      refine ⟨by simp [h.flag], ?_, h.unregistrations⟩
      rw [View.remember_registered, h.flag, ← h.registered, hshows.registered]
      rfl
    · rintro ⟨⟩
    · rintro _ _ ⟨⟩

/-- A stage after the registries have been left does nothing to them. -/
theorem advance_settled (faults : Faults) (t : TaskId) (l : Local)
    (hpending : pendingUnregister (some stage) = none) (hlive : mayBeLive (some stage) = false) :
    (stage.advance faults t l).1.world.shared.liveTasks = l.world.shared.liveTasks ∧
      (stage.advance faults t l).1.world.registered = l.world.registered ∧
      (stage.advance faults t l).1.task.state = l.task.state ∧
      pendingUnregister (stage.advance faults t l).2 = none ∧
      ∀ response completion, (stage.advance faults t l).2 ≠ some (.record response completion) := by
  rcases stage with _ | _ | _ | ⟨_, _ | _⟩ | _ | _ | _ <;>
    simp only [pendingUnregister, mayBeLive, reduceCtorEq] at hpending hlive <;>
    dsimp only [FinishStage.advance]
  case fire.cons =>
    split <;> exact ⟨rfl, rfl, rfl, rfl, by rintro _ _ ⟨⟩⟩
  case take =>
    split <;> exact ⟨rfl, rfl, rfl, rfl, by rintro _ _ ⟨⟩⟩
  all_goals exact ⟨rfl, rfl, rfl, rfl, by rintro _ _ ⟨⟩⟩

/-- A stage of `finish` that touches no registry leaves a finished task as settled as it was. -/
theorem Finished.settled_advance (h : Finished v l.task n (some stage)) (hshows : v.Shows t l)
    (hpending : pendingUnregister (some stage) = none) (hlive : mayBeLive (some stage) = false) :
    Finished (v.put t (stage.advance faults t l).1) (stage.advance faults t l).1.task n
      (stage.advance faults t l).2 := by
  obtain ⟨hsameLive, hsameRegistered, hstate, hnext, hbegun⟩ :=
    advance_settled faults t l hpending hlive
  obtain ⟨hregistered, hcount⟩ := h.settled hpending
  have hgone := h.live hlive
  rw [hshows.registered] at hregistered
  rw [hshows.live] at hgone
  refine ⟨by rw [hstate, h.finished], fun _ => ?_, fun _ hsome => ?_, fun _ => ⟨?_, ?_⟩, hbegun⟩
  · simp only [View.put, hsameLive]
    exact hgone
  · cases (hnext.symm.trans hsome)
  · simp only [View.put, hsameRegistered]
    exact hregistered
  · rw [hstate, hcount]

/-- **Every later stage takes its task out of what it is about.** -/
theorem Finished.advance (h : Finished v l.task n (some stage))
    (hfaults : faults.unregisterTask = false) (hshows : v.Shows t l) :
    Finished (v.put t (stage.advance faults t l).1) (stage.advance faults t l).1.task
      (n + (isUnregister stage).toNat) (stage.advance faults t l).2 := by
  cases stage with
  | record response completion => exact absurd rfl (h.begun response completion)
  | removeLive response wasRegistered callbacks =>
    obtain ⟨hstarted, hmem, hcount⟩ := h.pending wasRegistered rfl
    refine ⟨h.finished, fun _ => ?_, ?_, (by rintro ⟨⟩), by rintro _ _ ⟨⟩⟩
    · simp [FinishStage.advance, View.put, HandlerTask.removeLive]
    · rintro _ ⟨⟩
      rw [hshows.registered] at hmem
      exact ⟨hstarted, hmem, hcount⟩
  | unregister response wasRegistered callbacks =>
    obtain ⟨hstarted, hmem, hcount⟩ := h.pending wasRegistered rfl
    have hlive := h.live rfl
    rw [hshows.live] at hlive
    rw [hshows.registered] at hmem
    cases wasRegistered with
    | true =>
      simp only [FinishStage.advance, hfaults, Bool.not_false, Bool.and_true, if_true]
      refine ⟨h.finished, fun _ => hlive, (by rintro _ ⟨⟩), fun _ => ⟨?_, ?_⟩, by rintro _ _ ⟨⟩⟩
      · simp [View.put, World.unregisterTask]
      · simp [hcount, isUnregister, ← hstarted]
    | false =>
      simp only [FinishStage.advance, Bool.false_and, Bool.false_eq_true, if_false]
      refine ⟨h.finished, fun _ => hlive, (by rintro _ ⟨⟩), fun _ => ⟨hmem, ?_⟩, by rintro _ _ ⟨⟩⟩
      simp [hcount, isUnregister, ← hstarted]
  | fire response callbacks => exact h.settled_advance hshows rfl rfl
  | take response => exact h.settled_advance hshows rfl rfl
  | decrement response => exact h.settled_advance hshows rfl rfl
  | deliver response => exact h.settled_advance hshows rfl rfl

/-- A view whose task and registries are as before. -/
theorem Finished.remember (h : Finished v k n rest) (faults : Faults) (k' : HandlerTask)
    (stage : FinishStage) : Finished (v.remember faults k' stage) k n rest :=
  h.congr (fun hlive => (View.remember_live ..).symm.trans hlive) (View.remember_registered ..)
    rfl rfl

/-- The stage that the loop performs is the one that is next there. -/
theorem View.performs_finish (faults : Faults) {p : FinishStage → Bool} {entered : Bool}
    (h : v.finishing = some (stage, entered)) : v.performs p (.finish faults) = p stage := by
  simp [View.performs, h]

/-- The stage that a stop call performs is the one that is next there. -/
theorem View.performs_disposeFinish (faults : Faults) {p : FinishStage → Bool} {c : StopId}
    (h : v.disposals c = .finishing stage) :
    v.performs p (.disposeFinish faults c) = p stage := by
  simp [View.performs, h]

/-- A call that leaves the registries of an unfinished task alone. -/
theorem Unfinished.quiet (h : Unfinished v l.task n) (hshows : v.Shows t l)
    (hquiet : Quiet t l l') : Unfinished (v.put t l') l'.task n := by
  refine h.enlists hshows hquiet.toUndecided (.inl ?_)
  simp only [enlistment, hquiet.coroutine, hquiet.flag, hquiet.registry]

/-- The task stays unfinished where it is. -/
theorem Unfinished.stays {k' : HandlerTask} (h : Unfinished v k n)
    (hregistered : v'.registered = v.registered) (hlive : v'.live = v.live)
    (hschedule : v'.schedule = v.schedule) (hdisposals : v'.disposals = v.disposals)
    (hfinished : k'.state.finished = k.state.finished)
    (hcoroutine : k'.state.coroutine = k.state.coroutine)
    (hflag : k'.state.registeredWithAsyncio = k.state.registeredWithAsyncio)
    (hworks : ∀ stage, v'.Works stage → ∃ response completion, stage = .record response completion) :
    Unfinished v' k' n := by
  refine ⟨hfinished.trans h.unfinished, ?_, ?_, h.unregistrations, ?_, hworks⟩
  · rw [hregistered, hcoroutine, h.registered]
  · rw [hflag, hcoroutine, h.flag]
  · rw [hschedule, hlive, hdisposals]
    exact h.live

/-- A `stop` call gets further with an unfinished task. -/
theorem Unfinished.disposal (h : Unfinished v k n) {c : StopId} {disposal : Disposal}
    (hregistered : v'.registered = v.registered) (hfinishing : v'.finishing = v.finishing)
    (hdisposals : v'.disposals = Function.update v.disposals c disposal)
    (hsome : disposal ≠ .none) (hrecord : ∀ stage, disposal = .finishing stage →
      ∃ response completion, stage = .record response completion) : Unfinished v' k n := by
  refine ⟨h.unfinished, hregistered.trans h.registered, h.flag, h.unregistrations,
    .inr (.inr ⟨c, ?_⟩), fun stage hworks => ?_⟩
  · rw [hdisposals, Function.update_self]
    exact hsome
  · have hset : (v.setDisposal c disposal).Works stage := by
      rcases hworks with ⟨entered, hstage⟩ | ⟨c', hstage⟩
      · exact .inl ⟨entered, hfinishing ▸ hstage⟩
      · refine .inr ⟨c', ?_⟩
        simpa [View.setDisposal, hdisposals] using hstage
    rcases View.works_setDisposal hset with hworks | hstage
    · exact h.works stage hworks
    · exact hrecord stage hstage

/-- An event that unregisters its task gets further with a `finish`. -/
theorem unregisters_of_moved (hfinishing : v'.finishing = v.finishing)
    (hdisposals : v'.disposals = v.disposals)
    (hmoved : v.performs isUnregister e = true → v'.performs isUnregister e = false) :
    v.performs isUnregister e = false := by
  have hsame : v'.performs isUnregister e = v.performs isUnregister e := by
    cases e with
    | finish faults => simp only [View.performs, hfinishing]
    | disposeFinish faults c => simp only [View.performs, hdisposals]
    | _ => rfl
  by_contra htrue
  have hunregisters : v.performs isUnregister e = true := by simpa using htrue
  rw [hmoved hunregisters, hunregisters] at hsame
  cases hsame

/-- A task that has not been finished. -/
theorem Step.enrolled_of_unfinished (hstep : Step respond t e v v') (hplaced : v.Placed)
    (horderly : v.Orderly) (hfaults : registrySucceeds e = true)
    (hmoved : v.performs isUnregister e = true → v'.performs isUnregister e = false)
    (htask : v.task = some k)
    (h : Unfinished v k n) : Enrolled v' (n + (v.performs isUnregister e).toNat) := by
  have hbegun {v' : View} {next : FinishStage × Bool} (hfinishing : v'.finishing = some next)
      (hdisposals : v'.disposals = v.disposals)
      (hrecord : ∃ response completion, next.1 = .record response completion) (stage : FinishStage)
      (hworks : v'.Works stage) : ∃ response completion, stage = .record response completion := by
    rcases hworks with ⟨entered, hstage⟩ | ⟨c, hc⟩
    · obtain rfl := Option.some.inj (hfinishing.symm.trans hstage)
      exact hrecord
    · exact h.works stage (.inr ⟨c, hdisposals ▸ hc⟩)
  cases hstep with
  | create hnone => cases (hnone.symm.trans htask)
  | accept hinserted =>
    refine .unfinished htask ⟨h.unfinished, h.registered, h.flag, h.unregistrations, ?_, h.works⟩
    rcases h.live with hrefused | hlive
    · exact absurd (hinserted.symm.trans hrefused) (by rintro ⟨⟩)
    · exact .inr hlive
  | @refuse _ l hshows =>
    obtain rfl : l.task = k := Option.some.inj (hshows.task.symm.trans htask)
    have hstate : (refusal t l).task.state = l.task.state := HandlerTask.send_state ..
    have hregistered : (refusal t l).world.registered = l.world.registered := by
      simp only [refusal, send]
      split <;> rfl
    refine .unfinished rfl ⟨?_, ?_, ?_, h.unregistrations, .inl rfl, h.works⟩
    · rw [hstate, h.unfinished]
    · rw [hstate, ← h.registered, hshows.registered, ← hregistered]
      rfl
    · rw [hstate, h.flag]
  | @run _ l faults finishedFuture _ _ _ hshows hcancelled =>
    obtain rfl : l.task = k := Option.some.inj (hshows.task.symm.trans htask)
    have hcall : Unfinished (v.put t (HandlerTask.call faults t finishedFuture l))
        (HandlerTask.call faults t finishedFuture l).task n :=
      h.enlists hshows (.call hcancelled) (.inl (enlistment_call hcancelled))
    exact .unfinished rfl (hcall.stays rfl rfl rfl rfl rfl rfl rfl hcall.works)
  | runCancelled _ _ _ htask' =>
    obtain rfl := Option.some.inj (htask'.symm.trans htask)
    exact .unfinished rfl (h.stays rfl rfl rfl rfl rfl rfl rfl (hbegun rfl rfl ⟨_, _, rfl⟩))
  | @resume _ l faults input _ _ _ hshows _ hending =>
    obtain rfl : l.task = k := Option.some.inj (hshows.task.symm.trans htask)
    have hregister : faults.registerTask = false := by
      simp only [registrySucceeds, Bool.and_eq_true, Bool.not_eq_true'] at hfaults
      exact hfaults.1
    have hresume : Unfinished (v.put t (HandlerTask.resume respond faults t input l))
        (HandlerTask.resume respond faults t input l).task n :=
      h.enlists hshows (.resume hending) (.resume hregister hending)
    exact .unfinished rfl (hresume.stays rfl rfl rfl rfl rfl rfl rfl hresume.works)
  | resumeEnding =>
    exact .unfinished htask (h.stays rfl rfl rfl rfl rfl rfl rfl (hbegun rfl rfl ⟨_, _, rfl⟩))
  | @finish _ l faults stage next entered hended hfinishing hshows hnext =>
    obtain rfl : l.task = k := Option.some.inj (hshows.task.symm.trans htask)
    obtain ⟨response, completion, rfl⟩ := h.works stage (.inl ⟨entered, hfinishing⟩)
    obtain ⟨l', next', hadvance, hfinished⟩ := h.record faults response completion hshows
    obtain rfl : next' = next := by
      rw [hadvance] at hnext
      exact Option.some.inj hnext
    rw [View.performs_finish faults hfinishing]
    simp only [hadvance]
    refine .finished (some next') (View.remember_task ..) ?_ ?_
    · refine View.leaves_finishing horderly hended ?_ ?_ (some (next', entered)) rfl
        (by rintro ⟨⟩)
      · exact View.remember_ended ..
      · exact View.remember_disposals ..
    · exact hfinished.congr id rfl rfl rfl
  | @finishLast _ l faults stage entered _ hfinishing hshows hnext =>
    obtain rfl : l.task = k := Option.some.inj (hshows.task.symm.trans htask)
    obtain ⟨response, completion, rfl⟩ := h.works stage (.inl ⟨entered, hfinishing⟩)
    obtain ⟨l', next', hadvance, -⟩ := h.record faults response completion hshows
    rw [hadvance] at hnext
    cases hnext
  | endLoop => exact .unfinished htask (h.stays rfl rfl rfl rfl rfl rfl rfl h.works)
  | drain => exact .unfinished htask (h.disposal rfl rfl rfl (by rintro ⟨⟩) (by rintro _ ⟨⟩))
  | dispose => exact .unfinished htask (h.disposal rfl rfl rfl (by rintro ⟨⟩) (by rintro _ ⟨⟩))
  | disposeUnbuilt =>
    refine .unfinished htask (h.disposal rfl rfl rfl (by rintro ⟨⟩) ?_)
    rintro stage ⟨⟩
    exact ⟨_, _, rfl⟩
  | closed =>
    refine .unfinished htask (h.disposal rfl rfl rfl (by rintro ⟨⟩) ?_)
    rintro stage ⟨⟩
    exact ⟨_, _, rfl⟩
  | @disposeFinish _ l faults c stage hdisposal hshows =>
    obtain rfl : l.task = k := Option.some.inj (hshows.task.symm.trans htask)
    obtain ⟨response, completion, rfl⟩ := h.works stage (.inr ⟨c, hdisposal⟩)
    obtain ⟨l', next', hadvance, hfinished⟩ := h.record faults response completion hshows
    rw [View.performs_disposeFinish faults hdisposal]
    simp only [hadvance]
    refine .finished (some next') (View.remember_task ..) ?_ ?_
    · refine View.leaves_disposal hplaced horderly hdisposal ?_ ?_ (some next') ?_
      · exact View.remember_finishing ..
      · exact View.remember_running ..
      · simp only [View.setDisposal, View.remember_disposals]
        rfl
    · exact hfinished.congr id rfl rfl rfl
  | @call _ l l' _ hshows hquiet =>
    obtain rfl : l.task = k := Option.some.inj (hshows.task.symm.trans htask)
    rw [unregisters_of_moved rfl rfl hmoved]
    exact .unfinished rfl (h.quiet hshows hquiet)
  | addDoneCallback htask' =>
    obtain rfl := Option.some.inj (htask'.symm.trans htask)
    simp only [if_neg (show ¬_ from ne_true_of_eq_false h.unfinished)]
    exact .unfinished rfl (h.stays rfl rfl rfl rfl rfl rfl rfl h.works)
  | removeDoneCallback htask' =>
    obtain rfl := Option.some.inj (htask'.symm.trans htask)
    exact .unfinished rfl (h.stays rfl rfl rfl rfl rfl rfl rfl h.works)
  | finishAgain hshows hfinished =>
    obtain rfl := Option.some.inj (hshows.task.symm.trans htask)
    exact absurd hfinished (by simp [h.unfinished])

/-- A task keeps its state when its turn ends. -/
theorem endTurn_state {entered : Bool} :
    (endTurn faults entered l).task.state = l.task.state := by
  unfold endTurn
  split
  · rw [leave_task]
  · rfl

/-- Asyncio forgets a task if it does all that is asked of its registry. -/
theorem unregisterSucceeds (h : (!faults.registerTask && !faults.unregisterTask) = true) :
    faults.unregisterTask = false := by
  simp only [Bool.and_eq_true, Bool.not_eq_true'] at h
  exact h.2

/-- A task that has been finished. -/
theorem Step.enrolled_of_finished (hstep : Step respond t e v v') (hplaced : v.Placed)
    (horderly : v.Orderly) (hfaults : registrySucceeds e = true)
    (hpermitted : v.Spares e)
    (hmoved : v.performs isUnregister e = true → v'.performs isUnregister e = false)
    (htask : v.task = some k)
    (hleaves : v.Leaves rest) (h : Finished v k n rest) :
    Enrolled v' (n + (v.performs isUnregister e).toNat) := by
  obtain ⟨hworks, hrunning, hdisposals⟩ := hleaves
  cases hstep with
  | create hnone => cases (hnone.symm.trans htask)
  | accept =>
    exact .finished rest htask ⟨hworks, hrunning, hdisposals⟩ (h.congr id rfl rfl rfl)
  | @refuse _ l hshows =>
    obtain rfl : l.task = k := Option.some.inj (hshows.task.symm.trans htask)
    have hstate : (refusal t l).task.state = l.task.state := HandlerTask.send_state ..
    have hregistered : (refusal t l).world.registered = l.world.registered := by
      simp only [refusal, send]
      split <;> rfl
    refine .finished rest rfl ⟨hworks, hrunning, hdisposals⟩ (h.congr (fun hlive => ?_) ?_ ?_ ?_)
    · simp [View.put, refusal, send_live, HandlerTask.removeLive] at hlive
    · rw [hshows.registered, ← hregistered]
      rfl
    · rw [hstate]
    · rw [hstate]
  | @run _ l faults finishedFuture _ hidle _ hshows hcancelled =>
    obtain rfl : l.task = k := Option.some.inj (hshows.task.symm.trans htask)
    have hsame : HandlerTask.call faults t finishedFuture l = l := by
      simp [HandlerTask.call, h.finished]
    rw [hsame, hshows]
    refine .finished rest htask ⟨hworks, fun hrun => ?_, hdisposals⟩ (h.congr id rfl rfl rfl)
    simp [hplaced.idle hidle _ htask] at hrun
  | runCancelled _ _ _ htask' hcancelled =>
    obtain rfl := Option.some.inj (htask'.symm.trans htask)
    simp [cancelledUnstarted, h.finished] at hcancelled
  | resume _ hrun hnone => exact absurd hnone (hrunning hrun)
  | resumeEnding _ hrun hnone => exact absurd hnone (hrunning hrun)
  | @finish _ l faults stage next entered hended hfinishing hshows hnext =>
    obtain rfl : l.task = k := Option.some.inj (hshows.task.symm.trans htask)
    obtain rfl := (hworks stage).mp (.inl ⟨entered, hfinishing⟩)
    have hadvance := (h.advance (unregisterSucceeds hfaults) hshows).remember faults l.task stage
    rw [View.performs_finish faults hfinishing]
    rw [hnext] at hadvance
    refine .finished (some next) (View.remember_task ..) ?_ (hadvance.congr id rfl rfl rfl)
    refine View.leaves_finishing horderly hended ?_ ?_ (some (next, entered)) rfl (by rintro ⟨⟩)
    · exact View.remember_ended ..
    · exact View.remember_disposals ..
  | @finishLast _ l faults stage entered hended hfinishing hshows hnext =>
    obtain rfl : l.task = k := Option.some.inj (hshows.task.symm.trans htask)
    obtain rfl := (hworks stage).mp (.inl ⟨entered, hfinishing⟩)
    have hadvance := h.advance (unregisterSucceeds hfaults) hshows
    have hturn := (Undecided.endTurn (t := t) faults entered (stage.advance faults t l).1).shared
    have hput : Finished (v.put t (endTurn faults entered (stage.advance faults t l).1))
        (endTurn faults entered (stage.advance faults t l).1).task (n + (isUnregister stage).toNat)
        (stage.advance faults t l).2 := by
      refine hadvance.congr (fun hlive => ?_) ?_ ?_ ?_
      · simpa only [View.put, hturn] using hlive
      · simp only [View.put, endTurn_registered]
      · rw [endTurn_state]
      · rw [endTurn_state]
    have hremember := hput.remember faults l.task stage
    rw [View.performs_finish faults hfinishing]
    rw [hnext] at hremember
    refine .finished none (View.remember_task ..) ?_ (hremember.congr id rfl rfl rfl)
    refine View.leaves_finishing horderly hended ?_ ?_ none rfl fun _ => rfl
    · exact View.remember_ended ..
    · exact View.remember_disposals ..
  | endLoop =>
    exact .finished rest htask ⟨hworks, hrunning, hdisposals⟩ (h.congr id rfl rfl rfl)
  | drain _ hlive =>
    have hnone := hplaced.live hlive
    have hended := hpermitted _ _ rfl hlive
    cases rest with
    | none => exact absurd (h.live rfl) (by simp [hlive])
    | some stage =>
      rcases (hworks stage).mpr rfl with ⟨entered, hfinishing⟩ | ⟨c, hc⟩
      · exact absurd (horderly.finishing hplaced hended) (by simp [hfinishing])
      · exact absurd (hnone c) (by simp [hc])
  | dispose hwaiting => exact absurd hwaiting (hdisposals _).1
  | disposeUnbuilt hwaiting => exact absurd hwaiting (hdisposals _).1
  | closed hclosing => exact absurd hclosing (hdisposals _).2
  | @disposeFinish _ l faults c stage hdisposal hshows =>
    obtain rfl : l.task = k := Option.some.inj (hshows.task.symm.trans htask)
    obtain rfl := (hworks stage).mp (.inr ⟨c, hdisposal⟩)
    have hadvance := (h.advance (unregisterSucceeds hfaults) hshows).remember faults l.task stage
    rw [View.performs_disposeFinish faults hdisposal]
    refine .finished _ (View.remember_task ..) ?_ (hadvance.congr id rfl rfl rfl)
    refine View.leaves_disposal hplaced horderly hdisposal ?_ ?_ (stage.advance faults t l).2 ?_
    · exact View.remember_finishing ..
    · exact View.remember_running ..
    · simp only [View.setDisposal, View.remember_disposals]
      rfl
  | @call _ l l' _ hshows hquiet =>
    obtain rfl : l.task = k := Option.some.inj (hshows.task.symm.trans htask)
    rw [unregisters_of_moved rfl rfl hmoved]
    refine .finished rest rfl ⟨hworks, hrunning, hdisposals⟩ (h.congr (fun hlive => ?_) ?_ ?_ ?_)
    · rw [hshows.live, ← hquiet.shared]
      exact hlive
    · rw [hshows.registered, ← hquiet.registry]
      rfl
    · exact hquiet.finished
    · exact hquiet.coroutine
  | addDoneCallback htask' =>
    obtain rfl := Option.some.inj (htask'.symm.trans htask)
    simp only [if_pos h.finished]
    exact .finished rest rfl ⟨hworks, hrunning, hdisposals⟩ (h.congr id rfl rfl rfl)
  | removeDoneCallback htask' =>
    obtain rfl := Option.some.inj (htask'.symm.trans htask)
    exact .finished rest rfl ⟨hworks, hrunning, hdisposals⟩ (h.congr id rfl rfl rfl)
  | @finishAgain _ l faults response completion hshows hfinished hsent =>
    obtain rfl := Option.some.inj (hshows.task.symm.trans htask)
    have hsend : HandlerTask.finish faults t response completion l = send t response l := by
      simp only [HandlerTask.finish, hfinished, if_true]
    have hregistered : (send t response l).world.registered = l.world.registered := by
      unfold send
      split <;> rfl
    rw [hsend]
    refine .finished rest rfl ⟨hworks, hrunning, hdisposals⟩ (h.congr (fun hlive => ?_) ?_ ?_ ?_)
    · have hsame : (send t response l).world.shared.liveTasks = l.world.shared.liveTasks := send_live
      rw [hshows.live, ← hsame]
      exact hlive
    · rw [hshows.registered, ← hregistered]
      rfl
    · rw [HandlerTask.send_state]
    · rw [HandlerTask.send_state]

/-- **The registries after one step.** -/
theorem Step.enrolled (hstep : Step respond t e v v') (hplaced : v.Placed) (horderly : v.Orderly)
    (hfaults : registrySucceeds e = true)
    (hpermitted : v.Spares e)
    (hmoved : v.performs isUnregister e = true → v'.performs isUnregister e = false)
    (h : Enrolled v n) : Enrolled v' (n + (v.performs isUnregister e).toNat) := by
  cases h with
  | absent hnone hcount =>
    have hblank := hplaced.blank hnone
    have hfinishing : v.finishing = none := congrArg View.finishing hblank
    have hdisposals : v.disposals = fun _ => .none := congrArg View.disposals hblank
    have hnot : v.performs isUnregister e = false := by
      cases e with
      | finish faults => simp [View.performs, hfinishing]
      | disposeFinish faults c => simp [View.performs, hdisposals]
      | _ => rfl
    rw [hnot]
    rcases hstep.of_absent hplaced hnone with rfl | rfl
    · refine .unfinished rfl ⟨rfl, rfl, rfl, hcount, .inr (.inl rfl), ?_⟩
      rintro stage (⟨entered, hstage⟩ | ⟨c, hc⟩)
      · cases hstage
      · cases hc
    · exact .absent rfl hcount
  | unfinished htask hunfinished =>
    exact hstep.enrolled_of_unfinished hplaced horderly hfaults hmoved htask hunfinished
  | finished rest htask hleaves hfinished =>
    exact hstep.enrolled_of_finished hplaced horderly hfaults hpermitted hmoved htask hleaves
      hfinished

/-- A task that has not been created is in no registry. -/
theorem enrolled_blank (ended : Bool) : Enrolled (View.blank ended) 0 := .absent rfl rfl

end Rayo.Lifecycle
