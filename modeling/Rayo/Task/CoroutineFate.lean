import Rayo.Task.CompletionOrder

/-!
# No coroutine is abandoned

A coroutine that exists and is not over belongs to a task that goes on with it, closes it or waits
to be disposed of. When a task is finished its coroutine is over, whichever call has failed and
whenever the server stops.
-/

namespace Rayo

open Asyncio HandlerTask

/-- The call has joined the loop thread, or found it joined. -/
def StopCall.past : StopCall → Bool
  | .idle | .joining => false
  | .draining | .disposing _ | .closing .. | .finishing .. | .returned => true

/-- The call is over. -/
def StopCall.isOver : StopCall → Bool
  | .returned => true
  | _ => false

namespace Lifecycle

/-- A `stop` call begins after the earlier ones have returned. -/
def stopsInTurn (s : Lifecycle) : Event → Bool
  | .takeHandle _ => s.callers.all fun c => (s.stops c).isOver
  | _ => true

/-- Whoever finds the join handle taken finds the loop thread ended. -/
structure Exclusive (s : Lifecycle) : Prop where
  past : ∀ c, (s.stops c).past = true → s.ended = true
  taken : s.thread = false → s.ended = true ∨ ∃ c ∈ s.callers, s.stops c = .joining

variable {respond : Value → HandlerResponse} {s s' : Lifecycle} {e : Event}

/-- Where the loop thread has ended, every stop call finds it ended. -/
theorem Exclusive.of_ended (hended : s.ended = true) : Exclusive s :=
  ⟨fun _ _ => hended, fun _ => .inl hended⟩

/-- A stop call that takes the join handle in its turn finds none of the others under way. -/
theorem Exclusive.takeHandle (h : Exclusive s) {c : StopId}
    (hallowed : stopsInTurn s (.takeHandle c) = true) :
    Exclusive (effect respond s (.takeHandle c)) := by
  cases hthread : s.thread with
  | true =>
    have hstops : (effect respond s (.takeHandle c)).stops = Function.update s.stops c .joining := by
      simp [effect, setStop, hthread]
    constructor
    · intro c' hc'
      rw [hstops] at hc'
      by_cases hc : c' = c
      · subst hc
        simp [StopCall.past] at hc'
      · exact h.past c' (by simpa [hc] using hc')
    · refine fun _ => .inr ⟨c, List.mem_cons_self, ?_⟩
      rw [hstops, Function.update_self]
  | false =>
    refine .of_ended ?_
    rcases h.taken hthread with hended | ⟨c', hmem, hjoining⟩
    · exact hended
    · have hover := List.all_eq_true.mp hallowed c' hmem
      simp [hjoining, StopCall.isOver] at hover

/-- **One step** keeps stop calls apart that come in turn. -/
theorem Exclusive.effect (h : Exclusive s) (hallowed : stopsInTurn s e = true)
    (henabled : enabled respond s e = true) : Exclusive (effect respond s e) := by
  cases e with
  | takeHandle c => exact h.takeHandle hallowed
  | join c =>
    cases hstop : s.stops c <;> simp only [enabled, hstop, Bool.false_eq_true] at henabled
    exact .of_ended henabled
  | drain c order =>
    cases hstop : s.stops c <;> simp only [enabled, hstop, Bool.false_eq_true] at henabled
    exact .of_ended (h.past c (by rw [hstop]; rfl))
  | stopReturns c =>
    rcases hstop : s.stops c with _ | _ | _ | (_ | _) | _ | _ | _ <;>
      simp only [enabled, hstop, Bool.false_eq_true] at henabled
    exact .of_ended (h.past c (by rw [hstop]; rfl))
  | endLoop => exact .of_ended rfl
  | dispose c =>
    simp only [Lifecycle.effect]
    split
    · next hstop =>
      have hended := h.past c (by rw [hstop]; rfl)
      split <;> exact .of_ended hended
    · exact h
  | closed c =>
    simp only [Lifecycle.effect]
    split
    · next hstop => exact .of_ended (h.past c (by rw [hstop]; rfl))
    · exact h
  | disposeFinish faults c =>
    simp only [Lifecycle.effect]
    split
    · next t stage rest hstop =>
      have hended := h.past c (by rw [hstop]; rfl)
      obtain ⟨_, _, _, _, hwork⟩ := work_eq s faults t stage
      rw [hwork]
      exact .of_ended hended
    · exact h
  | run faults =>
    simp only [Lifecycle.effect]
    split <;> exact ⟨h.past, h.taken⟩
  | resume faults input =>
    simp only [Lifecycle.effect]
    split
    · exact h
    · split <;> exact ⟨h.past, h.taken⟩
  | finish faults =>
    simp only [Lifecycle.effect]
    split
    · exact h
    · next t stage entered hfinishing =>
      obtain ⟨_, _, _, _, hwork⟩ := work_eq s faults t stage
      rw [hwork]
      split <;> exact ⟨h.past, h.taken⟩
  | act a =>
    cases a with
    | removeDoneCallback t callback =>
      simp only [Lifecycle.effect, noteAction]
      split <;> exact ⟨h.past, h.taken⟩
    | _ => exact ⟨h.past, h.taken⟩
  | dropRequest t =>
    simp only [Lifecycle.effect]
    split
    · exact h
    · exact ⟨h.past, h.taken⟩
  | _ => exact ⟨h.past, h.taken⟩

/-- **Where `stop` calls do not overlap, tasks are disposed of after the end of the loop
thread.** -/
theorem disposesAfterEnd_of_stopsInTurn
    (hreach : (system respond).ReachesUnder (fun s e => stopsInTurn s e = true) s) :
    (system respond).ReachesUnder (fun s e => disposesAfterEnd s e = true) s := by
  refine hreach.mono fun s e hprefix hallowed henabled => ?_
  have hexclusive : Exclusive s := by
    refine hprefix.invariant (fun s hs => ⟨fun c hc => ?_, fun hthread => ?_⟩)
      fun s e h hallowed henabled => h.effect hallowed henabled
    · simp [Fresh.stops hs c, StopCall.past] at hc
    · cases ((Fresh.thread hs).symm.trans hthread)
  cases e with
  | drain c order =>
    cases hstop : s.stops c <;>
      simp only [system, enabled, hstop, Bool.false_eq_true] at henabled
    exact hexclusive.past c (by rw [hstop]; rfl)
  | _ => rfl

/-- What has become of the coroutine of an unfinished task, by what the task is in the middle
of. -/
def Fits (k : HandlerTask) (fate : Fate) : Prop :=
  match k.phase with
  | .idle => fate = if k.state.coroutine.isSome then .alive else .unbuilt
  | .building _ => k.state.coroutine = none ∧ fate = .unbuilt
  | .stepping => k.state.coroutine.isSome = true ∧ fate = .alive
  | .closing _ => fate = .alive

/-- Nothing else of the task matters. -/
theorem Fits.congr {k k' : HandlerTask} {fate : Fate} (h : Fits k fate)
    (hphase : k'.phase = k.phase) (hcoroutine : k'.state.coroutine = k.state.coroutine) :
    Fits k' fate := by
  unfold Fits
  rw [hphase, hcoroutine]
  exact h

section

variable {t : TaskId} {l : Local} {faults : Faults}

/-- A coroutine that stays is alive after its task has left the context. -/
theorem fits_leave (hbuilt : l.task.state.coroutine.isSome = true) :
    Fits (leave faults l).task .alive := by
  unfold leave
  dsimp only
  split <;> split <;> simp [Fits, hbuilt]

/-- A coroutine that a turn begins to advance is alive. -/
theorem fits_advance {turn : Turn} (hbuilt : l.task.state.coroutine.isSome = true) :
    Fits (advance faults t turn l).task .alive := by
  unfold advance
  dsimp only
  split
  · split
    · rfl
    split
    · rfl
    · exact ⟨hbuilt, rfl⟩
  · simp [Fits, hbuilt]

/-- A coroutine that has just been built is alive. -/
theorem fits_start {turn : Turn} {coroutine context : Value} :
    Fits (start faults t turn coroutine context l).task .alive := by
  unfold start
  split
  · rfl
  · refine fits_advance ?_
    split <;> rfl

/-- A coroutine whose task is rescheduled or aborted is alive. -/
theorem fits_rescheduleOrAbort (hbuilt : l.task.state.coroutine.isSome = true) :
    Fits (rescheduleOrAbort faults t l).task .alive := by
  unfold rescheduleOrAbort
  split
  · rfl
  · exact fits_leave hbuilt

/-- A task that parks keeps its coroutine. -/
theorem parkOnFuture_coroutine {f : FutureId} :
    (parkOnFuture faults t f l).1.task.state.coroutine = l.task.state.coroutine := by
  unfold parkOnFuture
  dsimp only
  split
  · rfl
  split
  · rfl
  split
  · rfl
  split <;> rfl

/-- A task that applies a cancellation keeps its coroutine. -/
theorem applyCancelRequestedMidStep_coroutine :
    (applyCancelRequestedMidStep t l).task.state.coroutine = l.task.state.coroutine := by
  unfold applyCancelRequestedMidStep
  split
  · dsimp only
    split <;> rfl
  · rfl

/-- A coroutine that has yielded is alive. -/
theorem fits_yieldStep {y : Yielded} (hbuilt : l.task.state.coroutine.isSome = true) :
    Fits (yieldStep faults t y l).task .alive := by
  cases y with
  | none => exact fits_rescheduleOrAbort hbuilt
  | object typeName => exact fits_rescheduleOrAbort hbuilt
  | future f =>
    have hpark : (parkOnFuture faults t f l).1.task.state.coroutine.isSome = true := by
      rwa [parkOnFuture_coroutine]
    simp only [yieldStep]
    split <;> rename_i hcase <;> rw [hcase] at hpark
    · exact fits_leave (by rwa [applyCancelRequestedMidStep_coroutine])
    · exact fits_rescheduleOrAbort hpark
    · rfl

/-- A turn that does not end its task goes on with its coroutine. -/
theorem fits_resume {respond : Value → HandlerResponse} {input : Input} {fate : Fate}
    (h : Fits l.task fate) (haccepts : l.task.accepts input = true)
    (hending : endingOfInput respond l.task.phase input = none) :
    Fits (HandlerTask.resume respond faults t input l).task (Fate.ofInput input) := by
  cases hphase : l.task.phase <;> cases input <;>
    simp only [endingOfInput, hphase, reduceCtorEq, accepts, Bool.false_eq_true] at hending haccepts
  case building.factoryReturned turn coroutine context =>
    simp only [HandlerTask.resume, hphase]
    exact fits_start
  case stepping.yielded y =>
    simp only [Fits, hphase] at h
    simp only [HandlerTask.resume, hphase]
    exact fits_yieldStep h.1

/-- A turn that begins fits the coroutine that its task has. -/
theorem fits_call {finishedFuture : Option FutureId} {fate : Fate} (h : Fits l.task fate)
    (hidle : l.task.phase = .idle) (hopen : l.task.state.finished = false)
    (hcancelled : cancelledUnstarted l.task.state = false) :
    Fits (HandlerTask.call faults t finishedFuture l).task fate := by
  simp only [Fits, hidle] at h
  simp only [HandlerTask.call, hopen, Bool.false_eq_true, if_false]
  cases hbuilt : l.task.state.coroutine with
  | none =>
    have hcancel : l.task.state.mustCancel = false := by
      simpa [cancelledUnstarted, hopen, hbuilt] using hcancelled
    simp only [takeTurn, hcancel, Option.isNone_none, if_true, Bool.false_eq_true, if_false]
    exact ⟨hbuilt, by simpa [hbuilt] using h⟩
  | some coroutine =>
    obtain rfl : fate = .alive := by simpa [hbuilt] using h
    simp only [Option.isNone_some, Bool.false_eq_true, if_false]
    exact fits_advance (by simp [turnTaken, hbuilt])

end

/-- What every task shows of its coroutine. -/
inductive View.Kept (v : View) : Prop
  | absent : v.task = none → Kept v
  /-- It is not finished, and no `finish` is under way. -/
  | going {k : HandlerTask} : v.task = some k → k.state.finished = false →
    (∀ stage, ¬v.Works stage) → Fits k v.fate → Kept v
  /-- A `finish` is about to record its completion. -/
  | ending {k : HandlerTask} {stage : FinishStage} : v.task = some k →
    k.state.finished = false → v.Works stage →
    (∀ stage, v.Works stage → ∃ response completion, stage = .record response completion) →
    v.fate ≠ .alive → Kept v
  | finished {k : HandlerTask} : v.task = some k → k.state.finished = true →
    (v.running = true → v.finishing ≠ none) → v.fate ≠ .alive → Kept v

variable {t : TaskId} {v v' : View} {k : HandlerTask}

/-- What the first event of a task shows of its coroutine. -/
theorem Step.kept_of_absent (hstep : Step respond t e v v') (hplaced : v.Placed)
    (hnone : v.task = none) : v'.Kept := by
  rcases hstep.of_absent hplaced hnone with rfl | rfl
  · refine .going rfl rfl ?_ rfl
    rintro stage (⟨entered, h⟩ | ⟨c, h⟩) <;> cases h
  · exact .absent rfl

/-- A refused task keeps its state. -/
theorem refusal_state {l : Local} : (refusal t l).task.state = l.task.state := by
  simp only [refusal, send]
  split <;> rfl

/-- A coroutine that has handed control back at the end of its task is over. -/
theorem ofInput_ne_alive {phase : Phase} {input : Input} {ending : TurnEnding}
    (h : endingOfInput respond phase input = some ending) : Fate.ofInput input ≠ .alive := by
  cases phase <;> cases input <;> simp only [endingOfInput, reduceCtorEq] at h <;> rintro ⟨⟩

/-- A closed coroutine is not alive. -/
theorem Fate.close_ne_alive {fate : Fate} : fate.close ≠ .alive := by
  cases fate <;> rintro ⟨⟩

/-- A task that goes on. -/
theorem Step.kept_of_going (hstep : Step respond t e v v') (hplaced : v.Placed)
    (horderly : v.Orderly) (htask : v.task = some k) (hopen : k.state.finished = false)
    (hworks : ∀ stage, ¬v.Works stage) (hfits : Fits k v.fate) : v'.Kept := by
  have hset {c : StopId} {disposal : Disposal} (hnot : ∀ stage, disposal ≠ .finishing stage)
      (stage : FinishStage) : ¬(v.setDisposal c disposal).Works stage := fun h =>
    (View.works_setDisposal h).elim (hworks stage) (hnot stage)
  have habort {c : StopId} {stage : FinishStage}
      (h : (v.setDisposal c (.finishing (.record .internalError .aborted))).Works stage) :
      ∃ response completion, stage = .record response completion := by
    rcases View.works_setDisposal h with h | h
    · exact absurd h (hworks stage)
    · cases h
      exact ⟨_, _, rfl⟩
  cases hstep with
  | create hnone => cases (hnone.symm.trans htask)
  | accept => exact .going htask hopen hworks hfits
  | @refuse _ l hshows =>
    obtain rfl : l.task = k := Option.some.inj (hshows.task.symm.trans htask)
    have hstate : (refusal t l).task.state = l.task.state := refusal_state
    exact .going rfl (by rw [hstate, hopen]) hworks
      (hfits.congr send_phase (congrArg TaskState.coroutine hstate))
  | @run _ l faults finishedFuture _ hidle _ hshows hcancelled =>
    obtain rfl : l.task = k := Option.some.inj (hshows.task.symm.trans htask)
    have hcall : Undecided t l (HandlerTask.call faults t finishedFuture l) := .call hcancelled
    exact .going rfl (hcall.finished.trans hopen) hworks
      (fits_call hfits (hplaced.idle hidle _ htask) hopen hcancelled)
  | runCancelled _ _ _ htask' =>
    obtain rfl := Option.some.inj (htask'.symm.trans htask)
    refine .ending rfl hopen (.inl ⟨_, rfl⟩) ?_ (by rintro ⟨⟩)
    rintro stage (⟨entered, h⟩ | hdisposal)
    · cases h
      exact ⟨_, _, rfl⟩
    · exact absurd (.inr hdisposal) (hworks stage)
  | @resume _ l faults input _ _ _ hshows haccepts hending =>
    obtain rfl : l.task = k := Option.some.inj (hshows.task.symm.trans htask)
    have hresume : Undecided t l (HandlerTask.resume respond faults t input l) := .resume hending
    exact .going rfl (hresume.finished.trans hopen) hworks (fits_resume hfits haccepts hending)
  | resumeEnding _ _ _ _ hending =>
    refine .ending htask hopen (.inl ⟨_, rfl⟩) ?_ (ofInput_ne_alive hending)
    rintro stage (⟨entered, h⟩ | hdisposal)
    · cases h
      exact ⟨_, _, rfl⟩
    · exact absurd (.inr hdisposal) (hworks stage)
  | finish _ hfinishing => exact absurd (.inl ⟨_, hfinishing⟩) (hworks _)
  | finishLast _ hfinishing => exact absurd (.inl ⟨_, hfinishing⟩) (hworks _)
  | endLoop => exact .going htask hopen hworks hfits
  | drain => exact .going htask hopen (hset (by rintro _ ⟨⟩)) hfits
  | dispose => exact .going htask hopen (hset (by rintro _ ⟨⟩)) hfits
  | @disposeUnbuilt _ c k' hwaiting htask' hunbuilt =>
    obtain rfl := Option.some.inj (htask'.symm.trans htask)
    have hended := horderly.disposal c (by simp [hwaiting])
    have hidle := hplaced.idle (horderly.ended hended) _ htask
    have hfate : v.fate = .unbuilt := by simpa [Fits, hidle, hunbuilt] using hfits
    refine .ending htask hopen (show View.Works _ (.record .internalError .aborted) from
      .inr ⟨c, ?_⟩) (fun _ => habort) ?_
    · simp [View.setDisposal]
    · simp [View.setDisposal, hfate]
  | @closed _ c hclosing =>
    refine .ending htask hopen (show View.Works _ (.record .internalError .aborted) from
      .inr ⟨c, ?_⟩) (fun _ => habort) Fate.close_ne_alive
    simp [View.setDisposal]
  | disposeFinish hdisposal => exact absurd (.inr ⟨_, hdisposal⟩) (hworks _)
  | @call _ l l' _ hshows hcall =>
    obtain rfl : l.task = k := Option.some.inj (hshows.task.symm.trans htask)
    exact .going rfl (hcall.finished.trans hopen) hworks (hfits.congr hcall.phase hcall.coroutine)
  | addDoneCallback htask' =>
    obtain rfl := Option.some.inj (htask'.symm.trans htask)
    simp only [if_neg (ne_true_of_eq_false hopen)]
    exact .going rfl hopen hworks (hfits.congr rfl rfl)
  | removeDoneCallback htask' =>
    obtain rfl := Option.some.inj (htask'.symm.trans htask)
    exact .going rfl hopen hworks (hfits.congr rfl rfl)
  | finishAgain hshows hfinished =>
    obtain rfl := Option.some.inj (hshows.task.symm.trans htask)
    cases (hopen.symm.trans hfinished)

/-- The first stage leaves its task finished, and it is not the last. -/
theorem advance_record {faults : Faults} {l : Local} {response : HandlerResponse}
    {completion : CompletionKind} :
    ((FinishStage.record response completion).advance faults t l).1.task.state.finished = true ∧
      ((FinishStage.record response completion).advance faults t l).2 ≠ none := by
  cases hfinished : l.task.state.finished with
  | true => simp [FinishStage.advance, hfinished]
  | false =>
    simp only [FinishStage.advance, hfinished, Bool.false_eq_true, if_false, setState_state]
    exact ⟨complete_finished _ _, by rintro ⟨⟩⟩

/-- A task whose completion is about to be recorded. -/
theorem Step.kept_of_ending {stage : FinishStage} (hstep : Step respond t e v v')
    (hplaced : v.Placed) (horderly : v.Orderly) (htask : v.task = some k)
    (hopen : k.state.finished = false) (hwork : v.Works stage)
    (hworks : ∀ stage, v.Works stage → ∃ response completion, stage = .record response completion)
    (hfate : v.fate ≠ .alive) : v'.Kept := by
  have hbusy (hended : v.ended = false) (hnone : v.finishing = none) : False := by
    obtain ⟨entered, h⟩ := (horderly.works_iff hended).mp hwork
    cases (hnone.symm.trans h)
  have hother {c : StopId} (hc : v.disposals c ≠ .none)
      (hnot : ∀ stage, v.disposals c ≠ .finishing stage) : False := by
    rcases hwork with ⟨entered, h⟩ | ⟨c', h⟩
    · cases ((horderly.finishing hplaced (horderly.disposal c hc)).symm.trans h)
    · obtain rfl := hplaced.single c c' hc (by simp [h])
      exact hnot stage h
  cases hstep with
  | create hnone => cases (hnone.symm.trans htask)
  | accept => exact .ending htask hopen hwork hworks hfate
  | @refuse _ l hshows =>
    obtain rfl : l.task = k := Option.some.inj (hshows.task.symm.trans htask)
    exact .ending rfl (by rw [refusal_state, hopen]) hwork hworks hfate
  | run _ hended _ hnone => exact (hbusy hended hnone).elim
  | runCancelled hended _ hnone => exact (hbusy hended hnone).elim
  | resume hended _ hnone => exact (hbusy hended hnone).elim
  | resumeEnding hended _ hnone => exact (hbusy hended hnone).elim
  | finish _ hfinishing =>
    obtain ⟨response, completion, rfl⟩ := hworks _ (.inl ⟨_, hfinishing⟩)
    refine .finished (View.remember_task ..) advance_record.1 (fun _ => by rintro ⟨⟩) ?_
    rw [View.remember_fate]
    exact hfate
  | finishLast _ hfinishing _ hnext =>
    obtain ⟨response, completion, rfl⟩ := hworks _ (.inl ⟨_, hfinishing⟩)
    exact absurd hnext advance_record.2
  | endLoop => exact .ending htask hopen hwork hworks hfate
  | drain _ hlive =>
    rcases hwork with ⟨entered, h⟩ | ⟨c, h⟩
    · refine .ending htask hopen (.inl ⟨entered, h⟩) (fun stage hstage => ?_) hfate
      exact (View.works_setDisposal hstage).elim (hworks stage) (by rintro ⟨⟩)
    · exact absurd (hplaced.live hlive c) (by simp [h])
  | dispose hc => exact (hother (by rw [hc]; rintro ⟨⟩) (by rw [hc]; rintro _ ⟨⟩)).elim
  | disposeUnbuilt hc => exact (hother (by rw [hc]; rintro ⟨⟩) (by rw [hc]; rintro _ ⟨⟩)).elim
  | closed hc => exact (hother (by rw [hc]; rintro ⟨⟩) (by rw [hc]; rintro _ ⟨⟩)).elim
  | @disposeFinish _ l faults c stage hdisposal hshows =>
    obtain ⟨response, completion, rfl⟩ := hworks stage (.inr ⟨c, hdisposal⟩)
    have hended := horderly.disposal c (by simp [hdisposal])
    refine .finished (View.remember_task ..) advance_record.1 (fun hrunning => ?_) ?_
    · simp only [View.setDisposal, View.remember_running] at hrunning
      cases ((horderly.ended hended).symm.trans hrunning)
    · simp only [View.setDisposal, View.remember_fate]
      exact hfate
  | @call _ l l' _ hshows hcall =>
    obtain rfl : l.task = k := Option.some.inj (hshows.task.symm.trans htask)
    exact .ending rfl (hcall.finished.trans hopen) hwork hworks hfate
  | addDoneCallback htask' =>
    obtain rfl := Option.some.inj (htask'.symm.trans htask)
    simp only [if_neg (ne_true_of_eq_false hopen)]
    exact .ending rfl hopen hwork hworks hfate
  | removeDoneCallback htask' =>
    obtain rfl := Option.some.inj (htask'.symm.trans htask)
    exact .ending rfl hopen hwork hworks hfate
  | finishAgain hshows hfinished =>
    obtain rfl := Option.some.inj (hshows.task.symm.trans htask)
    cases (hopen.symm.trans hfinished)

/-- A stage leaves a finished task finished. -/
theorem advance_finished {faults : Faults} {l : Local} {stage : FinishStage}
    (h : l.task.state.finished = true) :
    (stage.advance faults t l).1.task.state.finished = true := by
  rcases advance_state faults t l stage with ⟨-, hstate⟩ | ⟨_, _, -, hopen, -⟩
  · rw [hstate, h]
  · cases (hopen.symm.trans h)

/-- A task that is finished. -/
theorem Step.kept_of_finished (hstep : Step respond t e v v') (hplaced : v.Placed)
    (htask : v.task = some k) (hfinished : k.state.finished = true)
    (hrests : v.running = true → v.finishing ≠ none) (hfate : v.fate ≠ .alive) : v'.Kept := by
  cases hstep with
  | create hnone => cases (hnone.symm.trans htask)
  | accept => exact .finished htask hfinished hrests hfate
  | @refuse _ l hshows =>
    obtain rfl : l.task = k := Option.some.inj (hshows.task.symm.trans htask)
    exact .finished rfl (by rw [refusal_state, hfinished]) hrests hfate
  | @run _ l faults finishedFuture _ hidle _ hshows hcancelled =>
    obtain rfl : l.task = k := Option.some.inj (hshows.task.symm.trans htask)
    have hsame : HandlerTask.call faults t finishedFuture l = l := by
      simp [HandlerTask.call, hfinished]
    rw [hsame, hshows]
    refine .finished htask hfinished (fun hrunning => ?_) hfate
    simp [hplaced.idle hidle _ htask] at hrunning
  | runCancelled _ _ _ htask' hcancelled =>
    obtain rfl := Option.some.inj (htask'.symm.trans htask)
    simp [cancelledUnstarted, hfinished] at hcancelled
  | resume _ hrunning hnone => exact absurd hnone (hrests hrunning)
  | resumeEnding _ hrunning hnone => exact absurd hnone (hrests hrunning)
  | finish _ _ hshows =>
    obtain rfl := Option.some.inj (hshows.task.symm.trans htask)
    refine .finished (View.remember_task ..) (advance_finished hfinished) (fun _ => by rintro ⟨⟩) ?_
    rw [View.remember_fate]
    exact hfate
  | finishLast _ _ hshows =>
    obtain rfl := Option.some.inj (hshows.task.symm.trans htask)
    refine .finished (View.remember_task ..) ?_ (by rintro ⟨⟩) ?_
    · rw [(Undecided.endTurn (t := t) _ _ _).finished]
      exact advance_finished hfinished
    · rw [View.remember_fate]
      exact hfate
  | endLoop => exact .finished htask hfinished hrests hfate
  | drain => exact .finished htask hfinished hrests hfate
  | dispose => exact .finished htask hfinished hrests hfate
  | disposeUnbuilt => exact .finished htask hfinished hrests hfate
  | closed => exact .finished htask hfinished hrests Fate.close_ne_alive
  | disposeFinish hdisposal hshows =>
    obtain rfl := Option.some.inj (hshows.task.symm.trans htask)
    refine .finished (View.remember_task ..) (advance_finished hfinished) (fun hrunning => ?_) ?_
    · simp only [View.setDisposal, View.remember_running, View.remember_finishing] at hrunning ⊢
      exact hrests hrunning
    · simp only [View.setDisposal, View.remember_fate]
      exact hfate
  | call hshows hcall =>
    obtain rfl := Option.some.inj (hshows.task.symm.trans htask)
    exact .finished rfl (hcall.finished.trans hfinished) hrests hfate
  | addDoneCallback htask' =>
    obtain rfl := Option.some.inj (htask'.symm.trans htask)
    simp only [if_pos hfinished]
    exact .finished rfl hfinished hrests hfate
  | removeDoneCallback htask' =>
    obtain rfl := Option.some.inj (htask'.symm.trans htask)
    exact .finished rfl hfinished hrests hfate
  | finishAgain hshows _ =>
    obtain rfl := Option.some.inj (hshows.task.symm.trans htask)
    refine .finished rfl ?_ hrests hfate
    rw [HandlerTask.finish, if_pos hfinished, send]
    split <;> exact hfinished

/-- **One step** keeps what every task shows of its coroutine. -/
theorem Step.kept (hstep : Step respond t e v v') (hplaced : v.Placed) (horderly : v.Orderly)
    (h : v.Kept) : v'.Kept := by
  cases h with
  | absent hnone => exact hstep.kept_of_absent hplaced hnone
  | going htask hopen hworks hfits =>
    exact hstep.kept_of_going hplaced horderly htask hopen hworks hfits
  | ending htask hopen hwork hworks hfate =>
    exact hstep.kept_of_ending hplaced horderly htask hopen hwork hworks hfate
  | finished htask hfinished hrests hfate =>
    exact hstep.kept_of_finished hplaced htask hfinished hrests hfate

/-- Every task has its coroutine accounted for where `stop` calls do not overlap. -/
theorem kept (hreach : (system respond).ReachesUnder (fun s e => stopsInTurn s e = true) s)
    (t : TaskId) : Sound s ∧ (view s t).Orderly ∧ (view s t).Kept := by
  refine view_invariant (I := fun v => v.Orderly ∧ v.Kept) (fun e v => v.Spares e)
    (disposesAfterEnd_of_stopsInTurn hreach) t
    (fun s e hallowed => spares_of_disposesAfterEnd hallowed t) ?_ ?_
  · exact ⟨⟨fun c hc => absurd rfl hc, by rintro ⟨⟩⟩, .absent rfl⟩
  · intro e v v' hplaced h hpermitted hstep
    exact ⟨hstep.orderly h.1 hpermitted, hstep.kept hplaced h.1 h.2⟩

/-- The coroutine of the task was never built. -/
def Fate.NeverBuilt : Fate → Prop
  | .unbuilt | .factoryRaised _ | .cancelledUnstarted _ => True
  | _ => False

/-- The coroutine was never built, has itself returned or raised, or has been closed. -/
def Fate.Accounted (fate : Fate) : Prop :=
  Fate.NeverBuilt fate ∨ (∃ value, fate = .returned value) ∨ (∃ e, fate = .raised e) ∨
    fate = .closed

/-- A coroutine that is not alive is accounted for. -/
theorem Fate.accounted_of_ne_alive {fate : Fate} (h : fate ≠ .alive) : Fate.Accounted fate := by
  cases fate with
  | unbuilt => exact .inl trivial
  | factoryRaised e => exact .inl trivial
  | cancelledUnstarted message => exact .inl trivial
  | alive => exact absurd rfl h
  | returned value => exact .inr (.inl ⟨value, rfl⟩)
  | raised e => exact .inr (.inr (.inl ⟨e, rfl⟩))
  | closed => exact .inr (.inr (.inr rfl))

/-- The coroutine of a finished task is accounted for. -/
theorem accounted_of_finished
    (hreach : (system respond).ReachesUnder (fun s e => stopsInTurn s e = true) s)
    (hfinished : s.finished t = true) : Fate.Accounted (s.fate t) := by
  obtain ⟨-, -, hkept⟩ := kept hreach t
  refine Fate.accounted_of_ne_alive ?_
  obtain ⟨k, hk, hfinished⟩ := (Option.any_eq_true _ _).mp hfinished
  cases hkept with
  | absent hnone => cases (hnone.symm.trans hk)
  | going hk' hopen =>
    obtain rfl := Option.some.inj (hk'.symm.trans hk)
    cases (hopen.symm.trans hfinished)
  | ending hk' hopen =>
    obtain rfl := Option.some.inj (hk'.symm.trans hk)
    cases (hopen.symm.trans hfinished)
  | finished _ _ _ hfate => exact hfate

/-- **No handler coroutine is abandoned.** -/
theorem no_coroutine_abandoned (respond : Value → HandlerResponse) {s : Lifecycle}
    (hreach : (system respond).ReachesUnder (fun s e => stopsInTurn s e = true) s) (t : TaskId) :
    (s.finished t = true → Fate.Accounted (s.fate t)) ∧
    (∀ e, enabled respond s e = true → stopsInTurn s e = true →
      (effect respond s e).schedules t ≠ .refused →
      (effect respond s e).responsesOf t ≠ s.responsesOf t →
        s.finished t = true ∧ Fate.Accounted (s.fate t)) := by
  refine ⟨accounted_of_finished hreach, fun e henabled _ haccepted hsent => ?_⟩
  obtain ⟨hsound, -, hcourse⟩ := course (disposesAfterEnd_of_stopsInTurn hreach) t
  rcases progress hsound.tidy henabled t with hstep | hnothing
  · obtain ⟨hreleased, -⟩ := hstep.delivers hcourse haccepted hsent
    obtain ⟨k, completion, hk, hverdict, -⟩ := hreleased.recorded
    have hdone : k.state.finished = true := by
      refine (congrArg Prod.fst hverdict).trans ?_
      cases completion <;> rfl
    have hfinished : s.finished t = true := (Option.any_eq_true _ _).mpr ⟨k, hk, hdone⟩
    exact ⟨hfinished, accounted_of_finished hreach hfinished⟩
  · exact absurd (congrArg View.responses hnothing) hsent

/-- A coroutine that yields while `call_soon` fails, so that it is closed and its task aborted. -/
def failingReschedule : List Event :=
  startOfHandler .none ++ .resume { Faults.none with callSoon := true } (.yielded .none) ::
    .resume .none .closed :: wholeFinish

/-- A task whose reschedule has failed has its coroutine accounted for. -/
theorem no_coroutine_abandoned_failingReschedule : ∃ s,
    (system fun _ => .noContent).ReachesUnder (fun s e => stopsInTurn s e = true) s ∧
    s.finished 0 = true ∧ Fate.Accounted (s.fate 0) := by
  have hexec : (((system fun _ => .noContent).restrict stopsInTurn).exec
      (fresh unawaited) failingReschedule).map (fun s => s.finished 0) = some true := by decide
  obtain ⟨s, hs, hfinished⟩ := Transition.System.exists_reachesUnder_of_exec
    (Fresh.fresh _ fun _ => rfl) hexec
  exact ⟨s, hs, hfinished, (no_coroutine_abandoned _ hs 0).1 hfinished⟩

end Lifecycle

end Rayo
