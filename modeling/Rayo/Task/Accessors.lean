import Rayo.Task.Placement

/-!
# What the accessors of the Future protocol tell

The four fields of an outcome are written once, when a task is finished, and decoded by the
accessors. Where the handler had an outcome they tell exactly that. A task that was aborted had
none, and still reports that its handler returned `None`.
-/

namespace Rayo

open Asyncio HandlerTask

namespace Fate

/-- The task was cancelled before its first step, or its coroutine ended with the
cancellation. -/
def CancelledWith (fate : Fate) (message : Option Value) : Prop :=
  fate = .cancelledUnstarted message ∨ fate = .raised (.cancelledError message)

/-- The coroutine or its factory raised the exception. -/
def RaisedWith (fate : Fate) (e : Exception) : Prop :=
  fate = .factoryRaised e ∨ (fate = .raised e ∧ e.isCancelled = false)

variable {fate : Fate} {message message' : Option Value} {e e' : Exception}

/-- A task is cancelled with one message. -/
theorem CancelledWith.unique (h : fate.CancelledWith message)
    (h' : fate.CancelledWith message') : message' = message := by
  rcases h with rfl | rfl <;> rcases h' with h' | h' <;> cases h' <;> rfl

/-- A coroutine raises one exception. -/
theorem RaisedWith.unique (h : fate.RaisedWith e) (h' : fate.RaisedWith e') : e' = e := by
  rcases h with rfl | ⟨rfl, -⟩ <;> rcases h' with h' | ⟨h', -⟩ <;> cases h' <;> rfl

/-- A cancelled task has raised no other exception. -/
theorem CancelledWith.not_raisedWith (h : fate.CancelledWith message) : ¬fate.RaisedWith e := by
  rcases h with rfl | rfl
  · rintro (h' | ⟨h', -⟩) <;> cases h'
  · rintro (h' | ⟨h', hnot⟩) <;> cases h'
    simp [Exception.isCancelled] at hnot

end Fate

/-- The handler ended its task in this way. -/
def CompletionKind.Outcome : CompletionKind → Fate → Prop
  | .returned value, fate => fate = .returned value
  | .raised e, fate => fate.RaisedWith e
  | .cancelled message, fate => fate.CancelledWith message
  | .aborted, _ => False

/-- A coroutine that is over stays as it is when it is closed. -/
theorem CompletionKind.Outcome.close {completion : CompletionKind} {fate : Fate}
    (h : completion.Outcome fate) : fate.close = fate := by
  cases fate with
  | alive =>
    cases completion with
    | returned value => cases h
    | raised e => rcases h with h | ⟨h, -⟩ <;> cases h
    | cancelled message => rcases h with h | h <;> cases h
    | aborted => exact h.elim
  | _ => rfl

/-- The stage records an abort. -/
def FinishStage.isAbort : FinishStage → Bool
  | .record _ .aborted => true
  | _ => false

namespace Lifecycle

/-- The event finishes the task as aborted. -/
def recordsAbort (t : TaskId) (s : Lifecycle) : Event → Bool
  | .finish _ => (s.finishing.any fun (t', stage, _) => t' = t && stage.isAbort) && !s.finished t
  | .disposeFinish _ c => match s.stops c with
    | .finishing t' stage _ => t' = t && stage.isAbort && !s.finished t
    | _ => false
  | _ => false

/-- The accessors of a finished task tell what has become of its handler. -/
structure Truthful (s : Lifecycle) (t : TaskId) (pyNone : Value) (st : TaskState) : Prop where
  /-- `result()` returns only what the coroutine returned. -/
  returned : ∀ value, st.result pyNone = .ok value → s.fate t = .returned value
  /-- `exception()` raises the cancellation that the task ended with, and nothing else. -/
  cancelled : ∀ e, st.exception = .error (.raised e) ↔
    ∃ message, e = .cancelledError message ∧ (s.fate t).CancelledWith message
  /-- It returns the exception that was raised. -/
  raised : ∀ e, st.exception = .ok (some e) ↔ (s.fate t).RaisedWith e
  /-- `result()` raises in both cases. -/
  result : ∀ e, st.result pyNone = .error (.raised e) ↔
    st.exception = .error (.raised e) ∨ st.exception = .ok (some e)
  /-- A task that was aborted does not report a success. -/
  aborted : (t, .aborted) ∈ s.completions →
    (∀ value, st.result pyNone ≠ .ok value) ∧ st.exception ≠ .ok none

section

variable {s : Lifecycle} {t : TaskId} {pyNone : Value} {st : TaskState} {completion : CompletionKind}

/-- A recorded outcome of the handler is told as it was. -/
theorem truthful_of_outcome (hverdict : st.verdict = TaskState.verdictOf completion)
    (houtcome : completion.Outcome (s.fate t)) (haborted : (t, .aborted) ∉ s.completions) :
    Truthful s t pyNone st := by
  simp only [TaskState.verdict] at hverdict
  cases completion with
  | returned value =>
    simp only [TaskState.verdictOf, Prod.mk.injEq] at hverdict
    obtain ⟨hfinished, hcancelled, -, hstored, hraised⟩ := hverdict
    have hfate : s.fate t = .returned value := houtcome
    have hresult : st.result pyNone = .ok value := by
      simp [TaskState.result, hfinished, hcancelled, hstored, hraised]
    have hexception : st.exception = .ok none := by
      simp [TaskState.exception, hfinished, hcancelled, hraised]
    refine ⟨fun v hv => ?_, fun e => ?_, fun e => ?_, fun e => ?_, fun h => absurd h haborted⟩
    · rw [hresult] at hv
      rw [hfate, Except.ok.inj hv]
    · simp [hexception, hfate, Fate.CancelledWith]
    · simp [hexception, hfate, Fate.RaisedWith]
    · simp [hresult, hexception]
  | raised e =>
    simp only [TaskState.verdictOf, Prod.mk.injEq] at hverdict
    obtain ⟨hfinished, hcancelled, -, -, hraised⟩ := hverdict
    have hfate : (s.fate t).RaisedWith e := houtcome
    have hresult : st.result pyNone = .error (.raised e) := by
      simp [TaskState.result, hfinished, hcancelled, hraised]
    have hexception : st.exception = .ok (some e) := by
      simp [TaskState.exception, hfinished, hcancelled, hraised]
    refine ⟨fun v hv => ?_, fun e' => ?_, fun e' => ?_, fun e' => ?_,
      fun h => absurd h haborted⟩
    · simp [hresult] at hv
    · rw [hexception]
      refine ⟨(by rintro ⟨⟩), ?_⟩
      rintro ⟨message, -, hcancelled⟩
      exact absurd hfate hcancelled.not_raisedWith
    · rw [hexception]
      refine ⟨fun h => ?_, fun h => ?_⟩
      · obtain rfl : e = e' := Option.some.inj (Except.ok.inj h)
        exact hfate
      · rw [hfate.unique h]
    · simp [hresult, hexception]
  | cancelled message =>
    simp only [TaskState.verdictOf, Prod.mk.injEq] at hverdict
    obtain ⟨hfinished, hcancelled, hmessage, -⟩ := hverdict
    have hfate : (s.fate t).CancelledWith message := houtcome
    have hresult : st.result pyNone = .error (.raised (.cancelledError message)) := by
      simp [TaskState.result, hfinished, hcancelled, hmessage]
    have hexception : st.exception = .error (.raised (.cancelledError message)) := by
      simp [TaskState.exception, hfinished, hcancelled, hmessage]
    refine ⟨fun v hv => ?_, fun e => ?_, fun e => ?_, fun e => ?_, fun h => absurd h haborted⟩
    · simp [hresult] at hv
    · rw [hexception]
      constructor
      · intro h
        cases h
        exact ⟨message, rfl, hfate⟩
      · rintro ⟨message', rfl, h⟩
        rw [hfate.unique h]
    · rw [hexception]
      exact ⟨(by rintro ⟨⟩), fun h => absurd h hfate.not_raisedWith⟩
    · simp [hresult, hexception]
  | aborted => exact houtcome.elim

/-- A task that was aborted reports a success. -/
theorem not_truthful_of_aborted (hverdict : st.verdict = TaskState.verdictOf .aborted)
    (haborted : (t, .aborted) ∈ s.completions) : ¬Truthful s t pyNone st := by
  intro h
  simp only [TaskState.verdict, TaskState.verdictOf, Prod.mk.injEq] at hverdict
  obtain ⟨hfinished, hcancelled, -, -, hraised⟩ := hverdict
  refine (h.aborted haborted).2 ?_
  simp [TaskState.exception, hfinished, hcancelled, hraised]

end

/-- A completed task is finished. -/
theorem complete_finished (st : TaskState) (completion : CompletionKind) :
    (st.complete completion).finished = true := by
  cases completion <;> rfl

/-- Only the first stage of the first `finish` writes to the state of its task. -/
theorem advance_state (faults : Faults) (t : TaskId) (l : Local) (stage : FinishStage) :
    ((∀ response completion, stage = .record response completion →
        l.task.state.finished = true) ∧
      (stage.advance faults t l).1.task.state = l.task.state) ∨
    ∃ response completion, stage = .record response completion ∧
      l.task.state.finished = false ∧
      (stage.advance faults t l).1.task.state = l.task.state.complete completion := by
  rcases stage with ⟨response, completion⟩ | _ | _ | ⟨_, _ | _⟩ | _ | _ | _
  case record =>
    cases hfinished : l.task.state.finished with
    | true =>
      refine .inl ⟨fun _ _ _ => rfl, ?_⟩
      simp only [FinishStage.advance, hfinished, if_true]
    | false =>
      refine .inr ⟨response, completion, rfl, rfl, ?_⟩
      simp only [FinishStage.advance, hfinished, Bool.false_eq_true, if_false, setState_state]
  all_goals
    refine .inl ⟨by rintro _ _ ⟨⟩, ?_⟩
    first
      | rfl
      | (simp only [FinishStage.advance]; split <;> rfl)

/-- What the histories note of a finished task completes it no second time. -/
theorem View.remember_completions (v : View) (faults : Faults) {k : HandlerTask}
    {stage : FinishStage} (h : ∀ response completion, stage = .record response completion →
      k.state.finished = true) : (v.remember faults k stage).completions = v.completions := by
  rcases stage with ⟨response, completion⟩ | _ | ⟨_, _ | _, _⟩ | ⟨_, _ | _⟩ | _ | _ | _
  case record => simp only [View.remember, h response completion rfl, if_true]
  case unregister.true =>
    simp only [View.remember]
    split <;> rfl
  all_goals rfl

variable {respond : Value → HandlerResponse} {t : TaskId} {e : Event} {v v' : View} {l l' : Local}
  {completion : CompletionKind}

/-- The event is about to record the completion of the task. -/
def View.Records (v : View) (e : Event) (completion : CompletionKind) : Prop :=
  (∃ faults response entered, e = .finish faults ∧
    v.finishing = some (.record response completion, entered)) ∨
  ∃ faults c response, e = .disposeFinish faults c ∧
    v.disposals c = .finishing (.record response completion)

/-- The fields of the outcome, once the task exists. -/
def View.verdict (v : View) :
    Option (Bool × Bool × Option Value × Option Value × Option Exception) :=
  v.task.map (·.state.verdict)

/-- What a step can do to the outcome of the task. -/
inductive Decides (e : Event) (v v' : View) : Prop
  | created : v.task = none → v'.verdict = some TaskState.noVerdict →
    v'.completions = v.completions → Decides e v v'
  | kept : v'.verdict = v.verdict → v'.completions = v.completions → Decides e v v'
  | recorded {k : HandlerTask} {completion : CompletionKind} : v.task = some k →
    k.state.finished = false → v.Records e completion →
    v'.verdict = some (k.state.complete completion).verdict →
    v'.completions = completion :: v.completions → Decides e v v'

/-- A step decides the same about two views that agree on outcome and completions. -/
theorem Decides.congr {v'' : View} (h : Decides e v v') (hverdict : v''.verdict = v'.verdict)
    (hcompletions : v''.completions = v'.completions) : Decides e v v'' := by
  cases h with
  | created hnone hnew hkept =>
    exact .created hnone (hverdict.trans hnew) (hcompletions.trans hkept)
  | kept hsame hkept => exact .kept (hverdict.trans hsame) (hcompletions.trans hkept)
  | recorded htask hopen hrecords hnew hmore =>
    exact .recorded htask hopen hrecords (hverdict.trans hnew) (hcompletions.trans hmore)

/-- A step that keeps the verdict of the task decides nothing. -/
theorem Decides.put (hshows : v.Shows t l)
    (hverdict : l'.task.state.verdict = l.task.state.verdict) : Decides e v (v.put t l') :=
  .kept (by simp [View.verdict, View.put, hshows.task, hverdict]) rfl

/-- A stage of a `finish`, and what may follow it. -/
theorem Decides.work {faults : Faults} {stage : FinishStage} (hshows : v.Shows t l)
    (hrecords : ∀ response completion, stage = .record response completion →
      v.Records e completion)
    (hverdict : l'.task.state.verdict = (stage.advance faults t l).1.task.state.verdict) :
    Decides e v ((v.put t l').remember faults l.task stage) := by
  have hv : ((v.put t l').remember faults l.task stage).verdict = some l'.task.state.verdict := by
    simp [View.verdict, View.remember_task, View.put]
  rcases advance_state faults t l stage with
    ⟨hfinished, hstate⟩ | ⟨response, completion, rfl, hopen, hstate⟩
  · refine .kept ?_ (View.remember_completions _ faults hfinished)
    rw [hv, hverdict, hstate]
    simp [View.verdict, hshows.task]
  · refine .recorded hshows.task hopen (hrecords response completion rfl) ?_ ?_
    · rw [hv, hverdict, hstate]
    · simp [View.remember, hopen, View.put]

/-- **One step** decides the outcome of a task at most once. -/
theorem Step.decides (hstep : Step respond t e v v') : Decides e v v' := by
  cases hstep with
  | create hnone => exact .created hnone rfl rfl
  | @refuse _ l hshows =>
    have hstate : (refusal t l).task.state = l.task.state := by
      simp only [refusal, send]
      split <;> rfl
    exact .kept (by simp [View.verdict, View.put, hshows.task, hstate]) rfl
  | @run _ l faults finishedFuture hended hrunning hfinishing hshows hcancelled =>
    have hquiet : Undecided t l (HandlerTask.call faults t finishedFuture l) := .call hcancelled
    exact .kept (by simp [View.verdict, View.put, hshows.task, hquiet.verdict]) rfl
  | runCancelled hended hrunning hfinishing htask =>
    exact .kept (by simp [View.verdict, htask]; rfl) rfl
  | @resume _ l faults input hended hrunning hfinishing hshows haccepts hending =>
    have hquiet : Undecided t l (HandlerTask.resume respond faults t input l) := .resume hending
    exact .kept (by simp [View.verdict, View.put, hshows.task, hquiet.verdict]) rfl
  | @finish _ l faults stage next entered hended hfinishing hshows hnext =>
    have hwork : Decides (.finish faults) v
        ((v.put t (stage.advance faults t l).1).remember faults l.task stage) :=
      .work hshows (fun response completion hstage =>
        .inl ⟨faults, response, entered, rfl, hstage ▸ hfinishing⟩) rfl
    exact hwork.congr rfl rfl
  | @finishLast _ l faults stage entered hended hfinishing hshows hnext =>
    have hwork : Decides (.finish faults) v
        ((v.put t (endTurn faults entered (stage.advance faults t l).1)).remember faults l.task
          stage) :=
      .work hshows (fun response completion hstage =>
        .inl ⟨faults, response, entered, rfl, hstage ▸ hfinishing⟩)
        (Undecided.endTurn (t := t) faults entered _).verdict
    exact hwork.congr rfl rfl
  | @disposeFinish _ l faults c stage hdisposal hshows =>
    have hwork : Decides (.disposeFinish faults c) v
        ((v.put t (stage.advance faults t l).1).remember faults l.task stage) :=
      .work hshows (fun response completion hstage =>
        .inr ⟨faults, c, response, rfl, hstage ▸ hdisposal⟩) rfl
    exact hwork.congr rfl rfl
  | @call _ l l' _ hshows hquiet => exact .put hshows hquiet.verdict
  | addDoneCallback htask =>
    refine .kept ?_ rfl
    simp only [View.verdict, htask, Option.map_some]
    split <;> rfl
  | removeDoneCallback htask => exact .kept (by simp [View.verdict, htask]; rfl) rfl
  | @finishAgain _ l faults response completion hshows hfinished hsent =>
    refine .put hshows ?_
    rw [HandlerTask.finish, if_pos hfinished, send]
    split <;> rfl
  | _ => exact .kept rfl rfl

/-- The fields of the outcome are empty until the task is finished. -/
def View.Unwritten (v : View) : Prop :=
  ∀ w, v.verdict = some w → w.1 = false → w = TaskState.noVerdict

/-- A step that decides nothing writes nothing. -/
theorem Decides.unwritten (hdecides : Decides e v v') (h : v.Unwritten) : v'.Unwritten := by
  intro w hw hopen
  cases hdecides with
  | created _ hnew => exact Option.some.inj (hw.symm.trans hnew)
  | kept hsame => exact h w (hsame ▸ hw) hopen
  | @recorded k completion _ _ _ hnew =>
    obtain rfl := Option.some.inj (hw.symm.trans hnew)
    cases ((complete_finished k.state completion).symm.trans hopen)

/-- What a task that is never aborted shows. -/
structure View.Told (v : View) : Prop where
  /-- A `stop` call comes with an abort only. -/
  disposal : ∀ c response completion,
    v.disposals c = .finishing (.record response completion) → completion = .aborted
  recording : ∀ response completion entered,
    v.finishing = some (.record response completion, entered) →
      completion = .aborted ∨ completion.Outcome v.fate
  completions : .aborted ∉ v.completions
  finished : ∀ k, v.task = some k → k.state.finished = true →
    (v.finishing = none → v.running = false) ∧
      ∃ completion, k.state.verdict = TaskState.verdictOf completion ∧ completion.Outcome v.fate

/-- A `finish` does not start again. -/
theorem advance_ne_record {faults : Faults} {stage next : FinishStage}
    (h : (stage.advance faults t l).2 = some next) (response : HandlerResponse)
    (completion : CompletionKind) : next ≠ .record response completion := by
  rintro rfl
  rcases stage with _ | _ | _ | ⟨_, _ | _⟩ | _ | _ | _ <;> simp only [FinishStage.advance] at h
  case record => split at h <;> cases h
  case take => split at h <;> cases h
  all_goals cases h

/-- Python code that hands control back leaves the coroutine as the end of the turn says. -/
theorem outcome_of_ending {phase : Phase} {input : Input} {ending : TurnEnding}
    (h : endingOfInput respond phase input = some ending) :
    ending.completion = .aborted ∨ ending.completion.Outcome (Fate.ofInput input) := by
  cases phase <;> cases input <;> simp only [endingOfInput, Option.some.injEq, reduceCtorEq] at h
  case building.factoryRaised e =>
    subst h
    exact .inr (.inl rfl)
  case stepping.returned value =>
    subst h
    exact .inr rfl
  case stepping.raised e =>
    subst h
    cases e with
    | cancelledError message => exact .inr (.inr rfl)
    | _ => exact .inr (.inr ⟨rfl, rfl⟩)
  case closing.closed =>
    subst h
    exact .inl rfl

/-- A stop call that finishes a task after a step aborts it. -/
theorem Step.told_disposal (hstep : Step respond t e v v') (h : v.Told) (c : StopId)
    (response : HandlerResponse) (completion : CompletionKind)
    (hc : v'.disposals c = .finishing (.record response completion)) : completion = .aborted := by
  have hset (c' : StopId) (disposal : Disposal)
      (hdisposal : disposal = .finishing (.record response completion) → completion = .aborted)
      (hc : Function.update v.disposals c' disposal c = .finishing (.record response completion)) :
      completion = .aborted := by
    by_cases hcc : c = c'
    · subst hcc
      exact hdisposal (by simpa using hc)
    · exact h.disposal c response completion (by simpa [hcc] using hc)
  cases hstep with
  | drain => exact hset _ .waiting (by rintro ⟨⟩) hc
  | dispose => exact hset _ .closing (by rintro ⟨⟩) hc
  | disposeUnbuilt => exact hset _ (.finishing (.record .internalError .aborted)) (by rintro ⟨⟩; rfl) hc
  | closed => exact hset _ (.finishing (.record .internalError .aborted)) (by rintro ⟨⟩; rfl) hc
  | @finish _ l faults stage next entered hended hfinishing hshows hnext =>
    simp only [View.remember_disposals] at hc
    exact h.disposal c response completion hc
  | @finishLast _ l faults stage entered hended hfinishing hshows hnext =>
    simp only [View.remember_disposals] at hc
    exact h.disposal c response completion hc
  | @disposeFinish _ l faults c' stage hdisposal hshows =>
    simp only [View.setDisposal, View.remember_disposals] at hc
    refine hset c' _ (fun hnext => ?_) hc
    cases hadvance : (stage.advance faults t l).2 with
    | none => simp [hadvance] at hnext
    | some next =>
      simp only [hadvance, Option.elim_some, Disposal.finishing.injEq] at hnext
      exact absurd hnext (advance_ne_record hadvance response completion)
  | _ => exact h.disposal c response completion hc

/-- Between the end of the coroutine and its record nothing becomes of it. -/
theorem Step.told_recording (hstep : Step respond t e v v') (h : v.Told)
    (response : HandlerResponse) (completion : CompletionKind) (entered : Bool)
    (hrecord : v'.finishing = some (.record response completion, entered)) :
    completion = .aborted ∨ completion.Outcome v'.fate := by
  cases hstep with
  | runCancelled =>
    cases hrecord
    exact .inr (.inl rfl)
  | resume _ _ hnone => cases (hnone.symm.trans hrecord)
  | resumeEnding _ _ _ _ hending =>
    cases hrecord
    exact outcome_of_ending hending
  | finish _ _ _ hnext =>
    cases hrecord
    exact absurd rfl (advance_ne_record hnext response completion)
  | finishLast => cases hrecord
  | closed =>
    rcases h.recording response completion entered hrecord with haborted | houtcome
    · exact .inl haborted
    · refine .inr ?_
      show completion.Outcome v.fate.close
      rwa [houtcome.close]
  | disposeFinish =>
    simp only [View.setDisposal, View.remember_finishing, View.remember_fate] at hrecord ⊢
    exact h.recording response completion entered hrecord
  | _ => exact h.recording response completion entered hrecord

/-- What a finished task on which nothing runs still goes through. -/
theorem Step.rests (hstep : Step respond t e v v') (hplaced : v.Placed) {k : HandlerTask}
    (htask : v.task = some k) (hfinished : k.state.finished = true)
    (hrest : v.finishing = none → v.running = false) :
    (v'.finishing = none → v'.running = false) ∧ (v'.fate = v.fate ∨ v'.fate = v.fate.close) := by
  cases hstep with
  | create hnone => cases (hnone.symm.trans htask)
  | @run _ l faults finishedFuture hended hrunning hfinishing hshows hcancelled =>
    obtain rfl : l.task = k := Option.some.inj (hshows.task.symm.trans htask)
    refine ⟨fun _ => ?_, .inl rfl⟩
    have hsame : HandlerTask.call faults t finishedFuture l = l := by
      simp [HandlerTask.call, hfinished]
    have hidle := hplaced.idle hrunning _ htask
    simp [hsame, hidle]
  | runCancelled _ _ _ htask' hcancelled =>
    obtain rfl := Option.some.inj (htask.symm.trans htask')
    simp [cancelledUnstarted, hfinished] at hcancelled
  | resume _ hrunning hfinishing => exact absurd (hrest hfinishing) (by simp [hrunning])
  | resumeEnding _ hrunning hfinishing => exact absurd (hrest hfinishing) (by simp [hrunning])
  | finish => exact ⟨(by rintro ⟨⟩), .inl (View.remember_fate ..)⟩
  | finishLast => exact ⟨fun _ => rfl, .inl (View.remember_fate ..)⟩
  | closed => exact ⟨hrest, .inr rfl⟩
  | disposeFinish =>
    simp only [View.setDisposal, View.remember_finishing, View.remember_fate,
      View.remember_running]
    exact ⟨hrest, .inl rfl⟩
  | _ => exact ⟨hrest, .inl rfl⟩

/-- What has been told stays told, and what is recorded is told. -/
theorem Step.told (hstep : Step respond t e v v') (hplaced : v.Placed) (hopen : v.Unwritten)
    (hpermitted : ∀ k, v.task = some k → v.Records e .aborted → k.state.finished = true)
    (h : v.Told) : v'.Told := by
  refine ⟨hstep.told_disposal h, hstep.told_recording h, ?_, fun k' htask' hfinished' => ?_⟩
  · cases hstep.decides with
    | created _ _ hkept => exact hkept ▸ h.completions
    | kept _ hkept => exact hkept ▸ h.completions
    | @recorded k completion htask hunfinished hrecords _ hmore =>
      rw [hmore, List.mem_cons, not_or]
      refine ⟨?_, h.completions⟩
      rintro rfl
      simp [hpermitted k htask hrecords] at hunfinished
  · have hverdict : v'.verdict = some k'.state.verdict := by simp [View.verdict, htask']
    cases hstep.decides with
    | created _ hnew =>
      have hnone : k'.state.verdict = TaskState.noVerdict := Option.some.inj (hverdict.symm.trans hnew)
      cases ((congrArg Prod.fst hnone).symm.trans hfinished')
    | kept hsame =>
      obtain ⟨k, htask, hk⟩ := Option.map_eq_some_iff.mp (hsame.symm.trans hverdict)
      have hfinished : k.state.finished = true := (congrArg Prod.fst hk).trans hfinished'
      obtain ⟨hrest, completion, hcompletion, houtcome⟩ := h.finished k htask hfinished
      obtain ⟨hrest', hfate⟩ := hstep.rests hplaced htask hfinished hrest
      refine ⟨hrest', completion, hk.symm.trans hcompletion, ?_⟩
      rcases hfate with hfate | hfate
      · rwa [hfate]
      · rwa [hfate, houtcome.close]
    | @recorded k completion htask hunfinished hrecords hnew hmore =>
      have hnot : completion ≠ .aborted := by
        rintro rfl
        simp [hpermitted k htask hrecords] at hunfinished
      have hwritten : k'.state.verdict = TaskState.verdictOf completion := by
        have hnone := hopen k.state.verdict (by simp [View.verdict, htask]) hunfinished
        exact (Option.some.inj (hverdict.symm.trans hnew)).trans
          (TaskState.verdict_complete hnone completion)
      rcases hrecords with ⟨faults, response, entered, rfl, hfinishing⟩ | ⟨_, c, _, rfl, hdisposal⟩
      · have houtcome := (h.recording response completion entered hfinishing).resolve_left hnot
        cases hstep with
        | finish =>
          refine ⟨(by rintro ⟨⟩), completion, hwritten, ?_⟩
          simp only [View.remember_fate]
          exact houtcome
        | finishLast =>
          refine ⟨fun _ => rfl, completion, hwritten, ?_⟩
          simp only [View.remember_fate]
          exact houtcome
        | call => exact absurd (congrArg List.length hmore) (by simp [View.put])
      · exact absurd (h.disposal c _ completion hdisposal) hnot

section

variable {s : Lifecycle} {pyNone : Value}

/-- The view of a task that has not been created has no outcome. -/
theorem blank_unwritten : (View.blank false).Unwritten := by
  rintro w ⟨⟩

/-- The fields of the outcome of an unfinished task are empty in every run. -/
theorem unwritten (hreach : (system respond).Reaches s) (t : TaskId) : (view s t).Unwritten :=
  (view_invariant (fun _ _ => True) hreach t (fun _ _ _ => trivial) blank_unwritten
    fun _ _ _ _ h _ hstep => hstep.decides.unwritten h).2

/-- An event that does not abort the task records no abort in its view. -/
theorem finished_of_not_recordsAbort (h : recordsAbort t s e = false) {k : HandlerTask}
    (hk : (view s t).task = some k) (hrecords : (view s t).Records e .aborted) :
    k.state.finished = true := by
  have hfinished : s.finished t = k.state.finished := by
    simp [finished, show s.loop.tasks t = some k from hk]
  rcases hrecords with ⟨faults, response, entered, rfl, hfinishing⟩ |
    ⟨faults, c, response, rfl, hdisposal⟩
  · simpa [recordsAbort, view_finishing.mp hfinishing, FinishStage.isAbort, hfinished] using h
  · obtain ⟨rest, hstop⟩ := disposalOf_eq_finishing hdisposal
    simpa [recordsAbort, hstop, FinishStage.isAbort, hfinished] using h

/-- The view of a task that has not been created shows no abort. -/
theorem blank_told : (View.blank false).Told := by
  refine ⟨fun c response completion h => ?_, fun response completion entered h => ?_,
    List.not_mem_nil, fun k h => ?_⟩
  · cases h
  · cases h
  · cases h

/-- In a run in which the task is never aborted it is told how its handler ended. -/
theorem told (hreach : (system respond).ReachesUnder (fun s e => recordsAbort t s e = false) s) :
    (view s t).Told := by
  have hpair := view_invariant (I := fun v => v.Unwritten ∧ v.Told)
    (fun e v => ∀ k, v.task = some k → v.Records e .aborted → k.state.finished = true)
    hreach t (fun s e h k hk => finished_of_not_recordsAbort h hk) ⟨blank_unwritten, blank_told⟩
    fun e v v' hplaced h hpermitted hstep =>
      ⟨hstep.decides.unwritten h.1, hstep.told hplaced h.1 hpermitted h.2⟩
  exact hpair.2.2

/-- The stage of `finish` that records is the one that completes the task. -/
theorem work_record {k : HandlerTask} {faults : Faults} {response : HandlerResponse}
    {completion : CompletionKind} (hk : s.loop.tasks t = some k)
    (hopen : k.state.finished = false) :
    s.work faults t (.record response completion) =
      ({ s with
          completions := (t, completion) :: s.completions
          loop := s.loop.put t
            (setState ⟨s.loop.world, k⟩ (k.state.complete completion)) },
        some (.removeLive response k.state.registeredWithAsyncio k.state.doneCallbacks)) := by
  simp [work, hk, remember, FinishStage.advance, hopen]

/-- An event that aborts the task finishes it as aborted. -/
theorem effect_of_recordsAbort (htidy : Tidy s) (h : recordsAbort t s e = true) :
    ∃ k k', s.loop.tasks t = some k ∧ k.state.finished = false ∧
      (effect respond s e).loop.tasks t = some k' ∧ k'.state = k.state.complete .aborted ∧
      (t, .aborted) ∈ (effect respond s e).completions := by
  have hstage {stage : FinishStage} (h : stage.isAbort = true) :
      ∃ response, stage = .record response .aborted := by
    rcases stage with ⟨response, _ | _ | _ | _⟩ | _ <;> cases h
    exact ⟨response, rfl⟩
  cases e with
  | finish faults =>
    simp only [recordsAbort, Bool.and_eq_true, Option.any_eq_true, Prod.exists,
      decide_eq_true_eq, Bool.not_eq_true'] at h
    obtain ⟨⟨t', stage, entered, hfinishing, rfl, habort⟩, hopen⟩ := h
    obtain ⟨response, rfl⟩ := hstage habort
    obtain ⟨k, hk⟩ := Option.isSome_iff_exists.mp (htidy.finishing _ _ _ hfinishing).2
    have hunfinished : k.state.finished = false := by simpa [finished, hk] using hopen
    refine ⟨k, { k with state := k.state.complete .aborted }, hk, hunfinished, ?_⟩
    simp only [effect, hfinishing, work_record hk hunfinished]
    exact ⟨Function.update_self .., trivial, List.mem_cons_self⟩
  | disposeFinish faults c =>
    simp only [recordsAbort] at h
    split at h
    · next t' stage rest hstop =>
      simp only [Bool.and_eq_true, decide_eq_true_eq, Bool.not_eq_true'] at h
      obtain ⟨⟨rfl, habort⟩, hopen⟩ := h
      obtain ⟨response, rfl⟩ := hstage habort
      obtain ⟨k, hk⟩ := Option.isSome_iff_exists.mp
        (htidy.stops_task c t' (by simp [hstop, StopCall.tasks]))
      have hunfinished : k.state.finished = false := by simpa [finished, hk] using hopen
      refine ⟨k, { k with state := k.state.complete .aborted }, hk, hunfinished, ?_⟩
      simp only [effect, hstop, work_record hk hunfinished]
      exact ⟨Function.update_self .., trivial, List.mem_cons_self⟩
    · cases h
  | _ => cases h

/-- **The accessors tell the truth of every task that is never aborted, and of no other.** -/
theorem accessors_truthful_iff_not_aborted (respond : Value → HandlerResponse) (t : TaskId)
    (pyNone : Value) :
    (∀ s, (system respond).ReachesUnder (fun s e => recordsAbort t s e = false) s →
      ∀ k, s.loop.tasks t = some k → k.state.finished = true → Truthful s t pyNone k.state) ∧
    (∀ s e, (system respond).Reaches s → enabled respond s e = true →
      recordsAbort t s e = true → ∃ k, (effect respond s e).loop.tasks t = some k ∧
        k.state.finished = true ∧ ¬Truthful (effect respond s e) t pyNone k.state) := by
  constructor
  · intro s hreach k hk hfinished
    have htold := told hreach
    obtain ⟨-, completion, hverdict, houtcome⟩ := htold.finished k hk hfinished
    refine truthful_of_outcome hverdict houtcome fun haborted => htold.completions ?_
    simpa [view] using haborted
  · intro s e hreach henabled haborts
    obtain ⟨hsound, -⟩ := view_invariant (I := fun _ => True) (fun _ _ => True) hreach t
      (fun _ _ _ => trivial) trivial fun _ _ _ _ _ _ _ => trivial
    obtain ⟨k, k', hk, hopen, hk', hstate, hmem⟩ :=
      effect_of_recordsAbort hsound.tidy haborts
    have hnone := unwritten hreach t k.state.verdict (by simp [View.verdict, view, hk]) hopen
    refine ⟨k', hk', ?_, not_truthful_of_aborted ?_ hmem⟩
    · rw [hstate, complete_finished]
    · rw [hstate]
      exact TaskState.verdict_complete hnone .aborted

end

/-- A coroutine that returns at its first step. -/
def returningHandler : List Event :=
  startOfHandler .none ++ .resume .none (.returned 7) :: wholeFinish

/-- A task whose coroutine has returned 7 reports it. -/
theorem accessors_truthful_iff_not_aborted_returning : ∃ s k,
    (system fun _ => .noContent).ReachesUnder (fun s e => recordsAbort 0 s e = false) s ∧
    s.loop.tasks 0 = some k ∧ k.state.result 0 = .ok 7 ∧ Truthful s 0 0 k.state := by
  have hexec : (((system fun _ => .noContent).restrict fun s e => !recordsAbort 0 s e).exec
      (fresh unawaited) returningHandler).map (fun s =>
        (s.loop.tasks 0).any (fun k => k.state.finished = true ∧
          k.state.result 0 = .ok 7)) = some true := by decide
  obtain ⟨s, hs, htask⟩ := Transition.System.exists_reachesUnder_of_exec
    (Fresh.fresh _ fun _ => rfl) hexec
  obtain ⟨k, hk, hstate⟩ := (Option.any_eq_true _ _).mp htask
  obtain ⟨hfinished, hresult⟩ := of_decide_eq_true hstate
  have hreach : (system fun _ => .noContent).ReachesUnder
      (fun s e => recordsAbort 0 s e = false) s :=
    hs.mono fun s e _ hallowed _ => by simpa using hallowed
  exact ⟨s, k, hreach, hk, hresult,
    (accessors_truthful_iff_not_aborted (fun _ => .noContent) 0 0).1 s hreach k hk hfinished⟩

/-- Entering the task fails, so that its coroutine is closed before its first step. -/
def failingEnter : List Event :=
  startOfHandler { Faults.none with enterTask := true } ++ .resume .none .closed :: wholeFinish

/-- `result()` returns `None` and `exception()` no exception, though the coroutine never ran and
the client got a 500. -/
theorem aborted_reports_success : ∃ s k, (system fun _ => .noContent).Reaches s ∧
    s.loop.tasks 0 = some k ∧ k.state.finished = true ∧ k.state.result 0 = .ok 0 ∧
    k.state.exception = .ok none ∧ s.fate 0 = .closed ∧
    s.responsesOf 0 = [(0, .internalError)] ∧ ¬Truthful s 0 0 k.state := by
  have hexec : (((system fun _ => .noContent).restrict fun _ _ => true).exec
      (fresh unawaited) failingEnter).map (fun s =>
        decide ((s.loop.tasks 0).any (fun k => k.state.finished = true ∧
          k.state.result 0 = .ok 0 ∧ k.state.exception = .ok none) = true ∧
            s.fate 0 = .closed ∧ s.responsesOf 0 = [(0, .internalError)])) = some true := by decide
  obtain ⟨s, hs, hend⟩ := Transition.System.exists_reaches_of_exec
    (Fresh.fresh _ fun _ => rfl) hexec
  obtain ⟨htask, hfate, hresponse⟩ := of_decide_eq_true hend
  obtain ⟨k, hk, hstate⟩ := (Option.any_eq_true _ _).mp htask
  obtain ⟨hfinished, hresult, hexception⟩ := of_decide_eq_true hstate
  refine ⟨s, k, hs, hk, hfinished, hresult, hexception, hfate, hresponse, fun htruthful => ?_⟩
  have hreturned := htruthful.returned 0 hresult
  rw [hfate] at hreturned
  cases hreturned

end Lifecycle

end Rayo
