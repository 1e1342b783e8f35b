import Rayo.Task.CompletionCourse

/-!
# Completion is final and ordered

The response comes last, and nothing happens to the task afterwards.
-/

namespace Rayo.Lifecycle

open Asyncio HandlerTask

variable {respond : Value → HandlerResponse} {t : TaskId} {e : Event} {v v' : View} {l l' : Local}
  {k : HandlerTask}

/-- All the bookkeeping of the completion is over. -/
structure View.Released (v : View) : Prop where
  recorded : ∃ k completion, v.task = some k ∧
    k.state.verdict = TaskState.verdictOf completion ∧ v.completions = [completion]
  live : v.live = false
  registered : v.registered = true → v.unregisterError = true
  handed : v.handed.Perm v.added

/-- A task whose `finish` has nothing left is released. -/
theorem Ledger.Closed.released {rest : Option FinishStage} (htask : v.task = some k)
    (h : v.ledger.Closed k rest) (hlive : mayBeLive rest = false)
    (howes : owesUnregister rest = false) (hcallbacks : rest.elim [] FinishStage.callbacks = []) :
    v.Released := by
  obtain ⟨completion, hcompletions, hverdict⟩ := h.recorded
  refine ⟨⟨k, completion, htask, hverdict, hcompletions⟩, h.live hlive, fun hregistered => ?_, ?_⟩
  · exact (h.registered hregistered).resolve_left (by simp [howes])
  · have hperm := h.handed
    rw [hcallbacks, List.append_nil] at hperm
    exact hperm

/-- Only one stage of a `finish` sends a response. -/
theorem advance_responses {faults : Faults} {stage : FinishStage}
    (h : ∀ response, stage ≠ .deliver response) :
    (stage.advance faults t l).1.world.shared.responses = l.world.shared.responses := by
  rcases stage with _ | _ | _ | ⟨_, _ | _⟩ | _ | _ | response <;> simp only [FinishStage.advance]
  case deliver => exact absurd rfl (h response)
  all_goals first | rfl | (split <;> rfl)

/-- A view shows the same responses as long as the loop has them. -/
theorem View.put_responses (hshows : v.Shows t l)
    (hresponses : l'.world.shared.responses = l.world.shared.responses) :
    (v.put t l').responses = v.responses := by
  simp only [View.put, hshows.responses, hresponses]

/-- Where the response is about to be sent, nothing else is left to do. -/
theorem View.Course.released {response : HandlerResponse} (h : v.Course)
    (haccepted : v.schedule ≠ .refused) (htask : v.task = some k)
    (hworks : v.Works (.deliver response)) : v.Released ∧ v.responses = [] := by
  cases h with
  | absent hnone => cases (hnone.symm.trans htask)
  | refused hrefused => exact absurd hrefused haccepted
  | opened _ _ hrecord =>
    obtain ⟨_, _, hstage⟩ := hrecord _ hworks
    cases hstage
  | closed rest htask' hclosed hiff =>
    obtain rfl := (hiff _).mp hworks
    exact ⟨hclosed.released htask' rfl rfl rfl, List.eq_nil_of_length_eq_zero hclosed.responses⟩

/-- A stage that sends a response is the last one. -/
theorem View.Course.released_of_sent {faults : Faults} {stage : FinishStage} (h : v.Course)
    (haccepted : v.schedule ≠ .refused) (hshows : v.Shows t l) (hworks : v.Works stage)
    (hresponses : l'.world.shared.responses =
      (stage.advance faults t l).1.world.shared.responses)
    (hsent : ((v.put t l').remember faults l.task stage).responses ≠ v.responses) :
    v.Released ∧ v.responses = [] := by
  by_cases hdeliver : ∃ response, stage = .deliver response
  · obtain ⟨response, rfl⟩ := hdeliver
    exact h.released haccepted hshows.task hworks
  · refine absurd ?_ hsent
    rw [View.remember_responses]
    refine View.put_responses hshows (hresponses.trans (advance_responses fun response hstage => ?_))
    exact hdeliver ⟨response, hstage⟩

/-- Where a response is sent, nothing else was left to do. -/
theorem Step.delivers (hstep : Step respond t e v v') (h : v.Course)
    (haccepted : v'.schedule ≠ .refused) (hsent : v'.responses ≠ v.responses) :
    v.Released ∧ v.responses = [] := by
  have hbefore : v.schedule ≠ .refused := fun h =>
    haccepted ((hstep.schedule (.inr h)).trans h)
  cases hstep with
  | refuse => exact absurd rfl haccepted
  | @run _ l faults finishedFuture _ _ _ hshows hcancelled =>
    have hcall : Undecided t l (HandlerTask.call faults t finishedFuture l) := .call hcancelled
    exact absurd (View.put_responses hshows (congrArg LoopHandles.responses hcall.shared)) hsent
  | @resume _ l faults input _ _ _ hshows _ hending =>
    have hresume : Undecided t l (HandlerTask.resume respond faults t input l) := .resume hending
    exact absurd (View.put_responses hshows (congrArg LoopHandles.responses hresume.shared)) hsent
  | @finish _ l faults stage next entered _ hfinishing hshows =>
    exact h.released_of_sent hbefore hshows (.inl ⟨entered, hfinishing⟩) rfl hsent
  | @finishLast _ l faults stage entered _ hfinishing hshows =>
    have hturn := (Undecided.endTurn (t := t) faults entered (stage.advance faults t l).1).shared
    exact h.released_of_sent hbefore hshows (.inl ⟨entered, hfinishing⟩)
      (congrArg LoopHandles.responses hturn) hsent
  | disposeFinish hdisposal hshows =>
    exact h.released_of_sent hbefore hshows (.inr ⟨_, hdisposal⟩) rfl hsent
  | call hshows hquiet =>
    exact absurd (View.put_responses hshows (congrArg LoopHandles.responses hquiet.shared)) hsent
  | @finishAgain _ l faults response completion hshows hfinished hresponses =>
    cases h with
    | absent hnone => cases (hnone.symm.trans hshows.task)
    | refused hrefused => exact absurd hrefused hbefore
    | opened _ hopen => exact absurd hopen.responses hresponses
    | closed rest htask hclosed =>
      obtain rfl := Option.some.inj (hshows.task.symm.trans htask)
      obtain rfl := hclosed.rest_eq_none hresponses
      rw [finish_of_sent hfinished hclosed.sender, hshows] at hsent
      exact absurd rfl hsent
  | _ => exact absurd rfl hsent

/-- A task whose response has been sent. -/
structure View.Settled (v : View) : Prop where
  task : ∃ k, v.task = some k ∧ k.state.finished = true ∧ k.sender = false
  live : v.live = false
  running : v.running = false
  finishing : v.finishing = none
  disposals : ∀ c, v.disposals c = .none

/-- What can still change about it. -/
structure View.Later (v v' : View) : Prop where
  operations : v'.operations = v.operations
  responses : v'.responses = v.responses
  completions : v'.completions = v.completions
  verdict : v'.verdict = v.verdict
  fate : v'.fate = v.fate
  handed : ∃ more, v'.handed = v.handed ++ more ∧ v'.added = v.added ++ more

/-- What happens to nobody changes nothing. -/
theorem View.Later.refl (v : View) : v.Later v := ⟨rfl, rfl, rfl, rfl, rfl, [], by simp⟩

/-- What can still change twice can still change. -/
theorem View.Later.trans {v'' : View} (h : v.Later v') (h' : v'.Later v'') : v.Later v'' := by
  obtain ⟨more, hhanded, hadded⟩ := h.handed
  obtain ⟨more', hhanded', hadded'⟩ := h'.handed
  refine ⟨h'.operations.trans h.operations, h'.responses.trans h.responses,
    h'.completions.trans h.completions, h'.verdict.trans h.verdict, h'.fate.trans h.fate,
    more ++ more', ?_, ?_⟩
  · rw [hhanded', hhanded, List.append_assoc]
  · rw [hadded', hadded, List.append_assoc]

/-- **No step does anything to a task whose response has been sent.** -/
theorem Step.later (hstep : Step respond t e v v') (hplaced : v.Placed) (h : v.Settled) :
    v'.Settled ∧ v.Later v' := by
  obtain ⟨⟨k, htask, hfinished, hsender⟩, hlive, hrunning, hfinishing, hdisposals⟩ := h
  cases hstep with
  | create hnone => cases (hnone.symm.trans htask)
  | accept =>
    exact ⟨⟨⟨k, htask, hfinished, hsender⟩, hlive, hrunning, hfinishing, hdisposals⟩,
      ⟨rfl, rfl, rfl, rfl, rfl, [], by simp⟩⟩
  | @refuse _ l hshows =>
    obtain rfl : l.task = k := Option.some.inj (hshows.task.symm.trans htask)
    have hrefusal : refusal t l = HandlerTask.setWorld l (HandlerTask.removeLive t l.world) := by
      simp [refusal, send, hsender]
    rw [hrefusal]
    refine ⟨⟨⟨l.task, rfl, hfinished, hsender⟩, ?_, hrunning, hfinishing, hdisposals⟩,
      ⟨hshows.operations.symm, hshows.responses.symm, rfl, ?_, rfl, [], ?_⟩⟩
    · simp [View.put, HandlerTask.removeLive]
    · simp [View.verdict, View.put, htask]
    · simp [View.put]
  | @run _ l faults finishedFuture _ hidle _ hshows hcancelled =>
    obtain rfl : l.task = k := Option.some.inj (hshows.task.symm.trans htask)
    have hsame : HandlerTask.call faults t finishedFuture l = l := by
      simp [HandlerTask.call, hfinished]
    rw [hsame, hshows]
    refine ⟨⟨⟨l.task, htask, hfinished, hsender⟩, hlive, ?_, hfinishing, hdisposals⟩,
      ⟨rfl, rfl, rfl, rfl, rfl, [], by simp⟩⟩
    simp [hplaced.idle hidle _ htask]
  | runCancelled _ _ _ htask' hcancelled =>
    obtain rfl := Option.some.inj (htask'.symm.trans htask)
    simp [cancelledUnstarted, hfinished] at hcancelled
  | resume _ hrun => cases (hrunning.symm.trans hrun)
  | resumeEnding _ hrun => cases (hrunning.symm.trans hrun)
  | finish _ hstage => cases (hfinishing.symm.trans hstage)
  | finishLast _ hstage => cases (hfinishing.symm.trans hstage)
  | endLoop =>
    exact ⟨⟨⟨k, htask, hfinished, hsender⟩, hlive, hrunning, hfinishing, hdisposals⟩,
      ⟨rfl, rfl, rfl, rfl, rfl, [], by simp⟩⟩
  | drain _ hlive' => cases (hlive.symm.trans hlive')
  | dispose hc => cases ((hdisposals _).symm.trans hc)
  | disposeUnbuilt hc => cases ((hdisposals _).symm.trans hc)
  | closed hc => cases ((hdisposals _).symm.trans hc)
  | disposeFinish hc => cases ((hdisposals _).symm.trans hc)
  | @call _ l l' _ hshows hquiet =>
    obtain rfl : l.task = k := Option.some.inj (hshows.task.symm.trans htask)
    have hlive' : (v.put t l').live = false := by
      rw [← hlive, hshows.live, ← hquiet.shared]
      rfl
    refine ⟨⟨⟨l'.task, rfl, hquiet.finished.trans hfinished, hquiet.sender.trans hsender⟩, hlive',
      hrunning, hfinishing, hdisposals⟩, ⟨?_, ?_, rfl, ?_, rfl, [], by simp [View.put]⟩⟩
    · exact hquiet.operations.trans hshows.operations.symm
    · exact View.put_responses hshows (congrArg LoopHandles.responses hquiet.shared)
    · simp [View.verdict, View.put, htask, hquiet.verdict]
  | @addDoneCallback _ k' callback context htask' =>
    obtain rfl := Option.some.inj (htask'.symm.trans htask)
    simp only [if_pos hfinished]
    refine ⟨⟨⟨k', rfl, hfinished, hsender⟩, hlive, hrunning, hfinishing, hdisposals⟩,
      ⟨rfl, rfl, rfl, ?_, rfl, [(callback, context)], rfl, rfl⟩⟩
    simp [View.verdict, htask]
  | @removeDoneCallback _ k' callback htask' =>
    obtain rfl := Option.some.inj (htask'.symm.trans htask)
    simp only [if_pos hfinished]
    refine ⟨⟨⟨HandlerTask.removeDoneCallback callback k', rfl, hfinished, hsender⟩, hlive,
      hrunning, hfinishing, hdisposals⟩, ⟨rfl, rfl, rfl, ?_, rfl, [], by simp⟩⟩
    simp only [View.verdict, htask, Option.map_some]
    rfl
  | @finishAgain _ l faults response completion hshows =>
    obtain rfl : l.task = k := Option.some.inj (hshows.task.symm.trans htask)
    rw [finish_of_sent hfinished hsender, hshows]
    exact ⟨⟨⟨l.task, htask, hfinished, hsender⟩, hlive, hrunning, hfinishing, hdisposals⟩,
      .refl _⟩

/-- Once the response has been sent nothing is left to do. -/
theorem View.Course.settled (h : v.Course) (haccepted : v.schedule ≠ .refused)
    (hsent : v.responses ≠ []) (htask : v.task ≠ none) : v.Settled := by
  cases h with
  | absent hnone => exact absurd hnone htask
  | refused hrefused => exact absurd hrefused haccepted
  | opened _ hopen => exact absurd hopen.responses hsent
  | @closed k rest htask' hclosed hworks hrunning hdisposals =>
    obtain rfl := hclosed.rest_eq_none hsent
    have hfinishing : v.finishing = none := by
      by_contra hne
      obtain ⟨⟨stage, entered⟩, hstage⟩ := Option.ne_none_iff_exists'.mp hne
      cases ((hworks stage).mp (.inl ⟨entered, hstage⟩))
    refine ⟨⟨k, htask', hclosed.finished, hclosed.sender⟩, hclosed.live rfl, ?_, hfinishing,
      fun c => ?_⟩
    · by_contra hrun
      exact hrunning (by simpa using hrun) hfinishing
    · cases hc : v.disposals c with
      | none => rfl
      | waiting => exact absurd hc (hdisposals c).1
      | closing => exact absurd hc (hdisposals c).2
      | finishing stage => cases ((hworks stage).mp (.inr ⟨c, hc⟩))

/-- It is one response. -/
theorem View.Course.sent (h : v.Course) (haccepted : v.schedule ≠ .refused)
    (hsent : v.responses ≠ []) (htask : v.task ≠ none) :
    ∃ response, v.responses = [response] := by
  cases h with
  | absent hnone => exact absurd hnone htask
  | refused hrefused => exact absurd hrefused haccepted
  | opened _ hopen => exact absurd hopen.responses hsent
  | closed rest _ hclosed =>
    obtain rfl := hclosed.rest_eq_none hsent
    exact List.length_eq_one_iff.mp hclosed.responses

variable {s s' : Lifecycle}

/-- A run that disposes after the end of the loop spares every task. -/
theorem spares_of_disposesAfterEnd (h : disposesAfterEnd s e = true) (t : TaskId) :
    (view s t).Spares e := by
  rintro c order rfl -
  exact h

/-- What every task shows in a run whose tasks are disposed of after the end of the loop
thread. -/
theorem course (hreach : (system respond).ReachesUnder (fun s e => disposesAfterEnd s e = true) s)
    (t : TaskId) : Sound s ∧ (view s t).Orderly ∧ (view s t).Course := by
  refine view_invariant (I := fun v => v.Orderly ∧ v.Course) (fun e v => v.Spares e) hreach t
    (fun s e hallowed => spares_of_disposesAfterEnd hallowed t) ?_ ?_
  · exact ⟨⟨fun c hc => absurd rfl hc, by rintro ⟨⟩⟩, .absent rfl⟩
  · intro e v v' hplaced h hpermitted hstep
    exact ⟨hstep.orderly h.1 hpermitted, hstep.course hplaced h.1 hpermitted h.2⟩

/-- A task whose response has been sent stays as it is, whatever happens later. -/
theorem later_of_settled (hsound : Sound s) (hsettled : (view s t).Settled)
    (hlater : ((system respond).startingAt s).Reaches s') :
    Sound s' ∧ (view s' t).Settled ∧ (view s t).Later (view s' t) := by
  refine hlater.invariant (I := fun s' => Sound s' ∧ (view s' t).Settled ∧
    (view s t).Later (view s' t)) ?_ ?_
  · rintro s' rfl
    exact ⟨hsound, hsettled, .refl _⟩
  · rintro s' e ⟨hsound', hsettled', hsame⟩ henabled
    refine ⟨hsound'.effect henabled, ?_⟩
    rcases progress hsound'.tidy henabled t with hstep | hnothing
    · obtain ⟨hsettled'', hsame'⟩ := hstep.later (hsound'.placed t) hsettled'
      exact ⟨hsettled'', hsame.trans hsame'⟩
    · exact hnothing ▸ ⟨hsettled', hsame⟩

/-- What the accessors of the task report, if there is one. -/
def reportOf (s : Lifecycle) (t : TaskId) (pyNone : Value) :
    Option (Bool × Bool × Except TaskState.AccessorError Value ×
      Except TaskState.AccessorError (Option Exception)) :=
  (s.loop.tasks t).map (·.state.report pyNone)

/-- What a task reports depends on its verdict alone. -/
theorem reportOf_congr {pyNone : Value} (h : (view s' t).verdict = (view s t).verdict) :
    s'.reportOf t pyNone = s.reportOf t pyNone := by
  simp only [View.verdict, view] at h
  unfold reportOf
  cases hk : s.loop.tasks t with
  | none =>
    rw [hk, Option.map_none, Option.map_eq_none_iff] at h
    rw [h]
  | some k =>
    rw [hk, Option.map_some, Option.map_eq_some_iff] at h
    obtain ⟨k', hk', hverdict⟩ := h
    rw [hk', Option.map_some, Option.map_some, TaskState.report_congr hverdict]

/-- **Completion is final and ordered.** -/
theorem completion_is_final_and_ordered (respond : Value → HandlerResponse) {s : Lifecycle}
    {t : TaskId}
    (hreach : (system respond).ReachesUnder (fun s e => disposesAfterEnd s e = true) s)
    (haccepted : s.schedules t = .accepted) :
    (view s t).completions.length ≤ 1 ∧
    (∀ e, enabled respond s e = true → disposesAfterEnd s e = true →
      (effect respond s e).responsesOf t ≠ s.responsesOf t →
        (view s t).Released ∧ s.responsesOf t = [] ∧
          ∃ response, (effect respond s e).responsesOf t = [response]) ∧
    (s.responsesOf t ≠ [] → ∀ s', ((system respond).startingAt s).Reaches s' →
      (view s t).Later (view s' t) ∧ ∀ pyNone, s'.reportOf t pyNone = s.reportOf t pyNone) := by
  obtain ⟨hsound, horderly, hcourse⟩ := course hreach t
  have htask := (hsound.placed t).task_of_schedule (by simp [view, haccepted])
  have hrefused : (view s t).schedule ≠ .refused := by simp [view, haccepted]
  refine ⟨?_, fun e henabled hallowed hsent => ?_, fun hsent s' hlater => ?_⟩
  · cases hcourse with
    | absent hnone => simp [hnone] at htask
    | refused h => exact absurd h hrefused
    | opened _ hopen =>
      have hnone : (view s t).completions = [] := hopen.completions
      simp [hnone]
    | closed _ _ hclosed =>
      obtain ⟨completion, hcompletions, -⟩ := hclosed.recorded
      have hone : (view s t).completions = [completion] := hcompletions
      simp [hone]
  · have hcourse' := (course (hreach.step hallowed henabled) t).2.2
    rcases progress hsound.tidy henabled t with hstep | hnothing
    · have hschedule := hstep.schedule (.inl haccepted)
      have haccepted' : (view (effect respond s e) t).schedule ≠ .refused := by
        rw [hschedule]
        exact hrefused
      obtain ⟨hreleased, hbefore⟩ := hstep.delivers hcourse haccepted' hsent
      have hidle : (view (effect respond s e) t).schedule ≠ .idle := by
        rw [hschedule]
        simp [view, haccepted]
      have htask' := ((hsound.effect henabled).placed t).task_of_schedule hidle
      refine ⟨hreleased, hbefore, hcourse'.sent haccepted' (fun h => ?_) ?_⟩
      · exact hsent (h.trans hbefore.symm)
      · exact Option.isSome_iff_ne_none.mp htask'
    · exact absurd (congrArg View.responses hnothing) hsent
  · have hsettled := hcourse.settled hrefused hsent (Option.isSome_iff_ne_none.mp htask)
    obtain ⟨-, -, hsame⟩ := later_of_settled hsound hsettled hlater
    exact ⟨hsame, fun pyNone => reportOf_congr hsame.verdict⟩

/-- A task whose coroutine has returned is completed once. -/
theorem completion_is_final_and_ordered_returning : ∃ s,
    (system fun _ => .noContent).ReachesUnder (fun s e => disposesAfterEnd s e = true) s ∧
    s.responsesOf 0 = [(0, .noContent)] ∧ (view s 0).completions.length ≤ 1 := by
  have hexec : (((system fun _ => .noContent).restrict disposesAfterEnd).exec
      (fresh unawaited) (startOfHandler .none ++ .resume .none (.returned 7) :: wholeFinish)).map
        (fun s => decide (s.schedules 0 = .accepted ∧ s.responsesOf 0 = [(0, .noContent)])) =
      some true := by decide
  obtain ⟨s, hs, hend⟩ := Transition.System.exists_reachesUnder_of_exec
    (Fresh.fresh _ fun _ => rfl) hexec
  obtain ⟨haccepted, hresponse⟩ := of_decide_eq_true hend
  exact ⟨s, hs, hresponse, (completion_is_final_and_ordered _ hs haccepted).1⟩

/-- A `finish` during which `unregister_task` raises. -/
def failingUnregister : List Event :=
  startOfHandler .none ++ .resume .none (.returned 7) ::
    List.replicate 7 (.finish { Faults.none with unregisterTask := true })

/-- The error is printed, and the response is sent while asyncio still has the task. -/
theorem released_while_registered : ∃ s,
    (system fun _ => .noContent).ReachesUnder (fun s e => disposesAfterEnd s e = true) s ∧
    s.schedules 0 = .accepted ∧ s.responsesOf 0 = [(0, .noContent)] ∧ 0 ∈ s.registered := by
  have hexec : (((system fun _ => .noContent).restrict disposesAfterEnd).exec
      (fresh unawaited) failingUnregister).map (fun s => decide (s.schedules 0 = .accepted ∧
        s.responsesOf 0 = [(0, .noContent)] ∧ 0 ∈ s.registered)) = some true := by decide
  obtain ⟨s, hs, hend⟩ := Transition.System.exists_reachesUnder_of_exec
    (Fresh.fresh _ fun _ => rfl) hexec
  exact ⟨s, hs, of_decide_eq_true hend⟩

end Rayo.Lifecycle
