import Rayo.Task.CoroutineFate

/-!
# The response of a request

What a handler comes to decides the response of its request: a returned value is converted, and
everything else is answered with the opaque 500. This holds of every accepted request that no
`stop` call takes while the loop thread runs.
-/

namespace Rayo.Lifecycle

open Asyncio HandlerTask

/-- The response for what has become of the coroutine of a task. -/
def answer (respond : Value → HandlerResponse) : Fate → HandlerResponse
  | .returned value => respond value
  | _ => .internalError

/-- The responses on the channel, and the one that a `finish` is about to send, are the response
for what has become of the coroutine. -/
structure View.Answers (respond : Value → HandlerResponse) (v : View) : Prop where
  works : ∀ stage, v.Works stage → stage.response = answer respond v.fate
  sent : ∀ r ∈ v.responses, r.2 = answer respond v.fate

variable {respond : Value → HandlerResponse} {t : TaskId} {e : Event} {v v' : View}
  {k : HandlerTask} {l : Local} {faults : Faults} {stage : FinishStage}

/-- How a turn ends decides the response. -/
theorem response_of_ending {phase : Phase} {input : Input} {ending : TurnEnding}
    (h : endingOfInput respond phase input = some ending) :
    ending.response = answer respond (Fate.ofInput input) := by
  cases phase <;> cases input <;> simp only [endingOfInput, reduceCtorEq] at h <;>
    (cases h; rfl)

/-- The stages of a `finish` are all on the way to the same response. -/
theorem advance_response {next : FinishStage} (h : (stage.advance faults t l).2 = some next) :
    next.response = stage.response := by
  rcases stage with _ | _ | _ | ⟨_, _ | _⟩ | _ | _ | _ <;> dsimp only [FinishStage.advance] at h
  case record =>
    split at h <;> cases h <;> rfl
  case take =>
    split at h
    · cases h
      rfl
    · cases h
  case deliver => cases h
  all_goals (cases h; rfl)

/-- A stage sends the response that it is on the way to, or none. -/
theorem mem_advance_responses {r : TaskId × HandlerResponse}
    (h : r ∈ (stage.advance faults t l).1.world.shared.responses) :
    r ∈ l.world.shared.responses ∨ r = (t, stage.response) := by
  by_cases hdeliver : ∃ response, stage = .deliver response
  · obtain ⟨response, rfl⟩ := hdeliver
    exact (List.mem_cons.mp h).symm
  · rw [advance_responses fun response hstage => hdeliver ⟨response, hstage⟩] at h
    exact .inl h

/-- Nothing has been sent for a task that is not finished. -/
theorem View.Course.unsent (h : v.Course) (haccepted : v.schedule ≠ .refused)
    (htask : v.task = some k) (hopen : k.state.finished = false) : v.responses = [] := by
  cases h with
  | absent hnone => cases (hnone.symm.trans htask)
  | refused hrefused => exact absurd hrefused haccepted
  | opened _ hledger => exact hledger.responses
  | closed rest htask' hclosed =>
    obtain rfl := Option.some.inj (htask'.symm.trans htask)
    cases (hopen.symm.trans hclosed.finished)

/-- Nothing of the response is decided by what goes on here. -/
theorem View.Answers.congr (h : v.Answers respond) (hworks : ∀ stage, v'.Works stage → v.Works stage)
    (hresponses : v'.responses = v.responses) (hfate : v'.fate = v.fate) : v'.Answers respond := by
  constructor
  · intro stage hstage
    rw [hfate]
    exact h.works stage (hworks stage hstage)
  · rw [hresponses, hfate]
    exact h.sent

/-- Where a `finish` begins, nothing has been sent. -/
theorem View.Answers.begin (hworks : ∀ stage, v'.Works stage →
    stage.response = answer respond v'.fate) (hunsent : v'.responses = []) : v'.Answers respond := by
  refine ⟨hworks, ?_⟩
  rw [hunsent]
  rintro r ⟨⟩

/-- No `finish` is under way. -/
theorem View.Orderly.no_work (h : v.Orderly) (hended : v.ended = false) (hnone : v.finishing = none)
    (stage : FinishStage) : ¬v.Works stage := by
  rw [h.works_iff hended]
  rintro ⟨entered, hfinishing⟩
  cases (hnone.symm.trans hfinishing)

/-- A task whose code is running is not finished. -/
theorem View.Kept.unfinished_of_running (h : v.Kept) (horderly : v.Orderly)
    (hended : v.ended = false) (hrunning : v.running = true) (hnone : v.finishing = none)
    (htask : v.task = some k) : k.state.finished = false := by
  cases h with
  | absent habsent => cases (habsent.symm.trans htask)
  | going htask' hopen =>
    obtain rfl := Option.some.inj (htask'.symm.trans htask)
    exact hopen
  | ending _ _ hwork => exact absurd hwork (horderly.no_work hended hnone _)
  | finished _ _ hrests => exact absurd hnone (hrests hrunning)

/-- A task that a `stop` call is about to dispose of is not finished, and its coroutine is not
over. -/
theorem View.Kept.going_of_disposal (h : v.Kept) (hplaced : v.Placed) (horderly : v.Orderly)
    (hcourse : v.Course) (haccepted : v.schedule ≠ .refused) {c : StopId}
    (hc : v.disposals c = .waiting ∨ v.disposals c = .closing) (htask : v.task = some k) :
    k.state.finished = false ∧ (∀ stage, ¬v.Works stage) ∧ Fits k v.fate := by
  have hsome : v.disposals c ≠ .none := by
    rcases hc with hc | hc <;> simp [hc]
  cases h with
  | absent habsent => cases (habsent.symm.trans htask)
  | going htask' hopen hworks hfits =>
    obtain rfl := Option.some.inj (htask'.symm.trans htask)
    exact ⟨hopen, hworks, hfits⟩
  | ending _ _ hwork =>
    rcases hwork with ⟨entered, hfinishing⟩ | ⟨c', hc'⟩
    · have hnone := horderly.finishing hplaced (horderly.disposal c hsome)
      cases (hnone.symm.trans hfinishing)
    · obtain rfl := hplaced.single c c' hsome (by simp [hc'])
      rcases hc with hc | hc <;> cases (hc.symm.trans hc')
  | finished htask' hfinished =>
    cases hcourse with
    | absent habsent => cases (habsent.symm.trans htask)
    | refused hrefused => exact absurd hrefused haccepted
    | opened hopened hledger =>
      obtain rfl := Option.some.inj (hopened.symm.trans htask')
      cases (hledger.unfinished.symm.trans hfinished)
    | closed _ _ _ _ _ hdisposals =>
      rcases hc with hc | hc
      · exact absurd hc (hdisposals c).1
      · exact absurd hc (hdisposals c).2

/-- A stage leaves the places where a `finish` is under way. -/
theorem View.works_remember {l' : Local} {stage' : FinishStage} :
    ((v.put t l').remember faults k stage).Works stage' ↔ v.Works stage' := by
  simp only [View.Works, View.remember_finishing, View.remember_disposals]
  rfl

/-- What a stage sends is the response that the coroutine has decided. -/
theorem View.Answers.advance {l' : Local} (h : v.Answers respond) (hshows : v.Shows t l)
    (hworks : v.Works stage)
    (hresponses : l'.world.shared.responses =
      (stage.advance faults t l).1.world.shared.responses) :
    ∀ r ∈ ((v.put t l').remember faults l.task stage).responses, r.2 = answer respond v.fate := by
  intro r hr
  rw [View.remember_responses] at hr
  simp only [View.put, hresponses, List.mem_filter] at hr
  rcases mem_advance_responses hr.1 with hbefore | rfl
  · refine h.sent r ?_
    rw [hshows.responses]
    exact List.mem_filter.mpr ⟨hbefore, hr.2⟩
  · exact h.works stage hworks

/-- **Every step keeps the response that the coroutine has decided.** -/
theorem Step.answers (hstep : Step respond t e v v') (hplaced : v.Placed) (horderly : v.Orderly)
    (hcourse : v.Course) (hkept : v.Kept) (haccepted : v'.schedule ≠ .refused)
    (h : v.Answers respond) : v'.Answers respond := by
  have hbefore : v.schedule ≠ .refused := fun h =>
    haccepted ((hstep.schedule (.inr h)).trans h)
  cases hstep with
  | create hnone => exact h.congr (fun _ hworks => hworks) rfl rfl
  | accept => exact h.congr (fun _ hworks => hworks) rfl rfl
  | refuse => exact absurd rfl haccepted
  | @run _ l faults finishedFuture _ _ _ hshows hcancelled =>
    have hcall : Undecided t l (HandlerTask.call faults t finishedFuture l) := .call hcancelled
    exact h.congr (fun _ hworks => hworks)
      (View.put_responses hshows (congrArg LoopHandles.responses hcall.shared)) rfl
  | @runCancelled _ k faults hended _ hnone htask hcancelled =>
    have hopen : k.state.finished = false := by
      simp only [cancelledUnstarted, Bool.and_eq_true, Bool.not_eq_true'] at hcancelled
      exact hcancelled.1.1
    refine .begin ?_ (hcourse.unsent hbefore htask hopen)
    rintro stage (⟨entered, hstage⟩ | hdisposal)
    · cases hstage
      rfl
    · exact absurd (.inr hdisposal) (horderly.no_work hended hnone stage)
  | @resume _ l faults input hended hrunning hnone hshows haccepts hending =>
    have hresume : Undecided t l (HandlerTask.resume respond faults t input l) := .resume hending
    have hopen := hkept.unfinished_of_running horderly hended hrunning hnone hshows.task
    refine .begin (fun stage hworks => ?_) ?_
    · exact absurd hworks (horderly.no_work hended hnone stage)
    · exact (View.put_responses hshows (congrArg LoopHandles.responses hresume.shared)).trans
        (hcourse.unsent hbefore hshows.task hopen)
  | resumeEnding hended hrunning hnone htask hending =>
    have hopen := hkept.unfinished_of_running horderly hended hrunning hnone htask
    refine .begin ?_ (hcourse.unsent hbefore htask hopen)
    rintro stage (⟨entered, hstage⟩ | hdisposal)
    · cases hstage
      exact response_of_ending hending
    · exact absurd (.inr hdisposal) (horderly.no_work hended hnone stage)
  | endLoop => exact h.congr (fun _ hworks => hworks) rfl rfl
  | @finish _ l faults stage next entered _ hfinishing hshows hnext =>
    have hfate : ((v.put t (stage.advance faults t l).1).remember faults l.task stage).fate =
        v.fate := View.remember_fate ..
    refine ⟨?_, fun r hr => ?_⟩
    · rintro stage' (⟨entered', hstage⟩ | hdisposal)
      · cases hstage
        rw [advance_response hnext]
        exact (h.works stage (.inl ⟨entered, hfinishing⟩)).trans (congrArg _ hfate.symm)
      · have hstill := View.works_remember.mp (.inr hdisposal)
        exact (h.works stage' hstill).trans (congrArg _ hfate.symm)
    · exact (h.advance hshows (.inl ⟨entered, hfinishing⟩) rfl r hr).trans (congrArg _ hfate.symm)
  | @finishLast _ l faults stage entered _ hfinishing hshows =>
    have hturn := (Undecided.endTurn (t := t) faults entered (stage.advance faults t l).1).shared
    have hfate : ((v.put t (endTurn faults entered (stage.advance faults t l).1)).remember faults
        l.task stage).fate = v.fate := View.remember_fate ..
    refine ⟨?_, fun r hr => ?_⟩
    · rintro stage' (⟨entered', hstage⟩ | hdisposal)
      · cases hstage
      · have hstill := View.works_remember.mp (.inr hdisposal)
        exact (h.works stage' hstill).trans (congrArg _ hfate.symm)
    · exact (h.advance hshows (.inl ⟨entered, hfinishing⟩) (congrArg LoopHandles.responses hturn)
        r hr).trans (congrArg _ hfate.symm)
  | drain =>
    exact h.congr (fun stage hworks => (View.works_setDisposal hworks).resolve_right (by rintro ⟨⟩))
      rfl rfl
  | dispose =>
    exact h.congr (fun stage hworks => (View.works_setDisposal hworks).resolve_right (by rintro ⟨⟩))
      rfl rfl
  | @disposeUnbuilt _ c k hwaiting htask hunbuilt =>
    obtain ⟨hopen, hworks, hfits⟩ :=
      hkept.going_of_disposal hplaced horderly hcourse hbefore (.inl hwaiting) htask
    have hended := horderly.disposal c (by simp [hwaiting])
    have hidle := hplaced.idle (horderly.ended hended) _ htask
    have hfate : v.fate = .unbuilt := by simpa [Fits, hidle, hunbuilt] using hfits
    refine .begin (fun stage hstage => ?_) (hcourse.unsent hbefore htask hopen)
    rcases View.works_setDisposal hstage with hstage | hstage
    · exact absurd hstage (hworks stage)
    · cases hstage
      simp only [View.setDisposal, hfate]
      rfl
  | @closed _ c hclosing =>
    obtain ⟨k, htask⟩ := Option.isSome_iff_exists.mp
      (hplaced.task_of_disposal (c := c) (by simp [hclosing]))
    obtain ⟨hopen, hworks, hfits⟩ :=
      hkept.going_of_disposal hplaced horderly hcourse hbefore (.inr hclosing) htask
    have hended := horderly.disposal c (by simp [hclosing])
    have hidle := hplaced.idle (horderly.ended hended) _ htask
    have hanswer : answer respond v.fate.close = .internalError := by
      simp only [Fits, hidle] at hfits
      rw [hfits]
      split <;> rfl
    refine .begin (fun stage hstage => ?_) (hcourse.unsent hbefore htask hopen)
    rcases View.works_setDisposal hstage with hstage | hstage
    · exact absurd hstage (hworks stage)
    · cases hstage
      exact hanswer.symm
  | @disposeFinish _ l faults c stage hdisposal hshows =>
    have hfate : ((v.put t (stage.advance faults t l).1).remember faults l.task stage).fate =
        v.fate := View.remember_fate ..
    refine ⟨fun stage' hstage => ?_, fun r hr => ?_⟩
    · refine Eq.trans ?_ (congrArg _ hfate.symm)
      rcases View.works_setDisposal hstage with hstage | hstage
      · exact h.works stage' (View.works_remember.mp hstage)
      · cases hnext : (stage.advance faults t l).2 with
        | none => simp [hnext] at hstage
        | some next =>
          obtain rfl : next = stage' := by simpa [hnext] using hstage
          rw [advance_response hnext]
          exact h.works stage (.inr ⟨c, hdisposal⟩)
    · exact (h.advance hshows (.inr ⟨c, hdisposal⟩) rfl r hr).trans (congrArg _ hfate.symm)
  | call hshows hquiet =>
    exact h.congr (fun _ hworks => hworks)
      (View.put_responses hshows (congrArg LoopHandles.responses hquiet.shared)) rfl
  | addDoneCallback => exact h.congr (fun _ hworks => hworks) rfl rfl
  | removeDoneCallback => exact h.congr (fun _ hworks => hworks) rfl rfl
  | @finishAgain _ l faults response completion hshows hfinished hsent =>
    cases hcourse with
    | absent hnone => cases (hnone.symm.trans hshows.task)
    | refused hrefused => exact absurd hrefused hbefore
    | opened _ hopen => exact absurd hopen.responses hsent
    | closed rest htask hclosed =>
      obtain rfl := Option.some.inj (hshows.task.symm.trans htask)
      obtain rfl := hclosed.rest_eq_none hsent
      rw [finish_of_sent hfinished hclosed.sender, hshows]
      exact h

/-- No `stop` call takes the task `t` while the loop thread runs. -/
def sparesTask (t : TaskId) (s : Lifecycle) : Event → Bool
  | .drain .. => s.ended || t ∉ s.live
  | _ => true

variable {s : Lifecycle}

/-- On every run that spares a task it is on its way to an answer. -/
theorem answers (hreach : (system respond).ReachesUnder (fun s e => sparesTask t s e = true) s) :
    Sound s ∧ (view s t).Orderly ∧ (view s t).Course ∧ (view s t).Kept ∧
      (s.schedules t ≠ .refused → (view s t).Answers respond) := by
  refine view_invariant
    (I := fun v => v.Orderly ∧ v.Course ∧ v.Kept ∧ (v.schedule ≠ .refused → v.Answers respond))
    (fun e v => v.Spares e) hreach t ?_ ?_ ?_
  · rintro s e hallowed c order rfl hlive
    have hmem : t ∈ s.live := of_decide_eq_true hlive
    have hended : s.ended = true := by simpa [sparesTask, hmem] using hallowed
    exact hended
  · refine ⟨⟨fun c hc => absurd rfl hc, by rintro ⟨⟩⟩, .absent rfl, .absent rfl, fun _ => ⟨?_, ?_⟩⟩
    · rintro stage (⟨entered, hstage⟩ | ⟨c, hc⟩)
      · cases hstage
      · cases hc
    · rintro r ⟨⟩
  · rintro e v v' hplaced ⟨horderly, hcourse, hkept, hanswers⟩ hpermitted hstep
    refine ⟨hstep.orderly horderly hpermitted, hstep.course hplaced horderly hpermitted hcourse,
      hstep.kept hplaced horderly hkept, fun haccepted => ?_⟩
    have hbefore : v.schedule ≠ .refused := fun h =>
      haccepted ((hstep.schedule (.inr h)).trans h)
    exact hstep.answers hplaced horderly hcourse hkept haccepted (hanswers hbefore)

/-- **What the coroutine of an accepted request has come to decides its response.** -/
theorem response_eq_answer
    (hreach : (system respond).ReachesUnder (fun s e => sparesTask t s e = true) s)
    (haccepted : s.schedules t ≠ .refused) {response : HandlerResponse}
    (hsent : (t, response) ∈ s.responsesOf t) : response = answer respond (s.fate t) := by
  obtain ⟨-, -, -, -, hanswers⟩ := answers hreach
  exact (hanswers haccepted).sent _ hsent

/-- A coroutine that is over has had its request answered, or a `finish` is under way. -/
theorem View.Kept.sent (h : v.Kept) (hplaced : v.Placed) (hcourse : v.Course)
    (haccepted : v.schedule ≠ .refused) (hworks : ∀ stage, ¬v.Works stage)
    (halive : v.fate ≠ .alive) (hbuilt : v.fate ≠ .unbuilt) :
    ∃ response, v.responses = [response] := by
  cases h with
  | absent hnone => exact absurd (congrArg View.fate (hplaced.blank hnone)) hbuilt
  | @going k _ _ _ hfits =>
    exfalso
    cases hphase : k.phase <;> simp only [Fits, hphase] at hfits
    case idle =>
      split at hfits
      · exact halive hfits
      · exact hbuilt hfits
    case building => exact hbuilt hfits.2
    case stepping => exact halive hfits.2
    case closing => exact halive hfits
  | ending _ _ hwork => exact absurd hwork (hworks _)
  | finished htask hfinished =>
    cases hcourse with
    | absent hnone => cases (hnone.symm.trans htask)
    | refused hrefused => exact absurd hrefused haccepted
    | opened htask' hopen =>
      obtain rfl := Option.some.inj (htask.symm.trans htask')
      cases (hopen.unfinished.symm.trans hfinished)
    | closed rest _ hclosed hstages =>
      obtain rfl : rest = none := by
        by_contra hne
        obtain ⟨stage, hstage⟩ := Option.ne_none_iff_exists'.mp hne
        exact hworks stage ((hstages stage).mpr hstage)
      exact List.length_eq_one_iff.mp hclosed.responses

/-- How many stages of a `finish` are left, where the task has so many done callbacks. -/
def stagesLeft (callbacks : ℕ) : FinishStage → ℕ
  | .record .. => callbacks + 7
  | .removeLive _ _ taken => taken.length + 6
  | .unregister _ _ taken => taken.length + 5
  | .fire _ taken => taken.length + 4
  | .take _ => 3
  | .decrement _ => 2
  | .deliver _ => 1

/-- Each stage of `finish` leaves fewer of them. -/
theorem stagesLeft_advance {next : FinishStage} (callbacks : ℕ)
    (h : (stage.advance faults t l).2 = some next) :
    stagesLeft callbacks next < stagesLeft l.task.state.doneCallbacks.length stage := by
  rcases stage with _ | _ | _ | ⟨_, _ | _⟩ | _ | _ | _ <;> dsimp only [FinishStage.advance] at h
  case record =>
    split at h <;> cases h <;> simp only [stagesLeft] <;> omega
  case take =>
    split at h
    · cases h
      simp only [stagesLeft]
      omega
    · cases h
  case deliver => cases h
  all_goals (cases h; simp only [stagesLeft, List.length_cons, List.length_nil]; omega)

/-- How many stages of the `finish` on the loop thread are left. -/
def finishLeft (s : Lifecycle) : ℕ :=
  match s.finishing with
  | none => 0
  | some (t, stage, _) =>
    stagesLeft ((s.loop.tasks t).elim 0 fun k => k.state.doneCallbacks.length) stage

/-- A stage brings the `finish` closer to its end. -/
theorem finish_left (respond : Value → HandlerResponse) {entered : Bool} (hsound : Sound s)
    (hfinishing : s.finishing = some (t, stage, entered)) :
    (effect respond s (.finish .none)).ended = s.ended ∧
    (effect respond s (.finish .none)).fate = s.fate ∧
    (effect respond s (.finish .none)).schedules = s.schedules ∧
    finishLeft (effect respond s (.finish .none)) < finishLeft s := by
  obtain ⟨k, hk⟩ := Option.isSome_iff_exists.mp (hsound.tidy.finishing t stage entered hfinishing).2
  obtain ⟨loop, completions, handed, errors, hwork⟩ := work_eq s .none t stage
  have hnext : (s.work .none t stage).2 = (stage.advance .none t ⟨s.loop.world, k⟩).2 := by
    rw [work_of_task _ _ hk]
  cases hadvance : (stage.advance .none t ⟨s.loop.world, k⟩).2 with
  | none =>
    rw [hadvance] at hnext
    simp only [effect, hfinishing, hnext, hwork, true_and]
    simp only [finishLeft, hfinishing]
    cases stage <;> simp only [stagesLeft] <;> omega
  | some next =>
    rw [hadvance] at hnext
    simp only [effect, hfinishing, hnext, hwork, true_and]
    simp only [finishLeft, hfinishing, hk, Option.elim_some]
    exact stagesLeft_advance (l := ⟨s.loop.world, k⟩) _ hadvance

/-- **The loop thread brings every `finish` to its end.** -/
theorem exists_finished {allowed : Lifecycle → Event → Prop}
    (hallowed : ∀ s, allowed s (.finish .none))
    (hreach : (system respond).ReachesUnder allowed s) (hended : s.ended = false) :
    ∃ s', (system respond).ReachesUnder allowed s' ∧ s'.finishing = none ∧ s'.ended = false ∧
      s'.fate = s.fate ∧ s'.schedules = s.schedules := by
  induction hn : finishLeft s using Nat.strongRecOn generalizing s with
  | ind n ih =>
  cases hfinishing : s.finishing with
  | none => exact ⟨s, hreach, hfinishing, hended, rfl, rfl⟩
  | some finishing =>
    obtain ⟨t, stage, entered⟩ := finishing
    have hsound : Sound s := hreach.invariant (fun s hs => Fresh.sound hs)
      fun s e h _ henabled => h.effect henabled
    obtain ⟨hended', hfate, hschedules, hleft⟩ := finish_left respond hsound hfinishing
    have henabled : (system respond).enabled s (.finish .none) = true := by
      simp [system, enabled, hended, hfinishing]
    obtain ⟨s', hreach', hnone, hstill, hfate', hschedules'⟩ :=
      ih _ (hn ▸ hleft) (.step hreach (hallowed s) henabled) (hended'.trans hended) rfl
    exact ⟨s', hreach', hnone, hstill, hfate'.trans hfate, hschedules'.trans hschedules⟩

end Rayo.Lifecycle
