import Rayo.Task.Ledger

/-!
# The course of a completion

Where the tasks of a loop are disposed of only after its thread has ended, one `finish` at most is
under way for a task, and it goes through its stages in order.
-/

namespace Rayo.Lifecycle

open Asyncio HandlerTask

/-- The loop thread has ended before a `stop` call takes the live tasks. -/
def disposesAfterEnd (s : Lifecycle) : Event → Bool
  | .drain .. => s.ended
  | _ => true

namespace View

/-- What a view shows if tasks are disposed of only after the loop thread has ended. -/
structure Orderly (v : View) : Prop where
  disposal : ∀ c, v.disposals c ≠ .none → v.ended = true
  ended : v.ended = true → v.running = false

/-- A `finish` of the task is at this stage. -/
def Works (v : View) (stage : FinishStage) : Prop :=
  (∃ entered, v.finishing = some (stage, entered)) ∨ ∃ c, v.disposals c = .finishing stage

/-- No `stop` call takes the task while the loop thread runs. -/
def Spares (v : View) (e : Event) : Prop :=
  ∀ c order, e = .drain c order → v.live = true → v.ended = true

/-- `rest` is left of the one `finish` of a finished task. -/
structure Leaves (v : View) (rest : Option FinishStage) : Prop where
  works : ∀ stage, v.Works stage ↔ rest = some stage
  running : v.running = true → v.finishing ≠ none
  disposals : ∀ c, v.disposals c ≠ .waiting ∧ v.disposals c ≠ .closing

/-- How far the completion of a task is whose request was not refused. -/
inductive Course (v : View) : Prop
  | absent : v.task = none → Course v
  | refused : v.schedule = .refused → Course v
  | opened {k : HandlerTask} : v.task = some k → v.ledger.Open k →
    (∀ stage, v.Works stage → ∃ response completion, stage = .record response completion) →
    Course v
  | closed {k : HandlerTask} (rest : Option FinishStage) : v.task = some k →
    v.ledger.Closed k rest → (∀ stage, v.Works stage ↔ rest = some stage) →
    (v.running = true → v.finishing ≠ none) →
    (∀ c, v.disposals c ≠ .waiting ∧ v.disposals c ≠ .closing) → Course v

variable {v : View}

/-- Nothing is finished on a loop whose thread has ended in order. -/
theorem Orderly.finishing (h : v.Orderly) (hplaced : v.Placed) (hended : v.ended = true) :
    v.finishing = none := by
  by_contra hne
  have hrunning := hplaced.finishing hne
  simp [h.ended hended] at hrunning

/-- No stop call has drained a loop whose thread runs in order. -/
theorem Orderly.disposals (h : v.Orderly) (hended : v.ended = false) (c : StopId) :
    v.disposals c = .none := by
  by_contra hne
  simp [h.disposal c hne] at hended

/-- On a loop whose thread runs, only the thread finishes tasks. -/
theorem Orderly.works_iff (h : v.Orderly) (hended : v.ended = false) {stage : FinishStage} :
    v.Works stage ↔ ∃ entered, v.finishing = some (stage, entered) := by
  refine ⟨?_, .inl⟩
  rintro (hfinishing | ⟨c, hc⟩)
  · exact hfinishing
  · exact absurd hc (by simp [h.disposals hended c])

end View

variable {respond : Value → HandlerResponse} {t : TaskId} {e : Event} {v v' : View} {l l' : Local}

/-- While the loop thread runs no `stop` call has the task. -/
theorem View.Orderly.of_running (h : v.Orderly) (hended : v.ended = false)
    (hended' : v'.ended = v.ended) (hdisposals : v'.disposals = v.disposals) : v'.Orderly := by
  constructor
  · intro c hc
    exact absurd (hdisposals ▸ h.disposals hended c) hc
  · intro hended''
    cases (hended.symm.trans (hended'.symm.trans hended''))

/-- **One step** that spares a task keeps its bookkeeping in order. -/
theorem Step.orderly (hstep : Step respond t e v v') (h : v.Orderly)
    (hpermitted : v.Spares e) : v'.Orderly := by
  cases hstep with
  | run _ hended => exact h.of_running hended rfl rfl
  | runCancelled hended => exact h.of_running hended rfl rfl
  | resume hended => exact h.of_running hended rfl rfl
  | resumeEnding hended => exact h.of_running hended rfl rfl
  | finish hended =>
    exact h.of_running hended (View.remember_ended ..) (View.remember_disposals ..)
  | finishLast hended =>
    exact h.of_running hended (View.remember_ended ..) (View.remember_disposals ..)
  | endLoop hended hrunning => exact ⟨fun _ _ => rfl, fun _ => hrunning⟩
  | drain _ hlive => exact ⟨fun _ _ => hpermitted _ _ rfl hlive, h.ended⟩
  | dispose hc => exact ⟨fun _ _ => h.disposal _ (by rw [hc]; rintro ⟨⟩), h.ended⟩
  | disposeUnbuilt hc => exact ⟨fun _ _ => h.disposal _ (by rw [hc]; rintro ⟨⟩), h.ended⟩
  | closed hc => exact ⟨fun _ _ => h.disposal _ (by rw [hc]; rintro ⟨⟩), h.ended⟩
  | disposeFinish hc =>
    have hended := h.disposal _ (by rw [hc]; rintro ⟨⟩)
    constructor
    · exact fun _ _ => (View.remember_ended ..).trans hended
    · exact fun _ => (View.remember_running ..).trans (h.ended hended)
  | _ => exact ⟨h.disposal, h.ended⟩

variable {k : HandlerTask}

/-- A task that its one `finish` has left is on its course. -/
theorem View.Leaves.course {rest : Option FinishStage} (h : v.Leaves rest)
    (htask : v.task = some k) (hclosed : v.ledger.Closed k rest) : v.Course :=
  .closed rest htask hclosed h.works h.running h.disposals

/-- A `finish` on the loop thread gets further. -/
theorem View.leaves_finishing (h : v.Orderly) (hended : v.ended = false)
    (hended' : v'.ended = v.ended) (hdisposals : v'.disposals = v.disposals)
    (next : Option (FinishStage × Bool)) (hfinishing : v'.finishing = next)
    (hrunning : next = none → v'.running = false) : v'.Leaves (next.map Prod.fst) := by
  have horderly' := h.of_running hended hended' hdisposals
  refine ⟨fun stage => ?_, fun hrun => ?_, fun c => ?_⟩
  · rw [horderly'.works_iff (hended'.trans hended), hfinishing, Option.map_eq_some_iff]
    constructor
    · rintro ⟨entered, rfl⟩
      exact ⟨_, rfl, rfl⟩
    · rintro ⟨⟨stage', entered⟩, rfl, rfl⟩
      exact ⟨entered, rfl⟩
  · intro hnone
    simp [hrunning (hfinishing.symm.trans hnone)] at hrun
  · rw [hdisposals, h.disposals hended c]
    exact ⟨by rintro ⟨⟩, by rintro ⟨⟩⟩

/-- The first event of a task puts it on its course. -/
theorem Step.course_of_absent (hstep : Step respond t e v v') (hplaced : v.Placed)
    (hnone : v.task = none) : v'.Course := by
  rcases hstep.of_absent hplaced hnone with rfl | rfl
  · refine .opened rfl ?_ ?_
    · constructor <;> first | rfl | rintro ⟨⟩
    · rintro stage (⟨entered, h⟩ | ⟨c, h⟩) <;> cases h
  · exact .absent rfl

/-- A request is accepted or refused once. -/
theorem Step.schedule (hstep : Step respond t e v v')
    (h : v.schedule = .accepted ∨ v.schedule = .refused) : v'.schedule = v.schedule := by
  cases hstep with
  | create _ hidle => exact absurd h (by simp [hidle])
  | accept hinserted => exact absurd h (by simp [hinserted])
  | refuse _ hinserted => exact absurd h (by simp [hinserted])
  | finish => exact View.remember_schedule ..
  | finishLast => exact View.remember_schedule ..
  | disposeFinish => exact View.remember_schedule ..
  | _ => rfl

/-- A `stop` call gets further with the task. -/
theorem View.works_setDisposal {c : StopId} {disposal : Disposal} {stage : FinishStage}
    (h : (v.setDisposal c disposal).Works stage) : v.Works stage ∨ disposal = .finishing stage := by
  rcases h with hfinishing | ⟨c', hc'⟩
  · exact .inl (.inl hfinishing)
  · by_cases hc : c' = c
    · subst hc
      exact .inr (by simpa [View.setDisposal] using hc')
    · exact .inl (.inr ⟨c', by simpa [View.setDisposal, hc] using hc'⟩)

/-- The `finish` of a disposed task gets further. -/
theorem View.leaves_disposal (hplaced : v.Placed) (horderly : v.Orderly) {c : StopId}
    {stage : FinishStage} (hc : v.disposals c = .finishing stage)
    (hfinishing : v'.finishing = v.finishing) (hrunning : v'.running = v.running)
    (next : Option FinishStage)
    (hdisposals : v'.disposals = Function.update v.disposals c (next.elim .none .finishing)) :
    v'.Leaves next := by
  have hne : v.disposals c ≠ .none := by simp [hc]
  have hended := horderly.disposal c hne
  have hnone := horderly.finishing hplaced hended
  have hother (c' : StopId) (hcc : c' ≠ c) : v.disposals c' = .none := by
    by_contra hne'
    exact hcc (hplaced.single c' c hne' hne)
  refine ⟨fun stage' => ⟨?_, ?_⟩, fun hrun => ?_, fun c' => ?_⟩
  · rintro (⟨entered, h⟩ | ⟨c', hc'⟩)
    · cases ((hfinishing.trans hnone).symm.trans h)
    · rw [hdisposals] at hc'
      by_cases hcc : c' = c
      · subst hcc
        rw [Function.update_self] at hc'
        cases next with
        | none => cases hc'
        | some next => exact congrArg some (Disposal.finishing.inj hc')
      · rw [Function.update_of_ne hcc, hother c' hcc] at hc'
        cases hc'
  · rintro rfl
    refine .inr ⟨c, ?_⟩
    rw [hdisposals, Function.update_self]
    rfl
  · rw [hrunning, horderly.ended hended] at hrun
    cases hrun
  · rw [hdisposals]
    by_cases hcc : c' = c
    · subst hcc
      rw [Function.update_self]
      cases next <;> exact ⟨by rintro ⟨⟩, by rintro ⟨⟩⟩
    · rw [Function.update_of_ne hcc, hother c' hcc]
      exact ⟨by rintro ⟨⟩, by rintro ⟨⟩⟩

/-- A task that has not been finished. -/
theorem Step.course_of_open (hstep : Step respond t e v v') (hplaced : v.Placed)
    (horderly : v.Orderly) (htask : v.task = some k) (hopen : v.ledger.Open k)
    (hworks : ∀ stage, v.Works stage → ∃ response completion, stage = .record response completion) :
    v'.Course := by
  cases hstep with
  | create hnone => cases (hnone.symm.trans htask)
  | accept => exact .opened htask hopen hworks
  | refuse => exact .refused rfl
  | @run _ l faults finishedFuture _ _ _ hshows hcancelled =>
    obtain rfl : l.task = k := Option.some.inj (hshows.task.symm.trans htask)
    have hcall : Undecided t l (HandlerTask.call faults t finishedFuture l) := .call hcancelled
    exact .opened rfl (hopen.undecided hshows hcall) hworks
  | runCancelled _ _ _ htask' =>
    obtain rfl := Option.some.inj (htask'.symm.trans htask)
    refine .opened rfl ⟨hopen.verdict, hopen.completions, hopen.added, hopen.handed, hopen.sender,
      hopen.responses, hopen.registered⟩ ?_
    rintro stage (⟨entered, h⟩ | hdisposal)
    · cases h
      exact ⟨_, _, rfl⟩
    · exact hworks stage (.inr hdisposal)
  | @resume _ l faults input _ _ _ hshows _ hending =>
    obtain rfl : l.task = k := Option.some.inj (hshows.task.symm.trans htask)
    have hresume : Undecided t l (HandlerTask.resume respond faults t input l) := .resume hending
    exact .opened rfl (hopen.undecided hshows hresume) hworks
  | resumeEnding =>
    refine .opened htask hopen ?_
    rintro stage (⟨entered, h⟩ | hdisposal)
    · cases h
      exact ⟨_, _, rfl⟩
    · exact hworks stage (.inr hdisposal)
  | @finish _ l faults stage next entered hended hfinishing hshows hnext =>
    obtain rfl : l.task = k := Option.some.inj (hshows.task.symm.trans htask)
    obtain ⟨response, completion, rfl⟩ := hworks stage (.inl ⟨entered, hfinishing⟩)
    obtain ⟨l', next', hadvance, hclosed⟩ :=
      hopen.record faults response completion hshows
    obtain rfl : next' = next := by
      rw [hadvance] at hnext
      exact Option.some.inj hnext
    simp only [hadvance]
    refine View.Leaves.course ?_ (View.remember_task ..) hclosed
    refine View.leaves_finishing horderly hended ?_ ?_ (some (next', entered)) rfl (by rintro ⟨⟩)
    · exact View.remember_ended ..
    · exact View.remember_disposals ..
  | @finishLast _ l faults stage entered _ hfinishing hshows hnext =>
    obtain rfl : l.task = k := Option.some.inj (hshows.task.symm.trans htask)
    obtain ⟨response, completion, rfl⟩ := hworks stage (.inl ⟨entered, hfinishing⟩)
    obtain ⟨l', next', hadvance, -⟩ := hopen.record faults response completion hshows
    rw [hadvance] at hnext
    cases hnext
  | endLoop => exact .opened htask hopen hworks
  | drain =>
    refine .opened htask ⟨hopen.verdict, hopen.completions, hopen.added, hopen.handed,
      hopen.sender, hopen.responses, hopen.registered⟩ fun stage h => ?_
    rcases View.works_setDisposal h with h | h
    · exact hworks stage h
    · cases h
  | dispose =>
    refine .opened htask hopen fun stage h => ?_
    rcases View.works_setDisposal h with h | h
    · exact hworks stage h
    · cases h
  | disposeUnbuilt =>
    refine .opened htask hopen fun stage h => ?_
    rcases View.works_setDisposal h with h | h
    · exact hworks stage h
    · cases h
      exact ⟨_, _, rfl⟩
  | closed =>
    refine .opened htask hopen fun stage h => ?_
    rcases View.works_setDisposal h with h | h
    · exact hworks stage h
    · cases h
      exact ⟨_, _, rfl⟩
  | @disposeFinish _ l faults c stage hdisposal hshows =>
    obtain rfl : l.task = k := Option.some.inj (hshows.task.symm.trans htask)
    obtain ⟨response, completion, rfl⟩ := hworks stage (.inr ⟨c, hdisposal⟩)
    obtain ⟨l', next', hadvance, hclosed⟩ := hopen.record faults response completion hshows
    simp only [hadvance]
    refine View.Leaves.course ?_ (View.remember_task ..) hclosed
    refine View.leaves_disposal hplaced horderly hdisposal ?_ ?_ (some next') ?_
    · exact View.remember_finishing ..
    · exact View.remember_running ..
    · simp only [View.setDisposal, View.remember_disposals]
      rfl
  | @call _ l l' _ hshows hquiet =>
    obtain rfl : l.task = k := Option.some.inj (hshows.task.symm.trans htask)
    exact .opened rfl (hopen.undecided hshows hquiet.toUndecided) hworks
  | addDoneCallback htask' =>
    obtain rfl := Option.some.inj (htask'.symm.trans htask)
    simp only [if_neg (show ¬_ from ne_true_of_eq_false hopen.unfinished)]
    refine .opened rfl ⟨hopen.verdict, hopen.completions, ?_, hopen.handed, hopen.sender,
      hopen.responses, hopen.registered⟩ hworks
    exact congrArg (· ++ _) hopen.added
  | removeDoneCallback htask' =>
    obtain rfl := Option.some.inj (htask'.symm.trans htask)
    simp only [if_neg (show ¬_ from ne_true_of_eq_false hopen.unfinished)]
    refine .opened rfl ⟨hopen.verdict, hopen.completions, ?_, hopen.handed, hopen.sender,
      hopen.responses, hopen.registered⟩ hworks
    exact congrArg (List.filter _) hopen.added
  | finishAgain hshows hfinished =>
    obtain rfl := Option.some.inj (hshows.task.symm.trans htask)
    exact absurd hfinished (by simp [hopen.unfinished])

/-- A task that has been finished. -/
theorem Step.course_of_closed {rest : Option FinishStage} (hstep : Step respond t e v v')
    (hplaced : v.Placed) (horderly : v.Orderly)
    (hpermitted : v.Spares e) (htask : v.task = some k)
    (hclosed : v.ledger.Closed k rest) (hworks : ∀ stage, v.Works stage ↔ rest = some stage)
    (hrunning : v.running = true → v.finishing ≠ none)
    (hdisposals : ∀ c, v.disposals c ≠ .waiting ∧ v.disposals c ≠ .closing) : v'.Course := by
  cases hstep with
  | create hnone => cases (hnone.symm.trans htask)
  | accept => exact .closed rest htask hclosed hworks hrunning hdisposals
  | refuse => exact .refused rfl
  | @run _ l faults finishedFuture _ hidle _ hshows hcancelled =>
    obtain rfl : l.task = k := Option.some.inj (hshows.task.symm.trans htask)
    have hsame : HandlerTask.call faults t finishedFuture l = l := by
      simp [HandlerTask.call, hclosed.finished]
    rw [hsame, hshows]
    refine .closed rest htask hclosed hworks (fun hrun => ?_) hdisposals
    simp [hplaced.idle hidle _ htask] at hrun
  | runCancelled _ _ _ htask' hcancelled =>
    obtain rfl := Option.some.inj (htask'.symm.trans htask)
    simp [cancelledUnstarted, hclosed.finished] at hcancelled
  | resume _ hrun hnone => exact absurd hnone (hrunning hrun)
  | resumeEnding _ hrun hnone => exact absurd hnone (hrunning hrun)
  | @finish _ l faults stage next entered hended hfinishing hshows hnext =>
    obtain rfl : l.task = k := Option.some.inj (hshows.task.symm.trans htask)
    obtain rfl := (hworks stage).mp (.inl ⟨entered, hfinishing⟩)
    have hadvance := hclosed.advance faults hshows
    rw [hnext] at hadvance
    refine View.Leaves.course ?_ (View.remember_task ..) hadvance
    refine View.leaves_finishing horderly hended ?_ ?_ (some (next, entered)) rfl (by rintro ⟨⟩)
    · exact View.remember_ended ..
    · exact View.remember_disposals ..
  | @finishLast _ l faults stage entered hended hfinishing hshows hnext =>
    obtain rfl : l.task = k := Option.some.inj (hshows.task.symm.trans htask)
    obtain rfl := (hworks stage).mp (.inl ⟨entered, hfinishing⟩)
    have hadvance := hclosed.advance faults hshows
    rw [hnext] at hadvance
    refine View.Leaves.course ?_ (View.remember_task ..) (hadvance.endTurn entered)
    refine View.leaves_finishing horderly hended ?_ ?_ none rfl fun _ => rfl
    · exact View.remember_ended ..
    · exact View.remember_disposals ..
  | endLoop => exact .closed rest htask hclosed hworks hrunning hdisposals
  | drain _ hlive =>
    have hnone := hplaced.live hlive
    have hended := hpermitted _ _ rfl hlive
    cases rest with
    | none => exact absurd (hclosed.live rfl) (by simp [View.ledger, hlive])
    | some stage =>
      rcases (hworks stage).mpr rfl with ⟨entered, hfinishing⟩ | ⟨c, hc⟩
      · exact absurd (horderly.finishing hplaced hended) (by simp [hfinishing])
      · exact absurd (hnone c) (by simp [hc])
  | dispose hwaiting => exact absurd hwaiting (hdisposals _).1
  | disposeUnbuilt hwaiting => exact absurd hwaiting (hdisposals _).1
  | closed hclosing => exact absurd hclosing (hdisposals _).2
  | @disposeFinish _ l faults c stage hdisposal hshows =>
    obtain rfl : l.task = k := Option.some.inj (hshows.task.symm.trans htask)
    obtain rfl := (hworks stage).mp (.inr ⟨c, hdisposal⟩)
    refine View.Leaves.course ?_ (View.remember_task ..) (hclosed.advance faults hshows)
    refine View.leaves_disposal hplaced horderly hdisposal ?_ ?_ (stage.advance faults t l).2 ?_
    · exact View.remember_finishing ..
    · exact View.remember_running ..
    · simp only [View.setDisposal, View.remember_disposals]
      rfl
  | @call _ l l' _ hshows hquiet =>
    obtain rfl : l.task = k := Option.some.inj (hshows.task.symm.trans htask)
    exact .closed rest rfl (hclosed.quiet hshows hquiet) hworks hrunning hdisposals
  | @addDoneCallback _ _ callback context htask' =>
    obtain rfl := Option.some.inj (htask'.symm.trans htask)
    simp only [if_pos hclosed.finished]
    refine .closed rest rfl ⟨hclosed.recorded, hclosed.doneCallbacks, ?_, hclosed.live,
      hclosed.registered, hclosed.sender, hclosed.responses, hclosed.begun⟩ hworks hrunning
      hdisposals
    have hperm := hclosed.handed.append_right [(callback, context)]
    refine List.Perm.trans ?_ hperm
    show (v.handed ++ [(callback, context)] ++ _).Perm (v.handed ++ _ ++ [(callback, context)])
    simp only [List.append_assoc]
    exact List.perm_append_comm.append_left _
  | removeDoneCallback htask' =>
    obtain rfl := Option.some.inj (htask'.symm.trans htask)
    simp only [if_pos hclosed.finished]
    refine .closed rest rfl (hclosed.congr rfl ?_ rfl) hworks hrunning hdisposals
    simp [HandlerTask.removeDoneCallback, hclosed.doneCallbacks]
  | @finishAgain _ l faults response completion hshows hfinished hsent =>
    obtain rfl : l.task = k := Option.some.inj (hshows.task.symm.trans htask)
    obtain rfl := hclosed.rest_eq_none hsent
    rw [finish_of_sent hfinished hclosed.sender, hshows]
    exact .closed none htask hclosed hworks hrunning hdisposals

/-- **One step** keeps the completion of a task on its course. -/
theorem Step.course (hstep : Step respond t e v v') (hplaced : v.Placed) (horderly : v.Orderly)
    (hpermitted : v.Spares e) (h : v.Course) : v'.Course := by
  cases h with
  | absent hnone => exact hstep.course_of_absent hplaced hnone
  | refused hrefused => exact .refused ((hstep.schedule (.inr hrefused)).trans hrefused)
  | opened htask hopen hworks =>
    exact hstep.course_of_open hplaced horderly htask hopen hworks
  | closed rest htask hclosed hworks hrunning hdisposals =>
    exact hstep.course_of_closed hplaced horderly hpermitted htask hclosed hworks hrunning
      hdisposals

end Rayo.Lifecycle
