import Rayo.Task.LoopSteps

/-!
# Every event is a step of each task, or nothing to it

What the calls of `stop` and the calls on a task do is one of the steps of a single task, too, with
the same event, or leaves the view of the task as it is.
-/

namespace Rayo.Lifecycle

open Asyncio HandlerTask

variable {respond : Value → HandlerResponse} {s : Lifecycle} {e : Event} {t t' : TaskId}

/-- A `stop` call that gets further shows in its own disposals only. -/
theorem view_setStop (c : StopId) (call : StopCall) :
    view (s.setStop c call) t = (view s t).setDisposal c (disposalOf t call) := by
  have hdisposals : (fun c' => disposalOf t (Function.update s.stops c call c')) =
      Function.update (fun c' => disposalOf t (s.stops c')) c (disposalOf t call) := by
    funext c'
    by_cases hc : c' = c
    · subst hc
      simp
    · simp [hc]
  simp only [view, setStop, View.setDisposal, hdisposals]
  rfl

/-- A disposal that is there already changes nothing. -/
theorem View.setDisposal_of_eq {v : View} {c : StopId} {disposal : Disposal}
    (h : v.disposals c = disposal) : v.setDisposal c disposal = v := by
  subst h
  simp [View.setDisposal]

/-- A `stop` call has got further, but not with this task. -/
theorem view_setStop_of_eq {c : StopId} {call : StopCall}
    (h : disposalOf t (s.stops c) = disposalOf t call) : view (s.setStop c call) t = view s t := by
  rw [view_setStop]
  exact View.setDisposal_of_eq h

/-- A stop call that takes the join handle is a step of every task. -/
theorem progress_takeHandle {c : StopId} (henabled : enabled respond s (.takeHandle c) = true) :
    Progress respond t (.takeHandle c) (view s t) (view (effect respond s (.takeHandle c)) t) := by
  cases hstop : s.stops c <;> simp only [enabled, hstop, Bool.false_eq_true] at henabled
  have hstutter : view (s.setStop c (if s.thread then .joining else .draining)) t = view s t := by
    refine view_setStop_of_eq ?_
    cases s.thread <;> simp [hstop, disposalOf]
  exact .inr hstutter

/-- A stop call whose join returns is a step of every task. -/
theorem progress_join {c : StopId} (henabled : enabled respond s (.join c) = true) :
    Progress respond t (.join c) (view s t) (view (effect respond s (.join c)) t) := by
  cases hstop : s.stops c <;> simp only [enabled, hstop, Bool.false_eq_true] at henabled
  exact .inr (view_setStop_of_eq (by rw [hstop]; rfl))

/-- A stop call that drains the registry is a step of every task. -/
theorem progress_drain {c : StopId} {order : List TaskId}
    (henabled : enabled respond s (.drain c order) = true) :
    Progress respond t (.drain c order) (view s t) (view (effect respond s (.drain c order)) t) := by
  cases hstop : s.stops c <;> simp only [enabled, hstop, Bool.false_eq_true] at henabled
  have hperm : order.Perm s.live := by simpa using henabled
  let drained := s.setWorld { s.loop.world with
    shared := { s.loop.world.shared with liveTasks := [] } }
  have hview : view drained t = { view s t with live := false } := rfl
  have heffect : view (effect respond s (.drain c order)) t =
      { view s t with live := false }.setDisposal c (if t ∈ s.live then .waiting else .none) := by
    rw [← hview, show effect respond s (.drain c order) = drained.setStop c (.disposing order)
      from rfl, view_setStop]
    simp only [disposalOf, hperm.mem_iff]
  rw [heffect]
  have hnone : (view s t).disposals c = .none := by simp [view, hstop, disposalOf]
  by_cases hlive : t ∈ s.live
  · rw [if_pos hlive]
    exact .inl (.drain hnone (by simpa [view] using hlive))
  · rw [if_neg hlive]
    refine .inr ?_
    have hsame : { view s t with live := false } = view s t := by
      ext : 1 <;> first | rfl | simp [view, hlive]
    rw [hsame]
    exact View.setDisposal_of_eq hnone

section

variable {c : StopId} {rest : List TaskId}

/-- A stop call that goes on to its next task is a step of every task. -/
theorem progress_dispose (htidy : Tidy s) (henabled : enabled respond s (.dispose c) = true) :
    Progress respond t (.dispose c) (view s t) (view (effect respond s (.dispose c)) t) := by
  rcases hstop : s.stops c with _ | _ | _ | (_ | ⟨t', rest⟩) | _ | _ | _ <;>
    simp only [enabled, hstop, Bool.false_eq_true] at henabled
  have htask := htidy.stops_task c t' (by simp [hstop, StopCall.tasks])
  obtain ⟨k, hk⟩ := Option.isSome_iff_exists.mp htask
  by_cases ht : t = t'
  · subst ht
    refine .inl ?_
    have hwaiting : (view s t).disposals c = .waiting := by simp [view, hstop, disposalOf]
    cases hcoroutine : k.state.coroutine with
    | none =>
      simp only [effect, hstop, hk, Option.any_some, hcoroutine, Option.isSome_none,
        Bool.false_eq_true, if_false, view_setStop]
      simpa only [disposalOf, if_true] using Step.disposeUnbuilt hwaiting hk hcoroutine
    | some coroutine =>
      simp only [effect, hstop, hk, Option.any_some, hcoroutine, Option.isSome_some, if_true,
        view_setStop]
      simpa only [disposalOf, if_true] using
        Step.dispose hwaiting hk (by rw [hcoroutine]; rfl)
  · refine .inr ?_
    simp only [effect, hstop]
    split
    · exact view_setStop_of_eq (by simp [hstop, disposalOf, ht, Ne.symm ht])
    · exact view_setStop_of_eq (by simp [hstop, disposalOf, ht, Ne.symm ht])

/-- A stop call whose `coroutine.close()` returns is a step of every task. -/
theorem progress_closed (henabled : enabled respond s (.closed c) = true) :
    Progress respond t (.closed c) (view s t) (view (effect respond s (.closed c)) t) := by
  rcases hstop : s.stops c with _ | _ | _ | _ | ⟨t', rest⟩ | _ | _ <;>
    simp only [enabled, hstop, Bool.false_eq_true] at henabled
  by_cases ht : t = t'
  · subst ht
    have hview : view (effect respond s (.closed c)) t =
        { view s t with fate := (view s t).fate.close }.setDisposal c
          (.finishing (.record .internalError .aborted)) := by
      let ended : Lifecycle := { s with fate := Function.update s.fate t (s.fate t).close }
      have hended : view ended t = { view s t with fate := (view s t).fate.close } := by
        ext : 1 <;> first | rfl | simp [view, ended]
      have hset := view_setStop (s := ended) (t := t) c
        (.finishing t (.record .internalError .aborted) rest)
      simp only [disposalOf, if_true] at hset
      simp only [effect, hstop, ← hended, ← hset]
      rfl
    rw [hview]
    exact .inl (.closed (by simp [view, hstop, disposalOf]))
  · refine .inr ?_
    have hstutter : view (s.setStop c (.finishing t' (.record .internalError .aborted) rest)) t =
        view s t := view_setStop_of_eq (by simp [hstop, disposalOf, Ne.symm ht])
    simp only [effect, hstop]
    rw [← hstutter]
    exact view_congr (.refl t _) rfl .rfl rfl rfl rfl rfl rfl rfl rfl .rfl (by simp [ht]; rfl)

/-- The `finish` of a disposed task is a step of every task. -/
theorem progress_disposeFinish {faults : Faults} (htidy : Tidy s)
    (henabled : enabled respond s (.disposeFinish faults c) = true) :
    Progress respond t (.disposeFinish faults c) (view s t)
      (view (effect respond s (.disposeFinish faults c)) t) := by
  rcases hstop : s.stops c with _ | _ | _ | _ | _ | ⟨t', stage, rest⟩ | _ <;>
    simp only [enabled, hstop, Bool.false_eq_true] at henabled
  have htask := htidy.stops_task c t' (by simp [hstop, StopCall.tasks])
  obtain ⟨k, hk⟩ := Option.isSome_iff_exists.mp htask
  have hnodup : t' ∉ rest := by
    have hall := htidy.stops_nodup c
    rw [hstop] at hall
    exact (List.nodup_cons.mp hall).1
  simp only [effect, hstop, view_setStop]
  by_cases ht : t = t'
  · subst ht
    refine .inl ?_
    rw [view_work_self _ _ hk, work_of_task _ _ hk]
    have hdisposal : disposalOf t ((stage.advance faults t ⟨s.loop.world, k⟩).2.elim
          (.disposing rest) (.finishing t · rest)) =
        (stage.advance faults t ⟨s.loop.world, k⟩).2.elim .none .finishing := by
      cases (stage.advance faults t ⟨s.loop.world, k⟩).2 <;> simp [disposalOf, hnodup]
    rw [hdisposal]
    exact .disposeFinish (by simp [view, hstop, disposalOf]) (shows_of_task hk)
  · refine .inr ?_
    rw [view_work_of_ne _ _ hk ht]
    refine View.setDisposal_of_eq ?_
    cases (s.work faults t' stage).2 <;> simp [view, hstop, disposalOf, Ne.symm ht]

/-- A stop call that returns is a step of every task. -/
theorem progress_stopReturns (henabled : enabled respond s (.stopReturns c) = true) :
    Progress respond t (.stopReturns c) (view s t) (view (effect respond s (.stopReturns c)) t) := by
  rcases hstop : s.stops c with _ | _ | _ | (_ | _) | _ | _ | _ <;>
    simp only [enabled, hstop, Bool.false_eq_true] at henabled
  exact .inr (view_setStop_of_eq (by simp [hstop, disposalOf]))

end

/-- A call that the completion has nothing to do with. -/
theorem progress_modify {k : HandlerTask} {g : Local → Local} (hk : s.loop.tasks t' = some k)
    (hquiet : Quiet t' ⟨s.loop.world, k⟩ (g ⟨s.loop.world, k⟩)) :
    Progress respond t e (view s t) (view { s with loop := s.loop.modify t' g } t) := by
  rw [modify_of_task hk]
  by_cases ht : t = t'
  · subst ht
    rw [view_put_self]
    exact .inl (.call (shows_of_task hk) hquiet)
  · exact .inr (view_put_of_ne ht (hquiet.aside t ht))

/-- Only other data of the loop has changed. -/
theorem progress_setWorld {w : World LoopHandles} (haside : Aside t s.loop.world w) :
    Progress respond t e (view s t) (view (s.setWorld w) t) := .inr (view_setWorld haside)

/-- A callback that is added is a step of its task. -/
theorem progress_addDoneCallback {callback context : Value}
    (henabled : enabled respond s (.act (.addDoneCallback t' callback context)) = true) :
    Progress respond t (.act (.addDoneCallback t' callback context)) (view s t)
      (view (effect respond s (.act (.addDoneCallback t' callback context))) t) := by
  simp only [enabled, Loop.enabled, Action.task, Option.all_some, Option.isSome_iff_exists]
    at henabled
  obtain ⟨k, hk⟩ := henabled
  have hloop := modify_of_task hk (HandlerTask.addDoneCallback t' callback context)
  have hfinished : s.finished t' = k.state.finished := by simp [finished, hk]
  by_cases ht : t = t'
  · subst ht
    have hview : view (effect respond s (.act (.addDoneCallback t callback context))) t =
        { view s t with
          task := some (if k.state.finished then k else
            { k with state := { k.state with
                doneCallbacks := k.state.doneCallbacks ++ [(callback, context)] } })
          added := (view s t).added ++ [(callback, context)]
          handed := if k.state.finished then (view s t).handed ++ [(callback, context)]
            else (view s t).handed } := by
      have hput := view_put_self (s := s.noteAction (.addDoneCallback t callback context))
        (t := t) (l := HandlerTask.addDoneCallback t callback context ⟨s.loop.world, k⟩)
      simp only [effect, Loop.effect, Loop.actEffect, driver, hloop]
      refine hput.trans ?_
      simp only [noteAction, hfinished, HandlerTask.addDoneCallback]
      cases k.state.finished
      · ext : 1 <;> first | rfl | simp [view, View.put]
      · ext : 1 <;> first | rfl | simp [view, View.put]
    rw [hview]
    exact .inl (.addDoneCallback hk)
  · simp only [effect, noteAction, hfinished, Loop.effect, Loop.actEffect, driver, hloop]
    refine .inr (view_congr ?_ ?_ .rfl rfl rfl rfl rfl rfl ?_ ?_ .rfl rfl)
    · cases hcase : k.state.finished
      · simp only [Loop.put, HandlerTask.addDoneCallback, hcase]
        exact .refl t _
      · simp only [Loop.put, HandlerTask.addDoneCallback, hcase]
        exact .of_eq rfl rfl rfl
    · simp [Loop.put, ht]
    · simp [ht]
    · split
      · simp [ht]
      · rfl

/-- A callback that is removed is a step of its task. -/
theorem progress_removeDoneCallback {callback : Value}
    (henabled : enabled respond s (.act (.removeDoneCallback t' callback)) = true) :
    Progress respond t (.act (.removeDoneCallback t' callback)) (view s t)
      (view (effect respond s (.act (.removeDoneCallback t' callback))) t) := by
  simp only [enabled, Loop.enabled, Action.task, Option.all_some, Option.isSome_iff_exists]
    at henabled
  obtain ⟨k, hk⟩ := henabled
  have hloop := modify_of_task hk (Loop.removeDoneCallback (driver respond) callback)
  have hfinished : s.finished t' = k.state.finished := by simp [finished, hk]
  simp only [effect, noteAction, hfinished, Loop.effect, Loop.actEffect, hloop]
  by_cases ht : t = t'
  · subst ht
    have htask : (view s t).task = some k := hk
    refine .inl ?_
    convert Step.removeDoneCallback htask using 1
    cases hcase : k.state.finished <;>
      (ext : 1 <;> first | rfl | simp [view, driver, Loop.removeDoneCallback, Loop.put])
  · refine .inr ?_
    cases k.state.finished
    · exact view_congr (.refl t _) (by simp [Loop.put, ht]) .rfl rfl rfl rfl rfl rfl (by simp [ht])
        rfl .rfl rfl
    · exact view_put_of_ne ht (.refl t _)

/-- What other code does on the loop is a step of the task it concerns. -/
theorem progress_act {a : Action} (henabled : enabled respond s (.act a) = true) :
    Progress respond t (.act a) (view s t) (view (effect respond s (.act a)) t) := by
  cases a with
  | schedule t' => simp [enabled] at henabled
  | postCancel t' => exact progress_setWorld (.of_eq rfl rfl rfl)
  | cancel t' message =>
    simp only [enabled, Loop.enabled, Action.task, Option.all_some, Option.isSome_iff_exists]
      at henabled
    obtain ⟨k, hk⟩ := henabled
    exact progress_modify hk (.cancelTask message _)
  | uncancel t' =>
    simp only [enabled, Loop.enabled, Action.task, Option.all_some, Option.isSome_iff_exists]
      at henabled
    obtain ⟨k, hk⟩ := henabled
    exact progress_modify hk (.uncancelTask _)
  | cancelling t' =>
    simp only [enabled, Loop.enabled, Action.task, Option.all_some, Option.isSome_iff_exists]
      at henabled
    obtain ⟨k, hk⟩ := henabled
    exact progress_modify hk (.cancellingTask _)
  | addDoneCallback t' callback context => exact progress_addDoneCallback henabled
  | removeDoneCallback t' callback => exact progress_removeDoneCallback henabled
  | complete f status => exact progress_setWorld (.complete f status)
  | cancelFuture f message => exact progress_setWorld (.cancelFuture f message)
  | setBlocking f blocking => exact progress_setWorld (.of_eq rfl rfl rfl)
  | setCancelMode f mode => exact progress_setWorld (.of_eq rfl rfl rfl)

/-- A new name is a step of its task. -/
theorem progress_setName {name : Value} (henabled : enabled respond s (.setName t' name) = true) :
    Progress respond t (.setName t' name) (view s t) (view (effect respond s (.setName t' name)) t) := by
  simp only [enabled, Option.isSome_iff_exists] at henabled
  obtain ⟨k, hk⟩ := henabled
  exact progress_modify hk (.setNameOf name _)

/-- A dropped request is a step of every task. -/
theorem progress_dropRequest :
    Progress respond t (.dropRequest t') (view s t) (view (effect respond s (.dropRequest t')) t) := by
  simp only [effect]
  split
  · exact .inr rfl
  · exact progress_setWorld (.of_eq rfl rfl rfl)

/-- A repeated `finish` is a step of its task. -/
theorem progress_finishAgain {faults : Faults} {response : HandlerResponse}
    {completion : CompletionKind}
    (henabled : enabled respond s (.finishAgain faults t' response completion) = true) :
    Progress respond t (.finishAgain faults t' response completion) (view s t)
      (view (effect respond s (.finishAgain faults t' response completion)) t) := by
  simp only [enabled, finished, Bool.and_eq_true, Option.any_eq_true, Bool.not_eq_true',
    List.isEmpty_eq_false_iff] at henabled
  obtain ⟨⟨k, hk, hfinished⟩, hsent⟩ := henabled
  simp only [effect, modify_of_task hk]
  by_cases ht : t = t'
  · subst ht
    rw [view_put_self]
    exact .inl (.finishAgain (shows_of_task hk) hfinished hsent)
  · exact .inr (view_put_of_ne ht (.finish ht faults response completion ⟨s.loop.world, k⟩))

/-- Whatever happens is a step of the task or nothing to it. -/
theorem progress (htidy : Tidy s) (henabled : enabled respond s e = true) (t : TaskId) :
    Progress respond t e (view s t) (view (effect respond s e) t) := by
  cases e with
  | create t' => exact progress_create henabled
  | accept t' => exact progress_accept henabled
  | refuse t' => exact progress_refuse htidy henabled
  | run faults => exact progress_run henabled
  | resume faults input => exact progress_resume henabled
  | finish faults => exact progress_finish htidy henabled
  | endLoop => exact progress_endLoop henabled
  | takeHandle c => exact progress_takeHandle henabled
  | join c => exact progress_join henabled
  | drain c order => exact progress_drain henabled
  | dispose c => exact progress_dispose htidy henabled
  | closed c => exact progress_closed henabled
  | disposeFinish faults c => exact progress_disposeFinish htidy henabled
  | stopReturns c => exact progress_stopReturns henabled
  | act a => exact progress_act henabled
  | setName t' name => exact progress_setName henabled
  | wake t' finishedFuture => exact progress_setWorld (.of_eq rfl rfl rfl)
  | dropRequest t' => exact progress_dropRequest
  | finishAgain faults t' response completion => exact progress_finishAgain henabled

end Rayo.Lifecycle
