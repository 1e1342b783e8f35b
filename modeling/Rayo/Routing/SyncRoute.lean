import Rayo.Routing.Binding
import Rayo.Task.Answer

/-!
# Sync and async routes

A sync route collects the arguments and calls its handler in one closure; an async route collects
them, schedules a task, and gets its response from the `finish` of the task. Both answer a request
in the same way if the handler comes to the same.
-/

namespace Rayo

open Asyncio

variable {F : Type}

/-- `execute_sync_handler`, on what the call of the handler comes to. -/
def executeSyncHandler (ops : FloatOps F) (object : Value → PyValue F) :
    Except Exception Value → HandlerResponse
  | .ok returnValue => responseFromReturnValue ops (object returnValue)
  -- `report_handler_error`, which is all the same for every exception
  | .error _ => .internalError

/-- What a sync route answers: the closure of `AppService::handle`. -/
def syncRoute (ops : FloatOps F) (parseF64 : List Char → Option F) (object : Value → PyValue F)
    (handler : Kwargs F → Except Exception Value) (params : List (List Char × ParamKind))
    (matchedParams : List (List Char × List Char)) : HandlerResponse :=
  match syncKwargs parseF64 params matchedParams with
  | .error errorResponse => errorResponse
  | .ok kwargs => executeSyncHandler ops object (handler kwargs)

/-- What the handler of a task has come to. -/
def Fate.outcome : Fate → Option (Except Exception Value)
  | .returned value => some (.ok value)
  | .raised e | .factoryRaised e => some (.error e)
  | .unbuilt | .cancelledUnstarted _ | .alive | .closed => none

/-- `response_from_return_value` on the objects that Python code refers to. -/
def responseOf (ops : FloatOps F) (object : Value → PyValue F) (value : Value) : HandlerResponse :=
  responseFromReturnValue ops (object value)

/-- What an async route answers: the error of `build_kwargs`, or what the task of the request puts
on its channel once its handler has come to something. -/
inductive AsyncRoute (ops : FloatOps F) (parseF64 : List Char → Option F)
    (object : Value → PyValue F) (handler : Kwargs F → Except Exception Value)
    (params : List (List Char × ParamKind)) (matchedParams : List (List Char × List Char)) :
    HandlerResponse → Prop
  | invalid {errorResponse : HandlerResponse} :
    buildKwargs parseF64 params matchedParams = .error errorResponse →
      AsyncRoute ops parseF64 object handler params matchedParams errorResponse
  | dispatched {kwargs : Kwargs F} {s : Lifecycle} {t : TaskId} {response : HandlerResponse} :
    buildKwargs parseF64 params matchedParams = .ok kwargs →
      (Lifecycle.system (responseOf ops object)).ReachesUnder
        (fun s e => Lifecycle.sparesTask t s e = true) s →
      s.schedules t = .accepted → (s.fate t).outcome = some (handler kwargs) →
      (t, response) ∈ s.responsesOf t →
      AsyncRoute ops parseF64 object handler params matchedParams response

variable {ops : FloatOps F} {parseF64 : List Char → Option F} {object : Value → PyValue F}
  {handler : Kwargs F → Except Exception Value} {params : List (List Char × ParamKind)}
  {matchedParams : List (List Char × List Char)}

/-- Both kinds of handlers are answered alike. -/
theorem answer_eq_executeSyncHandler {fate : Fate} {outcome : Except Exception Value}
    (h : fate.outcome = some outcome) :
    Lifecycle.answer (responseOf ops object) fate = executeSyncHandler ops object outcome := by
  cases fate <;> simp only [Fate.outcome, Option.some.injEq, reduceCtorEq] at h <;>
    (subst h; rfl)

/-- How the coroutine of an async handler hands control back at its end. -/
def inputOf : Except Exception Value → Input
  | .ok value => .returned value
  | .error e => .raised e

/-- What a sync handler comes to is what it puts into the turn. -/
theorem outcome_inputOf (outcome : Except Exception Value) :
    (Fate.ofInput (inputOf outcome)).outcome = some outcome := by
  cases outcome <;> rfl

/-- A handler that is being stepped can come to anything. -/
theorem resume_inputOf (respond : Value → HandlerResponse) {s : Lifecycle} {t : TaskId}
    {k : HandlerTask} (outcome : Except Exception Value) (hended : s.ended = false)
    (hnone : s.finishing = none) (hrunning : s.loop.running = some t)
    (hk : s.loop.tasks t = some k) (hphase : k.phase = .stepping) :
    (Lifecycle.system respond).enabled s (.resume .none (inputOf outcome)) = true ∧
    (Lifecycle.effect respond s (.resume .none (inputOf outcome))).ended = false ∧
    (Lifecycle.effect respond s (.resume .none (inputOf outcome))).schedules = s.schedules ∧
    (Lifecycle.effect respond s (.resume .none (inputOf outcome))).fate t =
      Fate.ofInput (inputOf outcome) := by
  have hrun : Lifecycle.runningTask s.loop = some (t, k) := by
    simp [Lifecycle.runningTask, hrunning, hk]
  have haccepts : k.accepts (inputOf outcome) = true := by
    cases outcome <;> simp [HandlerTask.accepts, hphase, inputOf]
  obtain ⟨ending, hending⟩ : ∃ ending,
      HandlerTask.endingOfInput respond k.phase (inputOf outcome) = some ending := by
    rw [hphase]
    cases outcome <;> exact ⟨_, rfl⟩
  refine ⟨?_, ?_, ?_, ?_⟩
  · simp [Lifecycle.system, Lifecycle.enabled, Loop.enabled, hended, hnone, hrunning, hk,
      HandlerTask.driver, haccepts]
  · simp [Lifecycle.effect, hrun, hending, hended]
  · simp [Lifecycle.effect, hrun, hending]
  · simp [Lifecycle.effect, hrun, hending]

/-- Every handler can come to its end in the first step of its task, and is then answered. -/
theorem exists_firstStep (respond : Value → HandlerResponse) (outcome : Except Exception Value) :
    ∃ s, (Lifecycle.system respond).ReachesUnder
        (fun s e => Lifecycle.sparesTask 0 s e = true) s ∧ s.schedules 0 = .accepted ∧
      (s.fate 0).outcome = some outcome ∧ s.finishing = none ∧ s.ended = false := by
  have hexec : (((Lifecycle.system respond).restrict (Lifecycle.sparesTask 0)).exec
      (Lifecycle.fresh Lifecycle.unawaited) (Lifecycle.startOfHandler .none)).map (fun s =>
        s.schedules 0 = .accepted && !s.ended && s.finishing.isNone && s.loop.running = some 0 &&
        (s.loop.tasks 0).any fun k => k.phase = .stepping) = some true := by
    rfl
  obtain ⟨s, hreach, hend⟩ := Transition.System.exists_reachesUnder_of_exec
    (Lifecycle.Fresh.fresh respond fun _ => rfl) hexec
  simp only [Bool.and_eq_true, Bool.not_eq_true', decide_eq_true_eq, Option.isNone_iff_eq_none,
    Option.any_eq_true] at hend
  obtain ⟨⟨⟨⟨haccepted, hended⟩, hnone⟩, hrunning⟩, k, hk, hphase⟩ := hend
  obtain ⟨henabled, hended', hschedules, hfate⟩ :=
    resume_inputOf respond outcome hended hnone hrunning hk hphase
  have hresumed : (Lifecycle.system respond).ReachesUnder
      (fun s e => Lifecycle.sparesTask 0 s e = true)
      (Lifecycle.effect respond s (.resume .none (inputOf outcome))) :=
    .step hreach rfl henabled
  have hspares (s : Lifecycle) : Lifecycle.sparesTask 0 s (.finish .none) = true := rfl
  obtain ⟨s', hreach', hnone', hended'', hfate', hschedules'⟩ :=
    Lifecycle.exists_finished hspares hresumed hended'
  refine ⟨s', hreach', ?_, ?_, hnone', hended''⟩
  · rw [hschedules', ← haccepted]
    exact congrFun hschedules 0
  · rw [hfate']
    exact (congrArg Fate.outcome hfate).trans (outcome_inputOf outcome)

/-- Once the handler of a scheduled request has come to something, and its task is not being
finished any more, the request has its response. -/
theorem responsesOf_eq {s : Lifecycle} {t : TaskId} {outcome : Except Exception Value}
    (hreach : (Lifecycle.system (responseOf ops object)).ReachesUnder
      (fun s e => Lifecycle.sparesTask t s e = true) s)
    (haccepted : s.schedules t = .accepted) (houtcome : (s.fate t).outcome = some outcome)
    (hworks : ∀ stage, ¬(Lifecycle.view s t).Works stage) :
    s.responsesOf t = [(t, executeSyncHandler ops object outcome)] := by
  obtain ⟨hsound, horderly, hcourse, hkept, hanswers⟩ := Lifecycle.answers hreach
  have hnot : s.schedules t ≠ .refused := by
    rw [haccepted]
    rintro ⟨⟩
  have halive : s.fate t ≠ .alive := fun h => by simp [h, Fate.outcome] at houtcome
  have hbuilt : s.fate t ≠ .unbuilt := fun h => by simp [h, Fate.outcome] at houtcome
  obtain ⟨⟨t', response⟩, hsent⟩ :=
    hkept.sent (hsound.placed t) hcourse hnot hworks halive hbuilt
  have hresponses : s.responsesOf t = [(t', response)] := hsent
  have hmem : (t', response) ∈ s.responsesOf t := by
    rw [hresponses]
    exact List.mem_singleton_self _
  obtain rfl : t' = t := by simpa [Lifecycle.responsesOf] using (List.mem_filter.mp hmem).2
  have hresponse : response = _ := (hanswers hnot).sent _ hmem
  rw [hresponses, hresponse]
  exact congrArg (fun response => [(t', response)]) (answer_eq_executeSyncHandler houtcome)

/-- What a sync route answers once the arguments have been collected. -/
theorem syncRoute_eq {kwargs : Kwargs F}
    (h : buildKwargs parseF64 params matchedParams = .ok kwargs) :
    syncRoute ops parseF64 object handler params matchedParams =
      executeSyncHandler ops object (handler kwargs) := by
  simp only [syncRoute, syncKwargs_eq, h]

/-- **An async route answers a request as a sync route does.** Its own error, or the response that
the `finish` of its task puts on the channel, is the one response of the sync route; and no request
whose handler has come to something is left without it. -/
theorem asyncRoute_iff (ops : FloatOps F) (parseF64 : List Char → Option F)
    (object : Value → PyValue F) (handler : Kwargs F → Except Exception Value)
    (params : List (List Char × ParamKind)) (matchedParams : List (List Char × List Char)) :
    (∀ response, AsyncRoute ops parseF64 object handler params matchedParams response ↔
      response = syncRoute ops parseF64 object handler params matchedParams) ∧
    ∀ kwargs s t, buildKwargs parseF64 params matchedParams = .ok kwargs →
      (Lifecycle.system (responseOf ops object)).ReachesUnder
        (fun s e => Lifecycle.sparesTask t s e = true) s →
      s.schedules t = .accepted → (s.fate t).outcome = some (handler kwargs) →
      (∀ stage, ¬(Lifecycle.view s t).Works stage) →
      s.responsesOf t = [(t, syncRoute ops parseF64 object handler params matchedParams)] := by
  refine ⟨fun response => ⟨?_, ?_⟩, fun kwargs s t hkwargs hreach haccepted houtcome hworks => ?_⟩
  · rintro (herror | ⟨hkwargs, hreach, haccepted, houtcome, hsent⟩)
    · simp only [syncRoute, syncKwargs_eq, herror]
    · have hnot {s : Lifecycle} {t : TaskId} (h : s.schedules t = .accepted) :
          s.schedules t ≠ .refused := by
        rw [h]
        rintro ⟨⟩
      rw [Lifecycle.response_eq_answer hreach (hnot haccepted) hsent, syncRoute_eq hkwargs]
      exact answer_eq_executeSyncHandler houtcome
  · rintro rfl
    cases hkwargs : buildKwargs parseF64 params matchedParams with
    | error errorResponse =>
      have hsync : syncRoute ops parseF64 object handler params matchedParams = errorResponse := by
        simp only [syncRoute, syncKwargs_eq, hkwargs]
      rw [hsync]
      exact .invalid hkwargs
    | ok kwargs =>
      obtain ⟨s, hreach, haccepted, houtcome, hnone, hended⟩ :=
        exists_firstStep (responseOf ops object) (handler kwargs)
      obtain ⟨-, horderly, -⟩ := Lifecycle.answers hreach
      have hworks := horderly.no_work hended (by simp [Lifecycle.view, hnone])
      have hresponses := responsesOf_eq hreach haccepted houtcome hworks
      rw [syncRoute_eq hkwargs]
      refine .dispatched hkwargs hreach haccepted houtcome ?_
      rw [hresponses]
      exact List.mem_singleton_self _
  · rw [syncRoute_eq hkwargs]
    exact responsesOf_eq hreach haccepted houtcome hworks

/-- A handler without parameters that returns `None`. -/
theorem asyncRoute_iff_noContent :
    AsyncRoute (F := Empty) ⟨Empty.elim, Empty.elim⟩ (fun _ => none) (fun _ => .none)
      (fun _ => .ok 3) [] [] .noContent :=
  ((asyncRoute_iff ..).1 _).mpr rfl

end Rayo
