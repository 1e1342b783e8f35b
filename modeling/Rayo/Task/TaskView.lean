import Rayo.Task.Undecided

/-!
# One task among the events of its loop

What the completion of a task depends on is a small part of the state, and most events leave it
alone. The steps of one task are given on their own, and every event of a loop is one of them or
changes nothing for the task. An invariant of tasks has to be proved of these steps only.
-/

namespace Rayo.Lifecycle

open Asyncio HandlerTask

/-- How far a `stop` call is with a task. -/
inductive Disposal
  | none
  | waiting
  | closing
  | finishing (stage : FinishStage)
  deriving DecidableEq

/-- How far it is with `t`. -/
def disposalOf (t : TaskId) : StopCall → Disposal
  | .disposing rest => if t ∈ rest then .waiting else .none
  | .closing t' rest => if t' = t then .closing else if t ∈ rest then .waiting else .none
  | .finishing t' stage rest =>
    if t' = t then .finishing stage else if t ∈ rest then .waiting else .none
  | .idle | .joining | .draining | .returned => .none

/-- Everything that the completion of one task is about. -/
@[ext] structure View where
  /-- The loop thread has ended. -/
  ended : Bool
  task : Option HandlerTask
  schedule : ScheduleCall
  /-- It is in `live_tasks`. -/
  live : Bool
  /-- It is in asyncio's registry. -/
  registered : Bool
  responses : List (TaskId × HandlerResponse)
  operations : List Observation
  /-- It is its turn. -/
  running : Bool
  /-- The stage of its `finish` on the loop thread. -/
  finishing : Option (FinishStage × Bool)
  disposals : StopId → Disposal
  completions : List CompletionKind
  added : List (Value × Value)
  handed : List (Value × Value)
  unregisterError : Bool
  fate : Fate

/-- The task, as the state of its loop shows it. -/
def view (s : Lifecycle) (t : TaskId) : View where
  ended := s.ended
  task := s.loop.tasks t
  schedule := s.schedules t
  live := t ∈ s.loop.world.shared.liveTasks
  registered := t ∈ s.loop.world.registered
  responses := s.responsesOf t
  operations := operations s.loop.world t
  running := s.loop.running = some t
  finishing := s.finishing.bind fun (t', stage, entered) =>
    if t' = t then some (stage, entered) else none
  disposals c := disposalOf t (s.stops c)
  completions := (s.completions.filter (·.1 = t)).map Prod.snd
  added := s.added t
  handed := s.handed t
  unregisterError := t ∈ s.unregisterErrors
  fate := s.fate t

namespace View

/-- The view when its task and the data of the loop have become `l`. -/
def put (v : View) (t : TaskId) (l : Local) : View :=
  { v with
    task := some l.task
    live := t ∈ l.world.shared.liveTasks
    registered := t ∈ l.world.registered
    responses := l.world.shared.responses.filter (·.1 = t)
    operations := Rayo.operations l.world t }

/-- The view is one of this task and these data of its loop. -/
def Shows (v : View) (t : TaskId) (l : Local) : Prop := v.put t l = v

/-- The disposals after a `stop` call has come further with the task. -/
def setDisposal (v : View) (c : StopId) (disposal : Disposal) : View :=
  { v with disposals := Function.update v.disposals c disposal }

/-- What the histories note of a stage of `finish`. -/
def remember (v : View) (faults : Faults) (k : HandlerTask) : FinishStage → View
  | .record _ completion =>
    if k.state.finished then v else { v with completions := completion :: v.completions }
  | .unregister _ true _ => if faults.unregisterTask then { v with unregisterError := true } else v
  | .fire _ (entry :: _) => { v with handed := v.handed ++ [entry] }
  | _ => v

end View

/-- The steps of one task, with the events that they belong to. -/
inductive Step (respond : Value → HandlerResponse) (t : TaskId) : Event → View → View → Prop
  | create {v : View} : v.task = none → v.schedule = .idle →
    Step respond t (.create t) v
      { v with task := some new, schedule := .inserted, live := true }
  | accept {v : View} : v.schedule = .inserted →
    Step respond t (.accept t) v { v with schedule := .accepted }
  | refuse {v : View} {l : Local} : v.Shows t l → v.schedule = .inserted →
    Step respond t (.refuse t) v { v.put t (refusal t l) with schedule := .refused }
  /-- A turn begins. -/
  | run {v : View} {l : Local} {faults : Faults} (finishedFuture : Option FutureId) :
    v.ended = false → v.running = false → v.finishing = none → v.Shows t l →
    cancelledUnstarted l.task.state = false →
    Step respond t (.run faults) v
      { v.put t (call faults t finishedFuture l) with
        running := (call faults t finishedFuture l).task.phase ≠ .idle }
  | runCancelled {v : View} {k : HandlerTask} {faults : Faults} :
    v.ended = false → v.running = false → v.finishing = none → v.task = some k →
    cancelledUnstarted k.state = true →
    Step respond t (.run faults) v
      { v with
        task := some { k with state := turnTaken k.state }
        running := true
        finishing := some (.record .internalError (.cancelled k.state.cancelMessage), false)
        fate := .cancelledUnstarted k.state.cancelMessage }
  | resume {v : View} {l : Local} {faults : Faults} {input : Input} :
    v.ended = false → v.running = true → v.finishing = none → v.Shows t l →
    accepts l.task input = true → endingOfInput respond l.task.phase input = none →
    Step respond t (.resume faults input) v
      { v.put t (HandlerTask.resume respond faults t input l) with
        running := (HandlerTask.resume respond faults t input l).task.phase ≠ .idle
        fate := Fate.ofInput input }
  /-- A turn comes to its `finish`. -/
  | resumeEnding {v : View} {k : HandlerTask} {faults : Faults} {input : Input} {ending : TurnEnding} :
    v.ended = false → v.running = true → v.finishing = none → v.task = some k →
    endingOfInput respond k.phase input = some ending →
    Step respond t (.resume faults input) v
      { v with
        finishing := some (.record ending.response ending.completion, ending.entered)
        fate := Fate.ofInput input }
  | finish {v : View} {l : Local} {faults : Faults} {stage next : FinishStage} {entered : Bool} :
    v.ended = false → v.finishing = some (stage, entered) → v.Shows t l →
    (stage.advance faults t l).2 = some next →
    Step respond t (.finish faults) v
      { (v.put t (stage.advance faults t l).1).remember faults l.task stage with
        finishing := some (next, entered) }
  | finishLast {v : View} {l : Local} {faults : Faults} {stage : FinishStage} {entered : Bool} :
    v.ended = false → v.finishing = some (stage, entered) → v.Shows t l →
    (stage.advance faults t l).2 = none →
    Step respond t (.finish faults) v
      { (v.put t (endTurn faults entered (stage.advance faults t l).1)).remember faults
          l.task stage with
        running := false
        finishing := none }
  | endLoop {v : View} : v.ended = false → v.running = false → v.finishing = none →
    Step respond t .endLoop v { v with ended := true }
  | drain {v : View} {c : StopId} {order : List TaskId} : v.disposals c = .none → v.live = true →
    Step respond t (.drain c order) v ({ v with live := false }.setDisposal c .waiting)
  | dispose {v : View} {c : StopId} {k : HandlerTask} : v.disposals c = .waiting →
    v.task = some k → k.state.coroutine.isSome = true →
    Step respond t (.dispose c) v (v.setDisposal c .closing)
  | disposeUnbuilt {v : View} {c : StopId} {k : HandlerTask} : v.disposals c = .waiting →
    v.task = some k → k.state.coroutine = none →
    Step respond t (.dispose c) v
      (v.setDisposal c (.finishing (.record .internalError .aborted)))
  | closed {v : View} {c : StopId} : v.disposals c = .closing →
    Step respond t (.closed c) v
      ({ v with fate := v.fate.close }.setDisposal c
        (.finishing (.record .internalError .aborted)))
  | disposeFinish {v : View} {l : Local} {faults : Faults} {c : StopId} {stage : FinishStage} :
    v.disposals c = .finishing stage → v.Shows t l →
    Step respond t (.disposeFinish faults c) v
      (((v.put t (stage.advance faults t l).1).remember faults l.task stage).setDisposal c
        ((stage.advance faults t l).2.elim .none .finishing))
  /-- A call that has nothing to do with completion. -/
  | call {v : View} {l l' : Local} {e : Event} : v.Shows t l → Quiet t l l' →
    Step respond t e v (v.put t l')
  | addDoneCallback {v : View} {k : HandlerTask} {callback context : Value} : v.task = some k →
    Step respond t (.act (.addDoneCallback t callback context)) v
      { v with
        task := some (if k.state.finished then k else
          { k with state := { k.state with
              doneCallbacks := k.state.doneCallbacks ++ [(callback, context)] } })
        added := v.added ++ [(callback, context)]
        handed := if k.state.finished then v.handed ++ [(callback, context)] else v.handed }
  | removeDoneCallback {v : View} {k : HandlerTask} {callback : Value} : v.task = some k →
    Step respond t (.act (.removeDoneCallback t callback)) v
      { v with
        task := some (removeDoneCallback callback k)
        added := if k.state.finished then v.added else v.added.filter (·.1 ≠ callback) }
  | finishAgain {v : View} {l : Local} {faults : Faults} {response : HandlerResponse}
      {completion : CompletionKind} :
    v.Shows t l → l.task.state.finished = true → v.responses ≠ [] →
    Step respond t (.finishAgain faults t response completion) v
      (v.put t (HandlerTask.finish faults t response completion l))

/-- What keeps the lists of tasks apart. -/
structure Tidy (s : Lifecycle) : Prop where
  live_nodup : s.live.Nodup
  live_task : ∀ t ∈ s.live, (s.loop.tasks t).isSome = true
  stops_nodup : ∀ c, (s.stops c).tasks.Nodup
  stops_task : ∀ c, ∀ t ∈ (s.stops c).tasks, (s.loop.tasks t).isSome = true
  inserted_task : ∀ t, s.schedules t = .inserted → (s.loop.tasks t).isSome = true
  finishing : ∀ t stage entered, s.finishing = some (t, stage, entered) →
    s.loop.running = some t ∧ (s.loop.tasks t).isSome = true

section

variable {s : Lifecycle} {t t' : TaskId} {k : HandlerTask} {l : Local}
  {respond : Value → HandlerResponse}

/-- The view of a task shows its data. -/
theorem shows_of_task (hk : s.loop.tasks t = some k) :
    (view s t).Shows t ⟨s.loop.world, k⟩ := by
  simp only [View.Shows, View.put, view, responsesOf, hk]

/-- A view shows the `finish` that the loop runs for its task. -/
theorem view_finishing {stage : FinishStage} {entered : Bool} :
    (view s t).finishing = some (stage, entered) ↔ s.finishing = some (t, stage, entered) := by
  simp only [view, Option.bind_eq_some_iff, Option.ite_none_right_eq_some, Option.some.injEq,
    Prod.exists, Prod.mk.injEq]
  constructor
  · rintro ⟨t', stage', entered', h, rfl, rfl, rfl⟩
    exact h
  · exact fun h => ⟨t, stage, entered, h, rfl, rfl, rfl⟩

/-- A stop call that is in the `finish` of a task disposes of that task. -/
theorem disposalOf_eq_finishing {call : StopCall} {stage : FinishStage}
    (h : disposalOf t call = .finishing stage) : ∃ rest, call = .finishing t stage rest := by
  cases call with
  | finishing t' stage' rest =>
    simp only [disposalOf] at h
    split at h
    · next ht =>
      cases h
      exact ⟨rest, ht ▸ rfl⟩
    · split at h <;> cases h
  | disposing rest =>
    simp only [disposalOf] at h
    split at h <;> cases h
  | closing t' rest =>
    simp only [disposalOf] at h
    split at h
    · cases h
    · split at h <;> cases h
  | _ => cases h

/-- A `stop` call has nothing to do with a task that it does not refer to. -/
theorem disposalOf_eq_none {call : StopCall} : disposalOf t call = .none ↔ t ∉ call.tasks := by
  cases call with
  | disposing rest => by_cases hmem : t ∈ rest <;> simp [disposalOf, StopCall.tasks, hmem]
  | closing t' rest =>
    by_cases ht : t' = t
    · simp [disposalOf, StopCall.tasks, ht]
    · by_cases hmem : t ∈ rest <;> simp [disposalOf, StopCall.tasks, ht, Ne.symm ht, hmem]
  | finishing t' stage rest =>
    by_cases ht : t' = t
    · simp [disposalOf, StopCall.tasks, ht]
    · by_cases hmem : t ∈ rest <;> simp [disposalOf, StopCall.tasks, ht, Ne.symm ht, hmem]
  | _ => simp [disposalOf, StopCall.tasks]

/-- A task sees what it is written back as. -/
theorem view_put_self : view { s with loop := s.loop.put t l } t = (view s t).put t l := by
  simp only [view, View.put, Loop.put, responsesOf, Function.update_self]
  rfl

/-- Nothing that the view is about has changed. -/
theorem view_congr {s' : Lifecycle} (haside : Aside t s.loop.world s'.loop.world)
    (htask : s'.loop.tasks t = s.loop.tasks t)
    (hrunning : s'.loop.running = some t ↔ s.loop.running = some t)
    (hended : s'.ended = s.ended) (hschedule : s'.schedules t = s.schedules t)
    (hfinishing : (view s' t).finishing = (view s t).finishing)
    (hdisposals : (view s' t).disposals = (view s t).disposals)
    (hcompletions : (view s' t).completions = (view s t).completions)
    (hadded : s'.added t = s.added t) (hhanded : s'.handed t = s.handed t)
    (herrors : t ∈ s'.unregisterErrors ↔ t ∈ s.unregisterErrors)
    (hfate : s'.fate t = s.fate t) : view s' t = view s t := by
  ext : 1
  case finishing => exact hfinishing
  case disposals => exact hdisposals
  case completions => exact hcompletions
  all_goals simp only [view, responsesOf, haside.live, haside.registered, haside.responses,
    haside.operations, htask, hrunning, hended, hschedule, hadded, hhanded, herrors, hfate]

/-- A task sees nothing of a world that is the same for it. -/
theorem view_setWorld {w : World LoopHandles} (haside : Aside t s.loop.world w) :
    view (s.setWorld w) t = view s t :=
  view_congr haside rfl .rfl rfl rfl rfl rfl rfl rfl rfl .rfl rfl

/-- A task sees nothing of another one that is written back. -/
theorem view_put_of_ne (ht : t' ≠ t) (haside : Aside t' s.loop.world l.world) :
    view { s with loop := s.loop.put t l } t' = view s t' :=
  view_congr haside (by simp [Loop.put, ht]) .rfl rfl rfl rfl rfl rfl rfl rfl .rfl rfl

/-- What happens on a task is written back. -/
theorem modify_of_task (hk : s.loop.tasks t = some k) (g : Local → Local) :
    s.loop.modify t g = s.loop.put t (g ⟨s.loop.world, k⟩) := by
  simp [Loop.modify, hk]

end

end Rayo.Lifecycle
