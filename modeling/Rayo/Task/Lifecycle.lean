import Rayo.Dispatch.EventLoop
import Rayo.Task.Completion

/-!
# Tasks from `schedule` to their response

One event loop with everything that reaches its tasks: the threads that schedule and drop
requests, the loop thread that runs turns, any number of `EventLoop::stop` calls that dispose of
tasks, and the methods of a task, which any thread may call. A turn is atomic up to its `finish`,
whose accesses are single steps on whichever thread performs them. Wakes may be stale or doubled.
-/

namespace Rayo

open Asyncio HandlerTask

/-- How far `EventLoop::schedule` is with a request. -/
inductive ScheduleCall
  | idle
  /-- The task is in `live_tasks`. -/
  | inserted
  /-- `call_soon_threadsafe` did not raise. -/
  | accepted
  | refused
  deriving DecidableEq

/-- How far a call of `EventLoop::stop` is. -/
inductive StopCall
  | idle
  /-- It took the join handle, and joins the loop thread. -/
  | joining
  | draining
  /-- It is about to dispose of these tasks. -/
  | disposing (rest : List TaskId)
  /-- The coroutine of a task is being closed. -/
  | closing (t : TaskId) (rest : List TaskId)
  | finishing (t : TaskId) (stage : FinishStage) (rest : List TaskId)
  | returned

/-- The tasks that a `stop` call still refers to. -/
def StopCall.tasks : StopCall → List TaskId
  | .disposing rest => rest
  | .closing t rest | .finishing t _ rest => t :: rest
  | .idle | .joining | .draining | .returned => []

/-- What has become of the coroutine of a task. -/
inductive Fate
  | unbuilt
  | factoryRaised (e : Exception)
  /-- The task was cancelled before its first step. -/
  | cancelledUnstarted (message : Option Value)
  /-- The coroutine exists and is not over. -/
  | alive
  | returned (value : Value)
  | raised (e : Exception)
  /-- `close()` has been called on it. -/
  | closed
  deriving DecidableEq

/-- What Python code tells about the coroutine when it hands control back. -/
def Fate.ofInput : Input → Fate
  | .factoryReturned .. | .yielded _ => .alive
  | .factoryRaised e => .factoryRaised e
  | .returned value => .returned value
  | .raised e => .raised e
  | .closed => .closed

/-- Closing a coroutine that is over changes nothing. -/
def Fate.close : Fate → Fate
  | .alive => .closed
  | fate => fate

/-- An event loop, the threads that use it, and the history of its tasks. -/
structure Lifecycle where
  loop : Loop LoopHandles HandlerTask
  /-- The `finish` that the loop thread is in the middle of, and whether the turn has a context
  to leave after it. -/
  finishing : Option (TaskId × FinishStage × Bool)
  /-- The loop thread has ended. -/
  ended : Bool
  schedules : TaskId → ScheduleCall
  /-- `EventLoop::thread` still holds the join handle. -/
  thread : Bool
  stops : StopId → StopCall
  /-- The `stop` calls that have begun. -/
  callers : List StopId
  /-- History: every time a task went through the terminal bookkeeping. -/
  completions : List (TaskId × CompletionKind)
  /-- History: the done callbacks that were added and not removed again. -/
  added : TaskId → List (Value × Value)
  /-- History: the done callbacks that were handed to `call_soon`. -/
  handed : TaskId → List (Value × Value)
  /-- History: the tasks whose `unregister_task` raised. -/
  unregisterErrors : List TaskId
  fate : TaskId → Fate

namespace Lifecycle

/-- The events of all threads. -/
inductive Event
  -- `EventLoop::schedule`
  | create (t : TaskId)
  | accept (t : TaskId)
  | refuse (t : TaskId)
  -- the loop thread
  | run (faults : Faults)
  | resume (faults : Faults) (input : Input)
  | finish (faults : Faults)
  | endLoop
  -- `EventLoop::stop`
  | takeHandle (c : StopId)
  | join (c : StopId)
  | drain (c : StopId) (order : List TaskId)
  | dispose (c : StopId)
  | closed (c : StopId)
  | disposeFinish (faults : Faults) (c : StopId)
  | stopReturns (c : StopId)
  -- any thread
  | act (a : Action)
  | setName (t : TaskId) (name : Value)
  | wake (t : TaskId) (finishedFuture : Option FutureId)
  | dropRequest (t : TaskId)
  /-- `finish` once more, after the response was sent. -/
  | finishAgain (faults : Faults) (t : TaskId) (response : HandlerResponse)
      (completion : CompletionKind)

/-- The tasks in `live_tasks`. -/
abbrev live (s : Lifecycle) : List TaskId := s.loop.world.shared.liveTasks

/-- The tasks in asyncio's registry. -/
abbrev registered (s : Lifecycle) : List TaskId := s.loop.world.registered

/-- The responses that were put on the channel of a task, newest first. -/
def responsesOf (s : Lifecycle) (t : TaskId) : List (TaskId × HandlerResponse) :=
  s.loop.world.shared.responses.filter (·.1 = t)

/-- The task was finished. -/
def finished (s : Lifecycle) (t : TaskId) : Bool :=
  (s.loop.tasks t).any (·.state.finished)

/-- The task that a handle steps. -/
def stepped : Handle → Option TaskId
  | .step t _ | .wake t _ => some t
  | .cancel _ | .doneCallback .. => none

/-- The task of the oldest handle, if it was cancelled before its coroutine was built. -/
def nextCancelled (s : Loop LoopHandles HandlerTask) : Option (TaskId × HandlerTask) := do
  let h ← s.world.ready.head?
  let t ← stepped h
  let k ← s.tasks t
  if cancelledUnstarted k.state then some (t, k) else none

/-- Take the oldest handle out of the queue. -/
def pop (s : Loop LoopHandles HandlerTask) : Loop LoopHandles HandlerTask :=
  { s with world := { s.world with ready := s.world.ready.tail } }

/-- The task whose turn it is. -/
def runningTask (s : Loop LoopHandles HandlerTask) : Option (TaskId × HandlerTask) := do
  let t ← s.running
  let k ← s.tasks t
  return (t, k)

/-- Set how far a `stop` call is. -/
def setStop (s : Lifecycle) (c : StopId) (call : StopCall) : Lifecycle :=
  { s with stops := Function.update s.stops c call }

/-- Change the data of the loop. -/
def setWorld (s : Lifecycle) (w : World LoopHandles) : Lifecycle :=
  { s with loop := { s.loop with world := w } }

/-- What the histories note of a stage of `finish`. -/
def remember (s : Lifecycle) (faults : Faults) (t : TaskId) (k : HandlerTask) :
    FinishStage → Lifecycle
  | .record _ completion =>
    if k.state.finished then s else { s with completions := (t, completion) :: s.completions }
  | .unregister _ true _ =>
    if faults.unregisterTask then { s with unregisterErrors := t :: s.unregisterErrors } else s
  | .fire _ (entry :: _) =>
    { s with handed := Function.update s.handed t (s.handed t ++ [entry]) }
  | _ => s

/-- One stage of a `finish`, on whichever thread, and what is left of it. -/
def work (s : Lifecycle) (faults : Faults) (t : TaskId) (stage : FinishStage) :
    Lifecycle × Option FinishStage :=
  match s.loop.tasks t with
  | none => (s, none)
  | some k =>
    let (l, next) := stage.advance faults t ⟨s.loop.world, k⟩
    ({ s.remember faults t k stage with loop := s.loop.put t l }, next)

/-- The error path of `EventLoop::schedule`. -/
def refusal (t : TaskId) (l : Local) : Local :=
  send t .internalError (HandlerTask.setWorld l (removeLive t l.world))

/-- The method `set_name`, whose argument has been converted to a string. -/
def setNameOf (name : Value) (l : Local) : Local :=
  setState l { l.task.state with name := some name }

/-- What the histories note of a call on a task. -/
def noteAction (s : Lifecycle) : Action → Lifecycle
  | .addDoneCallback t callback context =>
    { s with
      added := Function.update s.added t (s.added t ++ [(callback, context)])
      handed := if s.finished t then
          Function.update s.handed t (s.handed t ++ [(callback, context)])
        else s.handed }
  | .removeDoneCallback t callback =>
    if s.finished t then s
    else { s with added := Function.update s.added t ((s.added t).filter (·.1 ≠ callback)) }
  | _ => s

section

variable (respond : Value → HandlerResponse)

/-- When an event can happen. A hash map drains in an arbitrary order. -/
def enabled (s : Lifecycle) : Event → Bool
  | .create t => (s.loop.tasks t).isNone && s.schedules t = .idle
  | .accept t | .refuse t => s.schedules t = .inserted
  | .run faults => !s.ended && s.finishing.isNone && s.loop.enabled (driver respond) (.run faults)
  | .resume faults input =>
    !s.ended && s.finishing.isNone && s.loop.enabled (driver respond) (.resume faults input)
  | .finish _ => !s.ended && s.finishing.isSome
  | .endLoop => !s.ended && s.finishing.isNone && s.loop.running.isNone
  | .takeHandle c => match s.stops c with
    | .idle => true
    | _ => false
  | .join c => match s.stops c with
    | .joining => s.ended
    | _ => false
  | .drain c order => match s.stops c with
    | .draining => order.Perm s.live
    | _ => false
  | .dispose c => match s.stops c with
    | .disposing (_ :: _) => true
    | _ => false
  | .closed c => match s.stops c with
    | .closing .. => true
    | _ => false
  | .disposeFinish _ c => match s.stops c with
    | .finishing .. => true
    | _ => false
  | .stopReturns c => match s.stops c with
    | .disposing [] => true
    | _ => false
  | .act (.schedule _) => false
  | .act a => s.loop.enabled (driver respond) (.act a)
  | .setName t _ | .wake t _ | .dropRequest t => (s.loop.tasks t).isSome
  | .finishAgain _ t _ _ => s.finished t && !(s.responsesOf t).isEmpty

/-- What an event does. A loop thread that ends has closed its loop, which discards the queue. -/
def effect (s : Lifecycle) : Event → Lifecycle
  | .create t =>
    { s with
      loop := { s.loop with
        world := HandlerTask.accept t s.loop.world
        tasks := Function.update s.loop.tasks t (some new) }
      schedules := Function.update s.schedules t .inserted }
  | .accept t =>
    { s.setWorld (s.loop.world.callSoon (.step t none)) with
      schedules := Function.update s.schedules t .accepted }
  | .refuse t =>
    { s with
      loop := s.loop.modify t (refusal t)
      schedules := Function.update s.schedules t .refused }
  | .run faults => match nextCancelled s.loop with
    | some (t, k) =>
      { s with
        loop := { (pop s.loop).put t (setState ⟨(pop s.loop).world, k⟩ (turnTaken k.state)) with
          running := some t }
        finishing := some (t, .record .internalError (.cancelled k.state.cancelMessage), false)
        fate := Function.update s.fate t (.cancelledUnstarted k.state.cancelMessage) }
    | none => { s with loop := s.loop.effect (driver respond) (.run faults) }
  | .resume faults input => match runningTask s.loop with
    | none => s
    | some (t, k) =>
      let s := { s with fate := Function.update s.fate t (Fate.ofInput input) }
      match endingOfInput respond k.phase input with
      | some ending =>
        { s with
          finishing := some (t, .record ending.response ending.completion, ending.entered) }
      | none => { s with loop := s.loop.effect (driver respond) (.resume faults input) }
  | .finish faults => match s.finishing with
    | none => s
    | some (t, stage, entered) =>
      let (s, next) := s.work faults t stage
      match next with
      | some stage => { s with finishing := some (t, stage, entered) }
      | none =>
        { s with
          finishing := none
          loop := { s.loop.modify t (endTurn faults entered) with running := none } }
  | .endLoop => { s.setWorld { s.loop.world with ready := [] } with ended := true }
  | .takeHandle c =>
    { s.setStop c (if s.thread then .joining else .draining) with
      thread := false
      callers := c :: s.callers }
  | .join c => s.setStop c .draining
  | .drain c order =>
    (s.setWorld { s.loop.world with
      shared := { s.loop.world.shared with liveTasks := [] } }).setStop c (.disposing order)
  | .dispose c => match s.stops c with
    | .disposing (t :: rest) =>
      if (s.loop.tasks t).any (·.state.coroutine.isSome) then s.setStop c (.closing t rest)
      else s.setStop c (.finishing t (.record .internalError .aborted) rest)
    | _ => s
  | .closed c => match s.stops c with
    | .closing t rest =>
      { s.setStop c (.finishing t (.record .internalError .aborted) rest) with
        fate := Function.update s.fate t (s.fate t).close }
    | _ => s
  | .disposeFinish faults c => match s.stops c with
    | .finishing t stage rest =>
      let (s, next) := s.work faults t stage
      s.setStop c (next.elim (.disposing rest) (.finishing t · rest))
    | _ => s
  | .stopReturns c => s.setStop c .returned
  | .act a => { s.noteAction a with loop := s.loop.effect (driver respond) (.act a) }
  | .setName t name => { s with loop := s.loop.modify t (setNameOf name) }
  | .wake t finishedFuture =>
    s.setWorld (s.loop.world.callSoon (finishedFuture.elim (.step t none) (.wake t)))
  | .dropRequest t =>
    if s.finished t then s else s.setWorld (s.loop.world.callSoon (.cancel t))
  | .finishAgain faults t response completion =>
    { s with loop := s.loop.modify t (HandlerTask.finish faults t response completion) }

/-- A loop that has just been started. -/
structure Fresh (s : Lifecycle) : Prop where
  loop : Loop.Fresh (driver respond) s.loop
  finishing : s.finishing = none
  ended : s.ended = false
  schedules : ∀ t, s.schedules t = .idle
  thread : s.thread = true
  stops : ∀ c, s.stops c = .idle
  callers : s.callers = []
  completions : s.completions = []
  added : ∀ t, s.added t = []
  handed : ∀ t, s.handed t = []
  unregisterErrors : s.unregisterErrors = []
  fate : ∀ t, s.fate t = .unbuilt

/-- All runs of one event loop with its tasks. -/
def system : Transition.System Lifecycle Event where
  init := Fresh respond
  enabled := enabled respond
  effect := effect respond

end

/-- A loop with these futures that has just been started. -/
def fresh (futures : FutureId → Future) : Lifecycle where
  loop := Loop.fresh (driver fun _ => .noContent) 0 futures
  finishing := none
  ended := false
  schedules _ := .idle
  thread := true
  stops _ := .idle
  callers := []
  completions := []
  added _ := []
  handed _ := []
  unregisterErrors := []
  fate _ := .unbuilt

/-- A loop that has just been started is fresh. -/
theorem Fresh.fresh (respond : Value → HandlerResponse) {futures : FutureId → Future}
    (hcallbacks : ∀ f, (futures f).callbacks = []) : Fresh respond (fresh futures) :=
  ⟨Loop.Fresh.fresh (driver respond) hcallbacks, rfl, rfl, fun _ => rfl, rfl, fun _ => rfl, rfl,
    rfl, fun _ => rfl, fun _ => rfl, rfl, fun _ => rfl⟩

/-- Futures that nothing waits for. -/
def unawaited : FutureId → Future := fun _ => ⟨none, false, .pending, .completes, []⟩

/-- The handler of the task `0` is called and returns its coroutine. -/
def startOfHandler (faults : Faults) : List Event :=
  [.create 0, .accept 0, .run .none, .resume faults (.factoryReturned 1 2)]

/-- The seven accesses of a `finish` without callbacks. -/
def wholeFinish : List Event := List.replicate 7 (.finish .none)

end Lifecycle

end Rayo
