import Rayo.Asyncio.World
import Rayo.Transition

/-!
# An event loop that drives coroutines

A driver says how a task is stepped. The coroutines themselves are adversaries: whenever
one has control it may act on any task and any future, in any order, before it hands
control back with an arbitrary outcome. Actions may also come while no coroutine runs,
from other callbacks. The calls that a driver makes into Python may fail.
-/

namespace Asyncio

/-- Which of the calls that a driver makes fail during one turn. -/
structure Faults where
  contextCopy : Bool
  registerTask : Bool
  unregisterTask : Bool
  enterTask : Bool
  leaveTask : Bool
  enterContext : Bool
  exitContext : Bool
  setBlocking : Bool
  addDoneCallback : Bool
  callSoon : Bool
  /-- `call_soon` fails for this done callback. -/
  doneCallback : Value → Bool

/-- Nothing fails. -/
def Faults.none : Faults where
  contextCopy := false
  registerTask := false
  unregisterTask := false
  enterTask := false
  leaveTask := false
  enterContext := false
  exitContext := false
  setBlocking := false
  addDoneCallback := false
  callSoon := false
  doneCallback _ := false

/-- What a coroutine yields: `None`, a future, or an object without the blocking flag,
whose type may have a name. -/
inductive Yielded
  | none
  | future (f : FutureId)
  | object (typeName : Option String)
  deriving DecidableEq

/-- How Python code that a driver has called hands control back. -/
inductive Input
  /-- The handler has returned a coroutine, and this is the context copied for it. -/
  | factoryReturned (coroutine context : Value)
  | factoryRaised (e : Exception)
  | returned (value : Value)
  | raised (e : Exception)
  | yielded (y : Yielded)
  /-- `coroutine.close()` is over. -/
  | closed

/-- A task together with the data it shares. -/
structure Local (ρ σ : Type) where
  world : World ρ
  task : σ

/-- How the tasks of a loop are driven. -/
structure Driver (ρ σ : Type) where
  /-- The shared data of a fresh loop. -/
  shared : ρ
  /-- A task that has not run yet. -/
  fresh : σ
  /-- What accepting a task does to the shared data. -/
  accept : TaskId → World ρ → World ρ
  /-- Python code that the task has called is running. -/
  busy : σ → Bool
  /-- The running Python code can hand control back in this way. -/
  accepts : σ → Input → Bool
  /-- The loop runs a handle of the task. -/
  call : Faults → TaskId → Option Exception → Option FutureId → Local ρ σ → Local ρ σ
  /-- The running Python code hands control back. -/
  resume : Faults → TaskId → Input → Local ρ σ → Local ρ σ
  cancel : TaskId → Option Value → Local ρ σ → Local ρ σ × CancelReply
  uncancel : σ → σ × ℕ
  cancelling : σ → ℕ
  addDoneCallback : TaskId → Value → Value → Local ρ σ → Local ρ σ
  removeDoneCallback : Value → σ → σ

/-- An event loop with its tasks. -/
structure Loop (ρ σ : Type) where
  world : World ρ
  /-- The tasks that the loop has accepted. -/
  tasks : TaskId → Option σ
  /-- The task whose Python code has control. -/
  running : Option TaskId

/-- What Python code can do while it has control, and other threads at any time. -/
inductive Action
  | schedule (t : TaskId)
  | postCancel (t : TaskId)
  | cancel (t : TaskId) (message : Option Value)
  | uncancel (t : TaskId)
  | cancelling (t : TaskId)
  | addDoneCallback (t : TaskId) (callback context : Value)
  | removeDoneCallback (t : TaskId) (callback : Value)
  | complete (f : FutureId) (status : Status)
  | cancelFuture (f : FutureId) (message : Option Value)
  | setBlocking (f : FutureId) (blocking : Bool)
  | setCancelMode (f : FutureId) (mode : CancelMode)
  deriving DecidableEq

/-- The task that an action is a call on. -/
def Action.task : Action → Option TaskId
  | .postCancel t | .cancel t _ | .uncancel t | .cancelling t | .addDoneCallback t _ _
  | .removeDoneCallback t _ => some t
  | .schedule _ | .complete .. | .cancelFuture .. | .setBlocking .. | .setCancelMode .. => none

/-- The events of a loop. -/
inductive Event
  /-- The loop runs the oldest handle of its queue. -/
  | run (faults : Faults)
  /-- The running Python code hands control back. -/
  | resume (faults : Faults) (input : Input)
  | act (a : Action)

namespace Loop

variable {ρ σ : Type} (D : Driver ρ σ)

/-- Put a task and the shared data back. -/
def put (s : Loop ρ σ) (t : TaskId) (l : Local ρ σ) : Loop ρ σ :=
  { s with world := l.world, tasks := Function.update s.tasks t (some l.task) }

/-- The task that has been put is there. -/
theorem put_tasks_self (s : Loop ρ σ) (t : TaskId) (l : Local ρ σ) :
    (s.put t l).tasks t = some l.task := Function.update_self _ _ _

/-- The other tasks are still there. -/
theorem put_tasks_of_ne (s : Loop ρ σ) {t t' : TaskId} (ht : t' ≠ t) (l : Local ρ σ) :
    (s.put t l).tasks t' = s.tasks t' := Function.update_of_ne ht _ _

/-- Let a task change itself and the shared data. -/
def modify (s : Loop ρ σ) (t : TaskId) (g : Local ρ σ → Local ρ σ) : Loop ρ σ :=
  match s.tasks t with
  | some k => s.put t (g ⟨s.world, k⟩)
  | none => s

/-- Let a task run until Python code has control, or the turn is over. -/
def drive (s : Loop ρ σ) (t : TaskId) (g : Local ρ σ → Local ρ σ) : Loop ρ σ :=
  match s.tasks t with
  | some k =>
    { s.put t (g ⟨s.world, k⟩) with
      running := if D.busy (g ⟨s.world, k⟩).task then some t else none }
  | none => s

/-- Only what happens to the task as it is matters. -/
theorem drive_congr {s : Loop ρ σ} {t : TaskId} {g g' : Local ρ σ → Local ρ σ}
    (h : ∀ k, s.tasks t = some k → g ⟨s.world, k⟩ = g' ⟨s.world, k⟩) :
    s.drive D t g = s.drive D t g' := by
  unfold drive
  split
  · next k hk => rw [h k hk]
  · rfl

/-- Driving a task twice is driving it once. -/
theorem drive_drive (s : Loop ρ σ) (t : TaskId) (g g' : Local ρ σ → Local ρ σ) :
    (s.drive D t g).drive D t g' = s.drive D t (g' ∘ g) := by
  cases hk : s.tasks t <;> simp [drive, put, hk]

/-- `task.cancel(message)`, with its reply in the log. -/
def cancelTask (t : TaskId) (message : Option Value) (l : Local ρ σ) : Local ρ σ :=
  let (l', reply) := D.cancel t message l
  { l' with world := l'.world.note (.cancelReturned t reply) }

/-- `task.uncancel()`, with what it returns in the log. -/
def uncancelTask (t : TaskId) (l : Local ρ σ) : Local ρ σ :=
  let (k, count) := D.uncancel l.task
  ⟨l.world.note (.uncancelReturned t count), k⟩

/-- `task.cancelling()`, with what it returns in the log. -/
def cancellingTask (t : TaskId) (l : Local ρ σ) : Local ρ σ :=
  { l with world := l.world.note (.cancellingReturned t (D.cancelling l.task)) }

/-- `task.remove_done_callback(callback)`. -/
def removeDoneCallback (callback : Value) (l : Local ρ σ) : Local ρ σ :=
  { l with task := D.removeDoneCallback callback l.task }

/-- What an action does. -/
def actEffect (s : Loop ρ σ) : Action → Loop ρ σ
  | .schedule t =>
    { s with
      world := (D.accept t s.world).callSoon (.step t none)
      tasks := Function.update s.tasks t (some D.fresh) }
  | .postCancel t => { s with world := s.world.callSoon (.cancel t) }
  | .cancel t message => s.modify t (cancelTask D t message)
  | .uncancel t => s.modify t (uncancelTask D t)
  | .cancelling t => s.modify t (cancellingTask D t)
  | .addDoneCallback t callback context => s.modify t (D.addDoneCallback t callback context)
  | .removeDoneCallback t callback => s.modify t (removeDoneCallback D callback)
  | .complete f status => { s with world := s.world.complete f status }
  | .cancelFuture f message => { s with world := s.world.cancelFuture f message }
  | .setBlocking f blocking =>
    { s with world := s.world.setFuture f { s.world.futures f with blocking := blocking } }
  | .setCancelMode f mode =>
    { s with world := s.world.setFuture f { s.world.futures f with cancelMode := mode } }

/-- What running a handle does. A done callback of a task is other code, whose actions
follow as actions. -/
def runHandle (faults : Faults) (s : Loop ρ σ) : Handle → Loop ρ σ
  | .step t e => s.drive D t (D.call faults t e none)
  | .wake t f => s.drive D t (D.call faults t none (some f))
  | .cancel t => s.modify t (cancelTask D t none)
  | .doneCallback .. => s

/-- When an event can happen. -/
def enabled (s : Loop ρ σ) : Event → Bool
  | .run _ => s.running.isNone && !s.world.ready.isEmpty
  | .resume _ input => match s.running with
    | some t => (s.tasks t).any (D.accepts · input)
    | none => false
  | .act (.schedule t) => (s.tasks t).isNone
  | .act (.complete f status) => (s.world.futures f).status = .pending ∧ status ≠ .pending
  | .act a => a.task.all fun t => (s.tasks t).isSome

/-- What an event does. -/
def effect (s : Loop ρ σ) : Event → Loop ρ σ
  | .run faults => match s.world.ready with
    | [] => s
    | h :: rest => { s with world := { s.world with ready := rest } }.runHandle D faults h
  | .resume faults input => match s.running with
    | some t => s.drive D t (D.resume faults t input)
    | none => s
  | .act a => s.actEffect D a

/-- A loop that has not run yet. Its futures may be in any state. -/
structure Fresh (s : Loop ρ σ) : Prop where
  tasks : ∀ t, s.tasks t = none
  running : s.running = none
  callbacks : ∀ f, (s.world.futures f).callbacks = []
  ready : s.world.ready = []
  currentTask : s.world.currentTask = none
  contexts : s.world.contexts = []
  registered : s.world.registered = []
  log : s.world.log = []
  shared : s.world.shared = D.shared

/-- A fresh loop with these futures. -/
def fresh (loop : LoopId) (futures : FutureId → Future) : Loop ρ σ where
  world := ⟨loop, futures, [], none, [], [], [], D.shared⟩
  tasks _ := none
  running := none

/-- A loop that has just been started is fresh. -/
theorem Fresh.fresh {loop : LoopId} {futures : FutureId → Future}
    (hcallbacks : ∀ f, (futures f).callbacks = []) : Fresh D (fresh D loop futures) :=
  ⟨fun _ => rfl, rfl, hcallbacks, rfl, rfl, rfl, rfl, rfl, rfl⟩

/-- All runs of a loop. -/
def system : Transition.System (Loop ρ σ) Event where
  init := Fresh D
  enabled := enabled D
  effect := effect D

end Loop

end Asyncio
