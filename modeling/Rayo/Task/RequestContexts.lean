import Rayo.Task.ContextStore

/-!
# The requests of a loop with their contexts

The handle that first steps a task runs in a copy of the context of the thread that scheduled it,
and the context of the task is copied from there once its coroutine has been built. Whoever has
control may set variables in the current context, and in any other context that it can get hold of
and that is not entered, as `Context.run` does.
-/

namespace Rayo

open Asyncio

/-- A loop with the contexts of its thread. -/
structure Requests where
  loop : Loop LoopHandles HandlerTask
  store : ContextStore

namespace Requests

open HandlerTask

/-- The events of the loop, with the context that a handle runs in and what it holds, and the
setting of a variable. -/
inductive Event
  | run (faults : Faults) (context : Value) (handed : Contents)
  | resume (faults : Faults) (input : Input)
  | act (a : Action)
  | set (writer : Option TaskId) (context : Value) (x : ContextVar) (value : Value)

/-- The current context. -/
def current (s : Requests) : Option Value := s.loop.world.contexts.head?

/-- `ContextVar.get`, in the current context. -/
def get (s : Requests) (x : ContextVar) : Option Entry :=
  s.current.bind fun context => s.store.contents context x

/-- The task whose code has control. -/
def runningTask (s : Requests) : Option HandlerTask := s.loop.running.bind s.loop.tasks

section

variable (respond : Value → HandlerResponse) (threadValues : TaskId → ContextVar → Option Value)

/-- What the context of a handle holds. The handle that first steps a task was queued by
`EventLoop::schedule`, so its context is a copy of the context of the thread that called it,
where no request's code runs. -/
def handedTo (s : Requests) (handed : Contents) : Handle → Contents
  | .step t _ | .wake t _ =>
    if (s.loop.tasks t).all (·.state.context.isNone) then
      fun x => (threadValues t x).map (Entry.mk none)
    else handed
  | .cancel _ | .doneCallback .. => handed

/-- `Handle._run` enters the context of the handle. -/
def enterHandle (s : Requests) (context : Value) (contents : Contents) : Requests where
  loop := { s.loop with world := s.loop.world.enterContext context }
  store := s.store.handle context contents

/-- It exits the context once the callback is over. -/
def exitHandle (s : Requests) : Requests :=
  if s.loop.running.isNone then
    { s with loop := { s.loop with world := s.loop.world.exitContext } }
  else s

/-- The copy of the current context that a starting task makes. -/
def copyContext (s : Requests) (faults : Faults) (input : Input) : Requests :=
  match s.loop.running, s.current, s.runningTask.bind (copiedContext faults · input) with
  | some t, some current, some context => { s with store := s.store.copy t current context }
  | _, _, _ => s

/-- The context that Python code hands back is a new object. -/
def isNew (s : Requests) : Input → Bool
  | .factoryReturned _ context => context ∉ s.store.made
  | _ => true

/-- When an event can happen. A context that has been entered cannot be entered once more. -/
def enabled (s : Requests) : Event → Bool
  | .run faults context _ =>
    Loop.enabled (driver respond) s.loop (.run faults) && decide (context ∉ s.store.made)
  | .resume faults input =>
    Loop.enabled (driver respond) s.loop (.resume faults input) && s.isNew input
  | .act a => Loop.enabled (driver respond) s.loop (.act a)
  | .set writer context _ _ => match s.loop.running with
    | some t => writer = some t ∧ (s.current = some context ∨ context ∉ s.loop.world.contexts)
    | none => context ∉ s.loop.world.contexts

/-- What an event does. -/
def effect (s : Requests) : Event → Requests
  | .run faults context handed => match s.loop.world.ready with
    | [] => s
    | h :: _ =>
      let s := s.enterHandle context (s.handedTo threadValues handed h)
      exitHandle { s with loop := s.loop.effect (driver respond) (.run faults) }
  | .resume faults input =>
    let s' := s.copyContext faults input
    exitHandle { s' with loop := s.loop.effect (driver respond) (.resume faults input) }
  | .act a => { s with loop := s.loop.effect (driver respond) (.act a) }
  | .set writer context x value =>
    { s with store := s.store.set s.loop.running context x ⟨writer, value⟩ }

/-- A loop that has not run yet, on a thread in the context `root`. -/
structure Fresh (root : Value) (s : Requests) : Prop where
  loop : Loop.Fresh (driver respond) { s.loop with world := s.loop.world.exitContext }
  contexts : s.loop.world.contexts = [root]
  made : s.store.made = [root]
  built : ∀ t, s.store.built t = none

/-- All runs of the requests of one loop. -/
def system (root : Value) : Transition.System Requests Event where
  init := Fresh respond root
  enabled := enabled respond
  effect := effect respond threadValues

end

/-- The calls that leave a task and exit its context succeed. -/
def leavesSucceed (_ : Requests) : Event → Bool
  | .run faults _ _ | .resume faults _ => decide (LeavesSucceed faults)
  | .act _ | .set .. => true

/-- Nothing of a turn has happened: tasks keep their phase and their context, and new ones have
neither. -/
structure Aside (loop loop' : Loop LoopHandles HandlerTask) : Prop where
  running : loop'.running = loop.running
  brackets : loop'.world.brackets = loop.world.brackets
  tasks : ∀ t, loop'.tasks t = loop.tasks t ∨
    (∃ k k', loop.tasks t = some k ∧ loop'.tasks t = some k' ∧ k'.phase = k.phase ∧
      k'.state.context = k.state.context) ∨
    (loop.tasks t = none ∧ loop'.tasks t = some new)

namespace Aside

variable {loop loop' : Loop LoopHandles HandlerTask} {respond : Value → HandlerResponse}

/-- Only the world has changed. -/
theorem world {w : World LoopHandles} (hbrackets : w.brackets = loop.world.brackets) :
    Aside loop { loop with world := w } :=
  ⟨rfl, hbrackets, fun _ => .inl rfl⟩

/-- A call on a task that leaves its phase and its context alone. -/
theorem modify {w : World LoopHandles} (hbrackets : w.brackets = loop.world.brackets) (t : TaskId)
    {g : HandlerTask.Local → HandlerTask.Local}
    (hg : ∀ l, (g l).world.brackets = l.world.brackets ∧ (g l).task.phase = l.task.phase ∧
      (g l).task.state.context = l.task.state.context) :
    Aside loop (({ loop with world := w } : Loop LoopHandles HandlerTask).modify t g) := by
  unfold Loop.modify
  split
  · next k hk =>
    obtain ⟨hworld, hphase, hcontext⟩ := hg ⟨w, k⟩
    refine ⟨rfl, hworld.trans hbrackets, fun t' => ?_⟩
    by_cases ht : t' = t
    · subst ht
      exact .inr (.inl ⟨k, _, hk, Function.update_self _ _ _, hphase, hcontext⟩)
    · exact .inl (Function.update_of_ne ht _ _)
  · exact world hbrackets

/-- A cancellation is no part of a turn. -/
theorem cancelTask {w : World LoopHandles} (hbrackets : w.brackets = loop.world.brackets)
    (t : TaskId) (message : Option Value) :
    Aside loop (({ loop with world := w } : Loop LoopHandles HandlerTask).modify t
      (Loop.cancelTask (driver respond) t message)) :=
  modify hbrackets t fun l =>
    ⟨brackets_cancel t message l, cancel_phase t message l, cancel_context t message l⟩

/-- Actions. -/
theorem act (a : Action) (henabled : Loop.enabled (driver respond) loop (.act a) = true) :
    Aside loop (loop.actEffect (driver respond) a) := by
  cases a with
  | schedule t =>
    have habsent : loop.tasks t = none := by simpa [Loop.enabled] using henabled
    refine ⟨rfl, rfl, fun t' => ?_⟩
    by_cases ht : t' = t
    · subst ht
      exact .inr (.inr ⟨habsent, Function.update_self _ _ _⟩)
    · exact .inl (Function.update_of_ne ht _ _)
  | postCancel t => exact world (World.brackets_callSoon _ _)
  | cancel t message => exact cancelTask rfl t message
  | uncancel t => exact modify rfl t fun l => ⟨rfl, rfl, rfl⟩
  | cancelling t => exact modify rfl t fun l => ⟨rfl, rfl, rfl⟩
  | addDoneCallback t callback context =>
    refine modify rfl t fun l => ?_
    simp only [driver, addDoneCallback]
    split
    · exact ⟨World.brackets_callSoon _ _, rfl, rfl⟩
    · exact ⟨rfl, rfl, rfl⟩
  | removeDoneCallback t callback => exact modify rfl t fun l => ⟨rfl, rfl, rfl⟩
  | complete f status => exact world (World.brackets_complete _ f status)
  | cancelFuture f message => exact world (World.brackets_cancelFuture _ f message)
  | setBlocking f blocking => exact world (World.brackets_setFuture _ f _)
  | setCancelMode f mode => exact world (World.brackets_setFuture _ f _)

end Aside

end Requests

end Rayo
