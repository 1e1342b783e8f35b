import Rayo.Dispatch.Channel
import Rayo.Transition

/-!
# The threads around one event loop

Any number of server threads run `EventLoop::schedule`, one per request, while the
loop thread steps tasks and any number of callers run `EventLoop::stop`. The model
splits each function at its accesses to shared data. Of asyncio it uses that
`call_soon_threadsafe` looks at the closed flag before it appends, that an append
which loses the race against `close` is silent, and that `close` discards the queue.
-/

namespace Rayo

/-- A call of `EventLoop::stop`. -/
abbrev StopId := ℕ

/-- Where the thread that runs `EventLoop::schedule` for a request is. -/
inductive SchedulePc
  | idle
  /-- The gauge is incremented and the channel exists. -/
  | counted
  /-- The task is in `live_tasks`. -/
  | registered
  /-- `call_soon_threadsafe` found the loop open and is about to append. -/
  | checked
  /-- `call_soon_threadsafe` raised; the error path still has this to do. -/
  | refused (work : Work)
  | returned
  deriving DecidableEq

/-- Where the loop thread is. -/
inductive LoopPc
  /-- In `run_forever`, between two callbacks. -/
  | idle
  /-- `HandlerTask::__call__` is advancing the coroutine of a task. -/
  | stepping (r : RequestId)
  /-- The coroutine has come back and the task is being finished. -/
  | working (work : Work)
  /-- `run_forever` has returned. -/
  | exited
  /-- `event_loop.close()` has returned. -/
  | closed
  | terminated
  deriving DecidableEq

/-- Where a caller of `EventLoop::stop` is. -/
inductive StopPc
  | idle
  /-- It took the join handle. -/
  | holding
  /-- It told the loop to stop and waits in `join`. -/
  | posted
  /-- It is about to drain `live_tasks`. -/
  | draining
  /-- It is about to dispose of these tasks. -/
  | disposing (rest : List RequestId)
  /-- It has closed the coroutine of a task and finishes it, before the rest. -/
  | working (work : Work) (rest : List RequestId)
  | returned
  deriving DecidableEq

/-- How an advance of a coroutine ends the request: with the response built from a return
value, or as an exception, a cancellation or an abort, which all answer the opaque 500. -/
inductive Ending
  | returned (response : HandlerResponse)
  | failed
  deriving DecidableEq

/-- The response that `finish` is called with. -/
def Ending.response : Ending → HandlerResponse
  | .returned response => response
  | .failed => .internalError

/-- One event loop and the threads that use it. -/
structure EventLoop where
  registry : Registry
  /-- The `schedule` call of every request. -/
  calls : RequestId → SchedulePc
  /-- The queue of the loop, by the tasks its handles call. -/
  ready : List RequestId
  /-- Tasks suspended on a future. -/
  parked : List RequestId
  loop : LoopPc
  /-- A handle that calls `loop.stop` is in the queue. -/
  stopPosted : Bool
  /-- `loop.stop` has run, so `run_forever` returns at the end of its iteration. -/
  stopping : Bool
  /-- `EventLoop::thread` still holds the join handle. -/
  thread : Bool
  /-- The `stop` calls, and those that have begun. -/
  stops : StopId → StopPc
  callers : List StopId
  /-- History: the coroutines that ran to a return on the loop, with their responses. -/
  returns : List (RequestId × HandlerResponse)

namespace EventLoop

/-- `EventLoop::start`. -/
def start : EventLoop where
  registry := .empty
  calls _ := .idle
  ready := []
  parked := []
  loop := .idle
  stopPosted := false
  stopping := false
  thread := true
  stops _ := .idle
  callers := []
  returns := []

/-- The atomic steps of all threads. -/
inductive Event
  -- `EventLoop::schedule`
  | count (r : RequestId)
  | allocationFails (r : RequestId)
  | insert (r : RequestId)
  | checkClosed (r : RequestId)
  | append (r : RequestId)
  | refusedWork (r : RequestId) (work : Work)
  -- the loop thread
  | beginStep (r : RequestId)
  | reschedule (r : RequestId)
  | park (r : RequestId)
  | endStep (r : RequestId) (ending : Ending)
  | loopWork (work : Work)
  | wake (r : RequestId)
  | runStop
  | leaveRunForever
  | close
  | exit
  -- `EventLoop::stop`
  | takeHandle (c : StopId)
  | postStop (c : StopId)
  | join (c : StopId)
  | drain (c : StopId) (order : List RequestId)
  | closeCoroutine (c : StopId) (r : RequestId) (rest : List RequestId)
  | stopWork (c : StopId) (work : Work) (rest : List RequestId)
  | stopReturns (c : StopId)
  -- the last reference to a task is gone
  | collect (r : RequestId)

/-- `loop.is_closed()`. -/
def isClosed (s : EventLoop) : Bool := s.loop = .closed ∨ s.loop = .terminated

/-- The requests a `schedule` call still refers to. -/
def SchedulePc.holds : SchedulePc → Bool
  | .idle | .returned => false
  | .counted | .registered | .checked | .refused _ => true

/-- The requests the loop thread refers to on its stack. -/
def LoopPc.holds (r : RequestId) : LoopPc → Bool
  | .stepping r' => r' = r
  | .working work => work.request = r
  | _ => false

/-- The requests a `stop` call refers to. -/
def StopPc.holds (r : RequestId) : StopPc → Bool
  | .disposing rest => r ∈ rest
  | .working work rest => work.request = r ∨ r ∈ rest
  | _ => false

/-- Some thread or some container still refers to the task of `r`. -/
def held (s : EventLoop) (r : RequestId) : Bool :=
  r ∈ s.registry.live ∨ SchedulePc.holds (s.calls r) ∨ r ∈ s.ready ∨ r ∈ s.parked ∨
    LoopPc.holds r s.loop ∨ ∃ c ∈ s.callers, StopPc.holds r (s.stops c)

/-- When a thread can take its next step. A hash map drains in an arbitrary order. -/
def enabled (s : EventLoop) : Event → Bool
  | .count r => s.calls r = .idle
  | .allocationFails r => s.calls r = .counted
  | .insert r => s.calls r = .counted
  | .checkClosed r => s.calls r = .registered
  | .append r => s.calls r = .checked
  | .refusedWork r work => s.calls r = .refused work
  | .beginStep r => s.loop = .idle ∧ r ∈ s.ready
  | .reschedule r => s.loop = .stepping r
  | .park r => s.loop = .stepping r
  | .endStep r _ => s.loop = .stepping r
  | .loopWork work => s.loop = .working work
  | .wake r => r ∈ s.parked ∧ s.isClosed = false
  | .runStop => s.loop = .idle ∧ s.stopPosted = true
  | .leaveRunForever => s.loop = .idle ∧ s.stopping = true
  | .close => s.loop = .exited
  | .exit => s.loop = .closed
  | .takeHandle c => s.stops c = .idle
  | .postStop c => s.stops c = .holding
  | .join c => s.stops c = .posted ∧ s.loop = .terminated
  | .drain c order => s.stops c = .draining ∧ order.Perm s.registry.live
  | .closeCoroutine c r rest => s.stops c = .disposing (r :: rest)
  | .stopWork c work rest => s.stops c = .working work rest
  | .stopReturns c => s.stops c = .disposing []
  | .collect r => s.held r = false

/-- Set the program counter of a `schedule` call. -/
def setCall (s : EventLoop) (r : RequestId) (pc : SchedulePc) : EventLoop :=
  { s with calls := Function.update s.calls r pc }

/-- Set the program counter of a `stop` call. -/
def setStop (s : EventLoop) (c : StopId) (pc : StopPc) : EventLoop :=
  { s with stops := Function.update s.stops c pc }

/-- What each step does. A stale wake of a finished task returns at once, and the
coroutine of a finished task is not advanced. -/
def effect (s : EventLoop) : Event → EventLoop
  | .count r => { s.setCall r .counted with registry := s.registry.openChannel r }
  | .allocationFails r => { s.setCall r .returned with registry := s.registry.dropChannel r }
  | .insert r => { s.setCall r .registered with registry := s.registry.insertLive r }
  | .checkClosed r =>
    if s.isClosed then s.setCall r (.refused (.removeLive r .internalError))
    else s.setCall r .checked
  | .append r =>
    { s.setCall r .returned with ready := if s.isClosed then s.ready else s.ready ++ [r] }
  | .refusedWork r work =>
    { s.setCall r ((work.advance s.registry).2.elim .returned .refused) with
      registry := (work.advance s.registry).1 }
  | .beginStep r =>
    { s with
      ready := s.ready.erase r
      loop := if s.registry.finished r then .idle else .stepping r }
  | .reschedule r => { s with ready := s.ready ++ [r], loop := .idle }
  | .park r => { s with parked := r :: s.parked, loop := .idle }
  | .endStep r ending =>
    { s with
      loop := .working (.finish r ending.response)
      returns := match ending with
        | .returned response => (r, response) :: s.returns
        | .failed => s.returns }
  | .loopWork work =>
    { s with
      loop := (work.advance s.registry).2.elim .idle .working
      registry := (work.advance s.registry).1 }
  | .wake r => { s with parked := s.parked.erase r, ready := s.ready ++ [r] }
  | .runStop => { s with stopPosted := false, stopping := true }
  | .leaveRunForever => { s with loop := .exited }
  | .close => { s with loop := .closed, ready := [] }
  | .exit => { s with loop := .terminated }
  | .takeHandle c =>
    { s.setStop c (if s.thread then .holding else .draining) with
      thread := false
      callers := c :: s.callers }
  | .postStop c => { s.setStop c .posted with stopPosted := true }
  | .join c => s.setStop c .draining
  | .drain c order =>
    { s.setStop c (.disposing order) with registry := { s.registry with live := [] } }
  | .closeCoroutine c r rest => s.setStop c (.working (.finish r .internalError) rest)
  | .stopWork c work rest =>
    { s.setStop c
        ((work.advance s.registry).2.elim (.disposing rest) fun work' => .working work' rest) with
      registry := (work.advance s.registry).1 }
  | .stopReturns c => s.setStop c .returned
  | .collect r => { s with registry := s.registry.dropChannel r }

/-- All runs of one event loop. -/
def system : Transition.System EventLoop Event where
  init s := s = start
  enabled := enabled
  effect := effect

end EventLoop

end Rayo
