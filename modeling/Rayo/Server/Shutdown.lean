import Rayo.Dispatch.Channel
import Rayo.Transition

/-!
# Shutting a server down

Any number of threads run `wait`, `shutdown` and `Drop` on one `Server`, while `serve`
accepts and drains connections and the event loops run the tasks of their requests. The
model splits `shutdown_impl`, `EventLoopPool::cancel_in_flight` and `EventLoopPool::stop`
at their accesses to shared data. Each step of a task and each client is free to do as it
likes, and a timer may expire at any time before what it waits for has come. A call that panics
unwinds: so does one that has taken the receiver and cannot wait, as its grace value is not
converted or its thread is a worker of the runtime, and one that joins its own thread, which POSIX
refuses.
-/

namespace Rayo

/-- A call of `wait`, `shutdown` or `drop`. -/
abbrev CallerId := ℕ

/-- A connection. -/
abbrev ConnectionId := ℕ

/-- The index of a loop in its pool. -/
abbrev LoopIndex := ℕ

/-- Where the task that runs `rayo_server::serve` is. -/
inductive ServePc
  | accepting
  /-- Out of the accept loop, in `graceful.shutdown()`. -/
  | draining
  /-- `finished_sender` has sent. -/
  | finished
  deriving DecidableEq

/-- Where the receiver of `serve_finished` is. -/
inductive ReceiverPlace
  | slot
  | heldBy (c : CallerId)
  | dropped
  deriving DecidableEq

/-- Where the thread of an event loop is. -/
inductive LoopThread
  | running
  /-- `loop.stop` has been handed to `call_soon_threadsafe`. -/
  | told
  | ended
  deriving DecidableEq

/-- Where a caller is. The lists are the loops that are still ahead of it. -/
inductive CallerPc
  | idle
  /-- In the `select!` of `wait`, having seen this version of the watch. -/
  | waiting (seen : ℕ)
  /-- At the beginning of `shutdown_impl`. -/
  | entered
  /-- It has sent `true`. -/
  | sent
  /-- It waits for the drain or the end of the natural grace period. -/
  | grace
  /-- In `cancel_in_flight`, between two loops. -/
  | cancelling (loops : List LoopIndex)
  /-- It posts cancellations to these tasks of a loop. -/
  | posting (tasks : List RequestId) (l : LoopIndex) (loops : List LoopIndex)
  /-- It waits for the drain or the end of the window after the cancellations. -/
  | window
  /-- In `stop`, between two loops. -/
  | stopping (loops : List LoopIndex)
  /-- It has taken the join handle of a loop. -/
  | telling (l : LoopIndex) (loops : List LoopIndex)
  | joining (l : LoopIndex) (loops : List LoopIndex)
  /-- It is about to dispose of what is left on a loop. -/
  | disposing (l : LoopIndex) (loops : List LoopIndex)
  | returned
  /-- The call has unwound. -/
  | panicked
  deriving DecidableEq

/-- The caller is between taking the receiver and the end of its waits. -/
def CallerPc.holds : CallerPc → Bool
  | .grace | .cancelling _ | .posting .. | .window => true
  | _ => false

/-- The caller stops the loops, or has stopped them. -/
def CallerPc.past : CallerPc → Bool
  | .stopping _ | .telling .. | .joining .. | .disposing .. | .returned => true
  | _ => false

/-- A running server. -/
structure Server where
  /-- The number of event loops. -/
  size : ℕ
  /-- How often the shutdown watch has been sent to. -/
  version : ℕ
  serve : ServePc
  receiver : ReceiverPlace
  callers : CallerId → CallerPc
  /-- The calls of `shutdown_impl` that have not sent yet. -/
  senders : List CallerId
  /-- The calls that cannot wait for the drain: `Duration::from_secs_f64` does not take their grace
  value, or they are made on a worker of the runtime, which Tokio does not let block. -/
  refused : List CallerId
  /-- The call that is made on the thread of a loop, which it keeps until it is over. -/
  inner : LoopIndex → Option CallerId
  /-- The open connections. -/
  connections : List ConnectionId
  /-- The async requests that have been dispatched. -/
  dispatched : List RequestId
  /-- The unfinished tasks on all loops. -/
  live : List RequestId
  /-- The loop of a task. -/
  home : RequestId → LoopIndex
  /-- The connection whose request a task answers. -/
  client : RequestId → ConnectionId
  /-- The tasks whose `DispatchedRequest` was dropped unfinished, which posts a cancellation. -/
  abandoned : List RequestId
  threads : LoopIndex → LoopThread
  /-- The `EventLoop` still holds its join handle. -/
  handles : LoopIndex → Bool
  /-- History: the callers whose natural grace period has expired. -/
  graceExpired : List CallerId
  /-- History: the loops whose live tasks `cancel_in_flight` has collected. -/
  snapshots : List LoopIndex
  /-- History: the cancellations that `cancel_in_flight` has posted. -/
  cancelled : List (CallerId × RequestId)
  /-- History: the callers whose window after the cancellations has expired. -/
  windowExpired : List CallerId
  /-- History: the loops whose thread a call on that very thread has tried to join. -/
  selfJoined : List LoopIndex

namespace Server

/-- `start_server`. -/
def start (size : ℕ) : Server where
  size := size
  version := 0
  serve := .accepting
  receiver := .slot
  callers _ := .idle
  senders := []
  refused := []
  inner _ := none
  connections := []
  dispatched := []
  live := []
  home _ := 0
  client _ := 0
  abandoned := []
  threads _ := .running
  handles _ := true
  graceExpired := []
  snapshots := []
  cancelled := []
  windowExpired := []
  selfJoined := []

/-- The atomic steps of all threads. -/
inductive Event
  -- clients and `serve`
  | accept (k : ConnectionId)
  | close (k : ConnectionId)
  | dispatch (r : RequestId) (k : ConnectionId) (l : LoopIndex)
  | leaveAccept
  | serveFinishes
  -- event loops
  | finish (r : RequestId)
  | loopEnds (l : LoopIndex)
  /-- Code on the thread of a loop, such as a handler, is about to make a call. -/
  | callsOnLoop (l : LoopIndex) (c : CallerId)
  -- `wait`
  | subscribe (c : CallerId)
  | changed (c : CallerId) (seen : ℕ)
  | ctrlC (c : CallerId) (seen : ℕ)
  -- `shutdown_impl`
  | call (c : CallerId)
  /-- A call that cannot wait for the drain. -/
  | callRefused (c : CallerId)
  | send (c : CallerId)
  | takeReceiver (c : CallerId)
  | drained (c : CallerId)
  | graceExpires (c : CallerId)
  | collect (c : CallerId) (l : LoopIndex) (loops : List LoopIndex)
  | postCancel (c : CallerId) (r : RequestId) (tasks : List RequestId) (l : LoopIndex)
      (loops : List LoopIndex)
  /-- `call_soon_threadsafe` raises, which `cancel_in_flight` ignores. -/
  | cancelFails (c : CallerId) (r : RequestId) (tasks : List RequestId) (l : LoopIndex)
      (loops : List LoopIndex)
  | posted (c : CallerId) (l : LoopIndex) (loops : List LoopIndex)
  | allCancelled (c : CallerId)
  | windowExpires (c : CallerId)
  | takeHandle (c : CallerId) (l : LoopIndex) (loops : List LoopIndex)
  | tell (c : CallerId) (l : LoopIndex) (loops : List LoopIndex)
  /-- `call_soon_threadsafe` raises, which `stop` prints before it joins. -/
  | tellFails (c : CallerId) (l : LoopIndex) (loops : List LoopIndex)
  | join (c : CallerId) (l : LoopIndex) (loops : List LoopIndex)
  /-- A call joins the thread that it runs on. -/
  | joinItself (c : CallerId) (l : LoopIndex) (loops : List LoopIndex)
  | dispose (c : CallerId) (l : LoopIndex) (loops : List LoopIndex)
  | stopped (c : CallerId)
  deriving DecidableEq

/-- When a step can happen. -/
def enabled (s : Server) : Event → Bool
  | .accept k => s.serve = .accepting ∧ k ∉ s.connections ∧ ∀ r ∈ s.live, s.client r ≠ k
  | .close k => k ∈ s.connections
  | .dispatch r k l => k ∈ s.connections ∧ r ∉ s.dispatched ∧ l < s.size ∧ s.threads l ≠ .ended
  | .leaveAccept => s.serve = .accepting ∧ 0 < s.version
  | .serveFinishes => s.serve = .draining ∧ s.connections = []
  | .finish r => r ∈ s.live ∧ s.threads (s.home r) ≠ .ended ∧ s.inner (s.home r) = none
  | .loopEnds l => s.threads l = .told ∧ s.inner l = none
  | .callsOnLoop l c => l < s.size ∧ s.threads l ≠ .ended ∧ s.inner l = none ∧
      s.callers c = .idle ∧ ∀ l' < s.size, s.inner l' ≠ some c
  | .subscribe c | .call c | .callRefused c => s.callers c = .idle
  | .changed c seen => s.callers c = .waiting seen ∧ seen < s.version
  | .ctrlC c seen => s.callers c = .waiting seen
  | .send c => s.callers c = .entered
  | .takeReceiver c => s.callers c = .sent
  | .drained c => (s.callers c = .grace ∨ s.callers c = .window) ∧ s.serve = .finished
  | .graceExpires c => s.callers c = .grace ∧ s.serve ≠ .finished
  | .collect c l loops => s.callers c = .cancelling (l :: loops)
  | .postCancel c r tasks l loops | .cancelFails c r tasks l loops =>
    s.callers c = .posting (r :: tasks) l loops
  | .posted c l loops => s.callers c = .posting [] l loops
  | .allCancelled c => s.callers c = .cancelling []
  | .windowExpires c => s.callers c = .window ∧ s.serve ≠ .finished
  | .takeHandle c l loops => s.callers c = .stopping (l :: loops)
  | .tell c l loops | .tellFails c l loops => s.callers c = .telling l loops
  | .join c l loops => s.callers c = .joining l loops ∧ s.threads l = .ended
  | .joinItself c l loops => s.callers c = .joining l loops ∧ s.inner l = some c
  | .dispose c l loops => s.callers c = .disposing l loops
  | .stopped c => s.callers c = .stopping []

/-- A caller goes on. -/
def goto (s : Server) (c : CallerId) (pc : CallerPc) : Server :=
  { s with callers := Function.update s.callers c pc }

/-- A call is over, and the thread that it was made on is free again. -/
def leave (s : Server) (c : CallerId) (pc : CallerPc) : Server :=
  { s.goto c pc with inner := fun l => if s.inner l = some c then none else s.inner l }

/-- A caller is done waiting and goes on to `EventLoopPool::stop`. -/
def gotoStop (s : Server) (c : CallerId) : Server :=
  { s.goto c (.stopping (List.range s.size)) with receiver := .dropped }

/-- What a step does. The send fails when no receiver of the watch is left, which makes no
difference to anyone. -/
def effect (s : Server) : Event → Server
  | .accept k => { s with connections := k :: s.connections }
  | .close k =>
    { s with
      connections := s.connections.filter (· ≠ k)
      abandoned := s.live.filter (s.client · = k) ++ s.abandoned }
  | .dispatch r k l =>
    { s with
      dispatched := r :: s.dispatched
      live := r :: s.live
      home := Function.update s.home r l
      client := Function.update s.client r k }
  | .leaveAccept => { s with serve := .draining }
  | .serveFinishes => { s with serve := .finished }
  | .finish r => { s with live := s.live.filter (· ≠ r) }
  | .loopEnds l => { s with threads := Function.update s.threads l .ended }
  | .callsOnLoop l c => { s with inner := Function.update s.inner l (some c) }
  | .subscribe c => s.goto c (.waiting s.version)
  | .changed c _ | .ctrlC c _ | .call c => { s.goto c .entered with senders := c :: s.senders }
  | .callRefused c =>
    { s.goto c .entered with senders := c :: s.senders, refused := c :: s.refused }
  | .send c =>
    { s.goto c .sent with
      version := s.version + 1
      senders := s.senders.filter (· ≠ c) }
  | .takeReceiver c =>
    if s.receiver = .slot then
      -- the panic of the conversion or of `block_on` drops the receiver with the call
      if c ∈ s.refused then { s.leave c .panicked with receiver := .dropped }
      else { s.goto c .grace with receiver := .heldBy c }
    else s.goto c (.stopping (List.range s.size))
  | .drained c => s.gotoStop c
  | .graceExpires c =>
    { s.goto c (.cancelling (List.range s.size)) with graceExpired := c :: s.graceExpired }
  | .collect c l loops =>
    { s.goto c (.posting (s.live.filter (s.home · = l)) l loops) with
      snapshots := l :: s.snapshots }
  | .postCancel c r tasks l loops =>
    { s.goto c (.posting tasks l loops) with cancelled := (c, r) :: s.cancelled }
  | .cancelFails c _ tasks l loops => s.goto c (.posting tasks l loops)
  | .posted c _ loops => s.goto c (.cancelling loops)
  | .allCancelled c => s.goto c .window
  | .windowExpires c => { s.gotoStop c with windowExpired := c :: s.windowExpired }
  | .takeHandle c l loops =>
    if s.handles l then
      { s.goto c (.telling l loops) with handles := Function.update s.handles l false }
    else s.goto c (.disposing l loops)
  | .tell c l loops =>
    { s.goto c (.joining l loops) with threads := Function.update s.threads l .told }
  | .tellFails c l loops => s.goto c (.joining l loops)
  | .join c l loops => s.goto c (.disposing l loops)
  | .joinItself c l _ => { s.leave c .panicked with selfJoined := l :: s.selfJoined }
  | .dispose c l loops =>
    { s.goto c (.stopping loops) with live := s.live.filter (s.home · ≠ l) }
  | .stopped c => s.leave c .returned

/-- All runs of a server. -/
def system : Transition.System Server Event where
  init s := 0 < s.size ∧ s = start s.size
  enabled := enabled
  effect := effect

end Server

end Rayo
