import Rayo.Routing.ParserAgreement

/-!
# Starting a server

`start_server` registers the routes, starts the threads of the event loops one after the other and
goes on to the runtime and the socket. Each step can fail, and what has been acquired is then
dropped. Dropping an event loop drops the join handle of its thread, which does not end it.
-/

namespace Rayo.Startup

/-- The exceptions of `start_server`. -/
inductive StartupError
  | valueError (message : String)
  | runtimeError (message : String)
  /-- Raised by a Python call. -/
  | raised (message : String)
  | osError (message : String)
  deriving DecidableEq

/-- An exception of the registration. -/
def StartupError.ofPyErr : PyErr → StartupError
  | .valueError message => .valueError message
  | .typeError message => .raised message
  | .unicodeEncodeError => .raised "UnicodeEncodeError"

/-- CPython's task-extension hooks. -/
inductive TaskHook
  | enterTask
  | leaveTask
  | registerTask
  | unregisterTask
  deriving DecidableEq

/-- `hook_name`. -/
def TaskHook.name : TaskHook → String
  | .enterTask => "_enter_task"
  | .leaveTask => "_leave_task"
  | .registerTask => "_register_task"
  | .unregisterTask => "_unregister_task"

/-- A step of `EventLoop::start` that fails, with the error that it fails with. -/
inductive LoopFault
  | importAsyncio (error : String)
  | newEventLoop (error : String)
  | tasksModule (error : String)
  | taskHook (hook : TaskHook) (error : String)
  | spawn (error : String)
  deriving DecidableEq

/-- The exception that the step ends in. -/
def LoopFault.toError : LoopFault → StartupError
  | .importAsyncio error | .newEventLoop error | .tasksModule error => .raised error
  | .taskHook hook error => .runtimeError ("Rayo's scheduler integrates with asyncio through " ++
      "asyncio.tasks." ++ hook.name ++ " (one of CPython's task-extension hooks, present since " ++
      "3.7), which this Python build does not provide: " ++ error)
  | .spawn error => .osError error

/-- The threads of event loops, numbered in the order of their start. -/
structure LoopThreads where
  spawned : ℕ
  /-- The threads that run their loop. -/
  running : List ℕ
  /-- The threads whose join handle was dropped. -/
  detached : List ℕ
  below : ∀ thread ∈ running, thread < spawned

/-- Spawn a thread that runs a loop. -/
def LoopThreads.spawn (w : LoopThreads) : LoopThreads where
  spawned := w.spawned + 1
  running := w.spawned :: w.running
  detached := w.detached
  below := by
    intro thread hthread
    rcases List.mem_cons.mp hthread with rfl | hthread
    · exact Nat.lt_succ_self _
    · exact Nat.lt_succ_of_lt (w.below thread hthread)

/-- Tell the loop of a thread to stop, and join the thread. -/
def LoopThreads.join (thread : ℕ) (w : LoopThreads) : LoopThreads where
  spawned := w.spawned
  running := w.running.filter (· ≠ thread)
  detached := w.detached
  below := fun t ht => w.below t (List.mem_of_mem_filter ht)

/-- Drop the join handle of a thread. -/
def LoopThreads.detach (thread : ℕ) (w : LoopThreads) : LoopThreads :=
  { w with detached := thread :: w.detached }

/-- `EventLoop`. -/
structure EventLoop where
  threadName : String
  /-- The join handle, until it is taken. -/
  thread : Option ℕ

/-- `EventLoop::start`. -/
def EventLoop.start (fault : Option LoopFault) (threadName : String) (w : LoopThreads) :
    Except StartupError EventLoop × LoopThreads :=
  match fault with
  | some fault => (.error fault.toError, w)
  | none => (.ok { threadName, thread := some w.spawned }, w.spawn)

/-- `EventLoop::stop`, as far as the thread is concerned. When `call_soon_threadsafe` raises, as it
does when an exception is pending, that is printed, and the call joins a thread that nobody has told
to stop. Then this thread is returned, too. -/
def EventLoop.stop (raises : ℕ → Bool) (eventLoop : EventLoop) (w : LoopThreads) :
    EventLoop × LoopThreads × Option ℕ :=
  match eventLoop.thread with
  | none => (eventLoop, w, none)
  | some thread =>
    let eventLoop := { eventLoop with thread := none }
    if raises thread then (eventLoop, w, some thread) else (eventLoop, w.join thread, none)

/-- An event loop is dropped with its join handle. -/
def EventLoop.drop (eventLoop : EventLoop) (w : LoopThreads) : LoopThreads :=
  eventLoop.thread.elim w w.detach

/-- `EventLoopPool`. -/
structure EventLoopPool where
  loops : List EventLoop
  scanStartIndex : ℕ

/-- The loop of `EventLoopPool::stop`, which gets no further than a join that does not return. -/
def stopLoops (raises : ℕ → Bool) :
    List EventLoop → LoopThreads → List EventLoop × LoopThreads × Option ℕ
  | [], w => ([], w, none)
  | eventLoop :: rest, w =>
    match eventLoop.stop raises w with
    | (eventLoop, w, some thread) => (eventLoop :: rest, w, some thread)
    | (eventLoop, w, none) =>
      let (rest, w, joining) := stopLoops raises rest w
      (eventLoop :: rest, w, joining)

/-- `EventLoopPool::stop`. -/
def EventLoopPool.stop (raises : ℕ → Bool) (pool : EventLoopPool) (w : LoopThreads) :
    EventLoopPool × LoopThreads × Option ℕ :=
  let (loops, w, joining) := stopLoops raises pool.loops w
  ({ pool with loops }, w, joining)

/-- Event loops are dropped one after the other. -/
def dropLoops (loops : List EventLoop) (w : LoopThreads) : LoopThreads :=
  loops.foldl (fun w eventLoop => eventLoop.drop w) w

/-- A pool is dropped with its event loops. -/
def EventLoopPool.drop (pool : EventLoopPool) (w : LoopThreads) : LoopThreads :=
  dropLoops pool.loops w

/-- The loop of `EventLoopPool::start`, with the event loops that have been started. -/
def startLoops (faults : ℕ → Option LoopFault) (loops : List EventLoop) :
    ℕ → LoopThreads → Except StartupError (List EventLoop) × LoopThreads
  | 0, w => (.ok loops, w)
  | remaining + 1, w =>
    match EventLoop.start (faults loops.length) ("rayo-loop-" ++ toString loops.length) w with
    | (.error e, w) => (.error e, dropLoops loops w)
    | (.ok eventLoop, w) => startLoops faults (loops ++ [eventLoop]) remaining w

/-- `EventLoopPool::start`. -/
def EventLoopPool.start (faults : ℕ → Option LoopFault) (size : ℕ) (w : LoopThreads) :
    Except StartupError EventLoopPool × LoopThreads :=
  if size = 0 then
    (.error (.valueError ("loop_threads must be at least 1 (use None to let Rayo pick: " ++
      "one per core on free-threaded builds, one total on GIL builds)")), w)
  else
    match startLoops faults [] size w with
    | (.error e, w) => (.error e, w)
    | (.ok loops, w) => (.ok { loops, scanStartIndex := 0 }, w)

/-- What the machine answers to each step of `start_server`. -/
structure Machine where
  /-- The fault of the start of each event loop, if it has one. -/
  loopFault : ℕ → Option LoopFault
  runtimeError : Option String
  bindError : Option String
  localAddr : Except String ℕ

variable {m : Matchit}

/-- A started `Server`. -/
structure Server (m : Matchit) where
  port : ℕ
  service : AppService m
  eventLoops : EventLoopPool

/-- `start_server`. -/
def startServer (machine : Machine) (m : Matchit) (host : String) (port : ℕ)
    (routes : List RouteSpec) (loopThreads : ℕ) (w : LoopThreads) :
    Except StartupError (Server m) × LoopThreads :=
  let address := "http://" ++ host ++ ":" ++ toString port ++ ": "
  match buildService m routes with
  | .error e => (.error (.ofPyErr e), w)
  | .ok service =>
    match EventLoopPool.start machine.loopFault loopThreads w with
    | (.error e, w) => (.error e, w)
    | (.ok eventLoops, w) =>
      match machine.runtimeError with
      | some error =>
        (.error (.runtimeError ("Rayo could not start its runtime: " ++ error)),
          eventLoops.drop w)
      | none =>
        match machine.bindError with
        | some error =>
          (.error (.runtimeError ("Rayo could not bind " ++ address ++ error)),
            eventLoops.drop w)
        | none =>
          match machine.localAddr with
          | .error error =>
            (.error (.runtimeError ("Rayo could not read the bound address for " ++ address ++
              error)), eventLoops.drop w)
          | .ok boundPort => (.ok { port := boundPort, service, eventLoops }, w)

/-- Dropping an event loop does not end its thread. -/
theorem dropLoops_running (loops : List EventLoop) (w : LoopThreads) :
    (dropLoops loops w).running = w.running := by
  induction loops generalizing w with
  | nil => rfl
  | cons eventLoop rest ih =>
    refine (ih (eventLoop.drop w)).trans ?_
    unfold EventLoop.drop
    cases eventLoop.thread <;> rfl

/-- How many event loops from the index `first` on start before the first fault. -/
def startable (faults : ℕ → Option LoopFault) (first remaining : ℕ) : ℕ :=
  ((List.range' first remaining).takeWhile fun k => (faults k).isNone).length

/-- The threads of these event loops run their loops, whether the call succeeds or fails. -/
theorem startLoops_running (faults : ℕ → Option LoopFault) (loops : List EventLoop)
    (remaining : ℕ) (w : LoopThreads) :
    (startLoops faults loops remaining w).2.running =
      (List.range' w.spawned (startable faults loops.length remaining)).reverse ++ w.running := by
  induction remaining generalizing loops w with
  | zero => simp [startLoops, startable]
  | succ remaining ih =>
    cases hfault : faults loops.length with
    | some fault =>
      simp [startLoops, EventLoop.start, startable, hfault, List.range'_succ, dropLoops_running]
    | none =>
      have hnext : startable faults loops.length (remaining + 1) =
          startable faults (loops.length + 1) remaining + 1 := by
        simp [startable, List.range'_succ, hfault]
      simp only [startLoops, EventLoop.start, hfault]
      rw [ih, hnext, List.range'_succ]
      simp [LoopThreads.spawn]

/-- The event loops start if none of them has a fault. -/
theorem startLoops_isOk (faults : ℕ → Option LoopFault) (loops : List EventLoop)
    (remaining : ℕ) (w : LoopThreads) :
    (startLoops faults loops remaining w).1.isOk =
      (List.range' loops.length remaining).all fun k => (faults k).isNone := by
  induction remaining generalizing loops w with
  | zero => rfl
  | succ remaining ih =>
    rw [List.range'_succ, List.all_cons]
    cases hfault : faults loops.length with
    | some fault => simp [startLoops, EventLoop.start, hfault, Except.isOk, Except.toBool]
    | none =>
      simp only [startLoops, EventLoop.start, hfault]
      rw [ih]
      simp

/-- A pool that starts has run the threads up to the first that fails. -/
theorem EventLoopPool.start_running (faults : ℕ → Option LoopFault) (size : ℕ)
    (w : LoopThreads) :
    (EventLoopPool.start faults size w).2.running =
      (List.range' w.spawned (startable faults 0 size)).reverse ++ w.running := by
  by_cases hzero : size = 0
  · simp [EventLoopPool.start, hzero, startable]
  · have hrunning := startLoops_running faults [] size w
    rw [← List.length_nil (α := EventLoop), ← hrunning, EventLoopPool.start, if_neg hzero]
    rcases startLoops faults [] size w with ⟨_ | _, w'⟩ <;> rfl

/-- A pool starts exactly if it has loops and all their threads do. -/
theorem EventLoopPool.start_isOk (faults : ℕ → Option LoopFault) (size : ℕ) (w : LoopThreads) :
    (EventLoopPool.start faults size w).1.isOk =
      (decide (size ≠ 0) && (List.range' 0 size).all fun k => (faults k).isNone) := by
  by_cases hzero : size = 0
  · simp [EventLoopPool.start, hzero, Except.isOk, Except.toBool]
  · have hok := startLoops_isOk faults [] size w
    rw [decide_eq_true hzero, Bool.true_and, ← List.length_nil (α := EventLoop), ← hok,
      EventLoopPool.start, if_neg hzero]
    rcases startLoops faults [] size w with ⟨_ | _, w'⟩ <;> rfl

variable {machine : Machine} {host : String} {port : ℕ} {routes : List RouteSpec}
  {loopThreads : ℕ} {w : LoopThreads}

/-- How many event loops a call starts. -/
def startedLoops (machine : Machine) (m : Matchit) (routes : List RouteSpec) (loopThreads : ℕ) :
    ℕ :=
  if (buildService m routes).isOk then startable machine.loopFault 0 loopThreads else 0

/-- The steps after the start of the event loops succeed. -/
def Machine.serves (machine : Machine) : Bool :=
  machine.runtimeError.isNone && machine.bindError.isNone && machine.localAddr.isOk

/-- **Whatever a call of `start_server` ends in, the event loops that it has started run.** -/
theorem startServer_running :
    (startServer machine m host port routes loopThreads w).2.running =
      (List.range' w.spawned (startedLoops machine m routes loopThreads)).reverse ++ w.running := by
  unfold startServer startedLoops
  cases hservice : buildService m routes with
  | error e => simp [Except.isOk, Except.toBool]
  | ok service =>
    simp only [Except.isOk, Except.toBool, if_true]
    rw [← EventLoopPool.start_running]
    rcases EventLoopPool.start machine.loopFault loopThreads w with ⟨_ | pool, w'⟩
    · rfl
    · cases machine.runtimeError with
      | some error => exact dropLoops_running ..
      | none =>
        cases machine.bindError with
        | some error => exact dropLoops_running ..
        | none =>
          cases machine.localAddr with
          | error error => exact dropLoops_running ..
          | ok boundPort => rfl

/-- When a call succeeds. -/
theorem startServer_isOk :
    (startServer machine m host port routes loopThreads w).1.isOk =
      ((buildService m routes).isOk && decide (loopThreads ≠ 0) &&
        ((List.range' 0 loopThreads).all fun k => (machine.loopFault k).isNone) &&
        machine.serves) := by
  unfold startServer Machine.serves
  cases hservice : buildService m routes with
  | error e => simp [Except.isOk, Except.toBool]
  | ok service =>
    have hpool := EventLoopPool.start_isOk machine.loopFault loopThreads w
    simp only [Except.isOk, Except.toBool, Bool.true_and] at hpool ⊢
    rw [← hpool]
    rcases EventLoopPool.start machine.loopFault loopThreads w with ⟨_ | pool, w'⟩
    · rfl
    · cases machine.runtimeError with
      | some error => rfl
      | none =>
        cases machine.bindError with
        | some error => rfl
        | none => cases machine.localAddr <;> rfl

/-- No thread that the call has started runs its loop after an error. -/
def LeavesNothingRunning (machine : Machine) (m : Matchit) (host : String) (port : ℕ)
    (routes : List RouteSpec) (loopThreads : ℕ) (w : LoopThreads) : Prop :=
  ∀ e w', startServer machine m host port routes loopThreads w = (.error e, w') →
    ∀ thread, w.spawned ≤ thread → thread ∉ w'.running

/-- Some step fails after the first event loop has been started. -/
def failsAfterFirstLoop (machine : Machine) (m : Matchit) (routes : List RouteSpec)
    (loopThreads : ℕ) : Bool :=
  (buildService m routes).isOk && loopThreads ≠ 0 && (machine.loopFault 0).isNone &&
    ((List.range loopThreads).any (fun k => (machine.loopFault k).isSome) || !machine.serves)

/-- A call that starts no event loop. -/
theorem startedLoops_eq_zero_iff :
    startedLoops machine m routes loopThreads = 0 ↔
      ((buildService m routes).isOk && loopThreads ≠ 0 &&
        (machine.loopFault 0).isNone) = false := by
  unfold startedLoops
  cases (buildService m routes).isOk with
  | false => simp
  | true =>
    cases loopThreads with
    | zero => simp [startable]
    | succ remaining => cases hfault : machine.loopFault 0 <;>
        simp [startable, List.range'_succ, hfault]

/-- What a call leaves running can be told from whether it succeeds and what it starts. -/
theorem leavesNothingRunning_iff_started :
    LeavesNothingRunning machine m host port routes loopThreads w ↔
      (startServer machine m host port routes loopThreads w).1.isOk = true ∨
        startedLoops machine m routes loopThreads = 0 := by
  have hrunning : (startServer machine m host port routes loopThreads w).2.running = _ :=
    startServer_running
  constructor
  · intro hnothing
    cases hcall : startServer machine m host port routes loopThreads w with
    | mk result w' =>
    cases result with
    | ok server => exact .inl rfl
    | error e =>
      right
      by_contra hstarted
      obtain ⟨n, hn⟩ := Nat.exists_eq_succ_of_ne_zero hstarted
      refine hnothing e w' hcall w.spawned le_rfl ?_
      rw [hcall, hn] at hrunning
      rw [hrunning]
      simp [List.range'_succ]
  · rintro hor e w' hcall thread hthread hmem
    rw [hcall] at hor hrunning
    rcases hor with hok | hstarted
    · cases hok
    · rw [hrunning, hstarted, List.range'_zero, List.reverse_nil, List.nil_append] at hmem
      have hbelow := w.below thread hmem
      omega

/-- **A failed call leaves nothing running if and only if it fails before the first event loop has
been started.** -/
theorem leavesNothingRunning_iff (machine : Machine) (m : Matchit) (host : String) (port : ℕ)
    (routes : List RouteSpec) (loopThreads : ℕ) (w : LoopThreads) :
    LeavesNothingRunning machine m host port routes loopThreads w ↔
      failsAfterFirstLoop machine m routes loopThreads = false := by
  have hfaults : ((List.range' 0 loopThreads).all fun k => (machine.loopFault k).isNone) =
      !(List.range loopThreads).any fun k => (machine.loopFault k).isSome := by
    rw [List.range_eq_range', List.not_any_eq_all_not]
    simp
  rw [leavesNothingRunning_iff_started, startedLoops_eq_zero_iff, startServer_isOk, hfaults,
    failsAfterFirstLoop]
  cases (buildService m routes).isOk <;> cases decide (loopThreads ≠ 0) <;>
    cases (machine.loopFault 0).isNone <;> cases machine.serves <;> simp

/-- The address is in use. -/
def addressInUse : Machine where
  loopFault _ := none
  runtimeError := none
  bindError := some "Address already in use (os error 98)"
  localAddr := .ok 8000

/-- No event loop has been started. -/
def noThreads : LoopThreads := ⟨0, [], [], by simp⟩

/-- A server that cannot bind its address leaves a loop running. -/
theorem loop_runs_after_bind_error :
    ¬LeavesNothingRunning addressInUse templateList "127.0.0.1" 8000 [] 1 noThreads := by
  intro hnothing
  exact hnothing _ _ rfl 0 le_rfl (List.mem_singleton_self 0)

/-- The threads whose join handle has not been taken. -/
def EventLoopPool.threads (pool : EventLoopPool) : List ℕ := pool.loops.filterMap (·.thread)

/-- A `stop` call joins the threads up to the first one whose loop it could not tell to stop. -/
theorem stopLoops_joining {raises : ℕ → Bool} {loops : List EventLoop} :
    (stopLoops raises loops w).2.2 = (loops.filterMap (·.thread)).find? raises := by
  induction loops generalizing w with
  | nil => rfl
  | cons eventLoop rest ih =>
    cases hthread : eventLoop.thread with
    | none => simp [stopLoops, EventLoop.stop, hthread, ih]
    | some thread => cases hraises : raises thread <;>
        simp [stopLoops, EventLoop.stop, hthread, hraises, ih]

/-- The threads that it has joined have ended. -/
theorem mem_running_stopLoops {raises : ℕ → Bool} {loops : List EventLoop} {thread : ℕ} :
    thread ∈ (stopLoops raises loops w).2.1.running ↔
      thread ∈ w.running ∧ thread ∉ (loops.filterMap (·.thread)).takeWhile (!raises ·) := by
  induction loops generalizing w with
  | nil => simp [stopLoops]
  | cons eventLoop rest ih =>
    cases hthread : eventLoop.thread with
    | none => simp [stopLoops, EventLoop.stop, hthread, ih]
    | some own =>
      cases hraises : raises own with
      | true => simp [stopLoops, EventLoop.stop, hthread, hraises]
      | false =>
        simp only [stopLoops, EventLoop.stop, hthread, hraises, Bool.false_eq_true, if_false, ih,
          LoopThreads.join, List.mem_filter, decide_eq_true_eq, List.filterMap_cons, Bool.not_false,
          List.takeWhile_cons_of_pos, List.mem_cons, not_or, and_assoc]

/-- A `stop` call that returns has taken every join handle. -/
theorem stopLoops_threads {raises : ℕ → Bool} {loops : List EventLoop}
    (h : (stopLoops raises loops w).2.2 = none) :
    (stopLoops raises loops w).1.filterMap (·.thread) = [] := by
  induction loops generalizing w with
  | nil => rfl
  | cons eventLoop rest ih =>
    cases hthread : eventLoop.thread with
    | none =>
      simp only [stopLoops, EventLoop.stop, hthread] at h ⊢
      simpa [hthread] using ih h
    | some own =>
      cases hraises : raises own with
      | true => simp [stopLoops, EventLoop.stop, hthread, hraises] at h
      | false =>
        simp only [stopLoops, EventLoop.stop, hthread, hraises, Bool.false_eq_true, if_false] at h ⊢
        simpa using ih h

/-- Stopping the loops takes none of them away. -/
theorem length_stopLoops {raises : ℕ → Bool} {loops : List EventLoop} :
    (stopLoops raises loops w).1.length = loops.length := by
  induction loops generalizing w with
  | nil => rfl
  | cons eventLoop rest ih =>
    cases hthread : eventLoop.thread with
    | none => simp [stopLoops, EventLoop.stop, hthread, ih]
    | some thread => cases hraises : raises thread <;>
        simp [stopLoops, EventLoop.stop, hthread, hraises, ih]

/-- The threads that have been started are those of the event loops of the pool. -/
theorem startLoops_eq_ok {faults : ℕ → Option LoopFault} {loops loops' : List EventLoop}
    {remaining : ℕ} {w' : LoopThreads}
    (hstart : startLoops faults loops remaining w = (.ok loops', w')) :
    loops'.length = loops.length + remaining ∧
      loops'.filterMap (·.thread) =
        loops.filterMap (·.thread) ++ List.range' w.spawned remaining ∧
      w'.running = (List.range' w.spawned remaining).reverse ++ w.running := by
  induction remaining generalizing loops w with
  | zero =>
    obtain ⟨rfl, rfl⟩ : loops = loops' ∧ w = w' := by simpa [startLoops] using hstart
    simp
  | succ remaining ih =>
    cases hfault : faults loops.length with
    | some fault => simp [startLoops, EventLoop.start, hfault] at hstart
    | none =>
      simp only [startLoops, EventLoop.start, hfault] at hstart
      obtain ⟨hlength, hthreads, hrunning⟩ := ih hstart
      refine ⟨by simp [hlength]; omega, ?_, ?_⟩
      · simp [hthreads, LoopThreads.spawn, List.range'_succ]
      · simp [hrunning, LoopThreads.spawn, List.range'_succ]

/-- A started server has the pool that was started. -/
theorem pool_of_startServer {server : Server m} {w' : LoopThreads}
    (hstart : startServer machine m host port routes loopThreads w = (.ok server, w')) :
    EventLoopPool.start machine.loopFault loopThreads w = (.ok server.eventLoops, w') := by
  unfold startServer at hstart
  cases hservice : buildService m routes with
  | error e => simp [hservice] at hstart
  | ok service =>
    simp only [hservice] at hstart
    rcases hpool : EventLoopPool.start machine.loopFault loopThreads w with ⟨_ | pool, w''⟩
    · simp [hpool] at hstart
    · simp only [hpool] at hstart
      cases hruntime : machine.runtimeError with
      | some error => simp [hruntime] at hstart
      | none =>
        cases hbind : machine.bindError with
        | some error => simp [hruntime, hbind] at hstart
        | none =>
          cases haddr : machine.localAddr with
          | error error => simp [hruntime, hbind, haddr] at hstart
          | ok boundPort =>
            simp only [hruntime, hbind, haddr, Prod.mk.injEq, Except.ok.injEq] at hstart
            obtain ⟨rfl, rfl⟩ := hstart
            rfl

/-- The loops of a started server. -/
theorem startLoops_of_startServer {server : Server m} {w' : LoopThreads}
    (hstart : startServer machine m host port routes loopThreads w = (.ok server, w')) :
    startLoops machine.loopFault [] loopThreads w = (.ok server.eventLoops.loops, w') := by
  have hpool := pool_of_startServer hstart
  unfold EventLoopPool.start at hpool
  split at hpool
  · simp at hpool
  · rcases hstarted : startLoops machine.loopFault [] loopThreads w with ⟨_ | loops, w''⟩
    · simp [hstarted] at hpool
    · simp only [hstarted, Prod.mk.injEq, Except.ok.injEq] at hpool
      rw [← hpool.1, hpool.2]

end Rayo.Startup
