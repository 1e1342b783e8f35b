import Rayo.Routing.App
import Rayo.Server.GraceValue
import Rayo.Server.Startup

/-!
# A whole run

`run` resolves the number of event loops, starts a server, waits for it and shuts it down. An
exception can hit it at any point, a `KeyboardInterrupt` for one. One that is pending when a loop is
about to be told to stop is lost there with the message, and the loop is joined for ever. Whatever
else happens, a server that was started leaves nothing running once it has been collected.
-/

namespace Rayo.Run

open Startup

/-- The exceptions that reach `run`. -/
inductive RunError
  | startup (e : StartupError)
  /-- The `OverflowError` of an argument that is too large or negative for its type. -/
  | overflow
  | keyboardInterrupt
  | raised (message : String)
  deriving DecidableEq

/-- What `run` asks the interpreter for. -/
structure Interpreter where
  /-- `sys._is_gil_enabled()`, where it exists. -/
  isGilEnabled : Option Bool
  /-- `os.cpu_count()`. -/
  cpuCount : Option ℕ

/-- `_is_free_threaded`. -/
def Interpreter.isFreeThreaded (interpreter : Interpreter) : Bool :=
  interpreter.isGilEnabled = some false

/-- `_resolve_loop_threads`. -/
def resolveLoopThreads (interpreter : Interpreter) (loopThreads : Option ℤ) :
    Except RunError ℤ :=
  match loopThreads with
  | some loopThreads =>
    if loopThreads < 1 then
      .error (.startup (.valueError ("loop_threads must be at least 1, got " ++
        toString loopThreads ++ ". Leave it unset to let Rayo pick: one per core on " ++
        "free-threaded builds, one on GIL builds.")))
    else .ok loopThreads
  | none =>
    if interpreter.isFreeThreaded then
      match interpreter.cpuCount with
      | none | some 0 => .ok 1
      | some cpuCount => .ok cpuCount
    else .ok 1

/-- The conversion of an argument to an unsigned type. -/
def extractUnsigned (bits : ℕ) (argument : ℤ) : Except RunError ℕ :=
  if 0 ≤ argument ∧ argument < 2 ^ bits then .ok argument.toNat else .error .overflow

variable {m : Matchit}

/-- `_core.start_server`, from its arguments on. -/
def callStartServer (machine : Machine) (m : Matchit) (host : String) (port : ℤ)
    (routes : List RouteSpec) (loopThreads : ℤ) (w : LoopThreads) :
    Except RunError (Startup.Server m) × LoopThreads :=
  match extractUnsigned 16 port with
  | .error e => (.error e, w)
  | .ok port =>
    match extractUnsigned 64 loopThreads with
    | .error e => (.error e, w)
    | .ok loopThreads =>
      match startServer machine m host port routes loopThreads w with
      | (.error e, w) => (.error (.startup e), w)
      | (.ok server, w) => (.ok server, w)

/-- `_start`. -/
def start (interpreter : Interpreter) (machine : Machine) (m : Matchit) (app : App)
    (host : String) (port : ℤ) (loopThreads : Option ℤ) (w : LoopThreads) :
    Except RunError (Startup.Server m) × LoopThreads :=
  match resolveLoopThreads interpreter loopThreads with
  | .error e => (.error e, w)
  | .ok loopThreads => callStartServer machine m host port app.routes loopThreads w

/-- A started server, what its shutdowns share, and the threads of the process. The event loops are
those of the server, so that the host has none of its own. -/
structure Session (m : Matchit) where
  server : Startup.Server m
  host : GraceValue.Host
  threads : LoopThreads

/-- How a shutdown goes. -/
structure Closing where
  /-- Whether the drain comes in time, in each of the two waits. -/
  drainedNaturally : Bool
  drainedAfterCancel : Bool
  /-- The threads whose loop would not be told to stop, since `call_soon_threadsafe` would raise an
  exception that is pending there, and would not end otherwise. -/
  raises : ℕ → Bool

/-- `event_loops.stop`, with the thread that it joins for ever, if there is one. -/
def Session.stop (closing : Closing) (session : Session m) : Session m × Option ℕ :=
  let (eventLoops, threads, joining) :=
    session.server.eventLoops.stop closing.raises session.threads
  ({ session with server := { session.server with eventLoops }, threads }, joining)

/-- `shutdown_impl`, which stops the event loops at its end. -/
def Session.shutdownImpl (graceSeconds : Option GraceValue.F64) (closing : Closing)
    (session : Session m) : Session m × Option ℕ :=
  match GraceValue.shutdownImpl
    ⟨graceSeconds, closing.drainedNaturally, closing.drainedAfterCancel⟩ session.host with
  | (.panicked, host) => ({ session with host }, none)
  | (.returned, host) => { session with host }.stop closing

/-- `wait`, once it has been woken, and `shutdown` without a grace period. -/
def Session.shutdown (closing : Closing) (session : Session m) : Session m × Option ℕ :=
  session.shutdownImpl none closing

/-- The server is collected: `Drop for Server`, and the event loops after it. -/
def Session.collect (closing : Closing) (session : Session m) : Session m × Option ℕ :=
  match session.shutdownImpl (some (.finite 0)) closing with
  | (session, some thread) => (session, some thread)
  | (session, none) =>
    ({ session with threads := session.server.eventLoops.drop session.threads }, none)

/-- What befalls a `run`: the exception that hits it at each point, if one does, and how its
shutdowns go. -/
structure Course where
  /-- Before the `try`, as by the `print`. -/
  printRaises : Option RunError
  /-- In the `try`, before the call of `wait`. -/
  interruptsWait : Option RunError
  /-- When `wait` returns. -/
  waitRaises : Option RunError
  /-- In the `finally`, before the call of `shutdown`. -/
  interruptsShutdown : Option RunError
  /-- When `shutdown` returns. -/
  shutdownRaises : Option RunError
  waitCloses : Closing
  shutdownCloses : Closing

/-- How a statement ends. -/
inductive Ending
  | returned
  | raised (e : RunError)
  /-- It joins this thread for ever. -/
  | stuck (thread : ℕ)
  deriving DecidableEq

/-- A call ends in an exception that hits it when it returns. -/
def Ending.ofCall (raises : Option RunError) : Option ℕ → Ending
  | some thread => .stuck thread
  | none => raises.elim .returned .raised

/-- The `except` clause of `run`. -/
def Ending.exceptKeyboardInterrupt : Ending → Ending
  | .raised .keyboardInterrupt => .returned
  | ending => ending

/-- The ending of a statement with a `finally` clause, from those of its two parts. -/
def Ending.finally (ending : Ending) : Ending → Ending
  | .returned => ending
  | overriding => overriding

/-- The body of the `try`. -/
def Session.wait (course : Course) (session : Session m) : Ending × Session m :=
  match course.interruptsWait with
  | some e => (.raised e, session)
  | none =>
    let (session, joining) := session.shutdown course.waitCloses
    (.ofCall course.waitRaises joining, session)

/-- The `finally` clause, for a `try` with this ending. -/
def Session.finally (course : Course) (ending : Ending) (session : Session m) :
    Ending × Session m :=
  match course.interruptsShutdown with
  | some e => (.raised e, session)
  | none =>
    let (session, joining) := session.shutdown course.shutdownCloses
    (ending.finally (.ofCall course.shutdownRaises joining), session)

/-- `run` after the start. -/
def Session.serve (course : Course) (session : Session m) : Ending × Session m :=
  match course.printRaises with
  | some e => (.raised e, session)
  | none =>
    match session.wait course with
    | (.stuck thread, session) => (.stuck thread, session)
    | (ending, session) => session.finally course ending.exceptKeyboardInterrupt

/-- How a run ends. -/
inductive RunResult (m : Matchit)
  | notStarted (e : RunError) (threads : LoopThreads)
  | served (ending : Ending) (session : Session m)

/-- `run`. -/
def run (interpreter : Interpreter) (machine : Machine) (m : Matchit) (app : App)
    (host : String) (port : ℤ) (loopThreads : Option ℤ) (course : Course) (w : LoopThreads) :
    RunResult m :=
  match resolveLoopThreads interpreter loopThreads with
  | .error e => .notStarted e w
  | .ok resolvedLoopThreads =>
    match start interpreter machine m app host port (some resolvedLoopThreads) w with
    | (.error e, w) => .notStarted e w
    | (.ok server, w) =>
      let session : Session m := ⟨server, .start 0, w⟩
      let (ending, session) := session.serve course
      .served ending session

/-- It is at least one, and the second check of `_start` changes nothing. -/
theorem resolveLoopThreads_eq_ok {interpreter : Interpreter} {loopThreads : Option ℤ} {n : ℤ}
    (h : resolveLoopThreads interpreter loopThreads = .ok n) :
    1 ≤ n ∧ resolveLoopThreads interpreter (some n) = .ok n := by
  have hpos : 1 ≤ n := by
    cases loopThreads with
    | some given =>
      simp only [resolveLoopThreads] at h
      split at h
      · cases h
      · next hgiven =>
        obtain rfl := Except.ok.inj h
        omega
    | none =>
      simp only [resolveLoopThreads] at h
      split at h
      · split at h
        · exact (Except.ok.inj h).le
        · exact (Except.ok.inj h).le
        · next cpuCount hne _ =>
          have hpos : cpuCount ≠ 0 := fun heq => hne heq
          have heq := Except.ok.inj h
          omega
      · exact (Except.ok.inj h).le
  exact ⟨hpos, by simp [resolveLoopThreads, show ¬ n < 1 by omega]⟩

variable {machine : Machine} {host : String} {routes : List RouteSpec} {w w' : LoopThreads}
  {server : Startup.Server m}

/-- A call that succeeds has converted its arguments. -/
theorem callStartServer_eq_ok {port loopThreads : ℤ}
    (h : callStartServer machine m host port routes loopThreads w = (.ok server, w')) :
    ∃ port', startServer machine m host port' routes loopThreads.toNat w = (.ok server, w') := by
  unfold callStartServer at h
  cases hport : extractUnsigned 16 port with
  | error e => simp [hport] at h
  | ok port' =>
    have hthreads : ∀ n, extractUnsigned 64 loopThreads = .ok n → n = loopThreads.toNat := by
      intro n hn
      unfold extractUnsigned at hn
      split at hn
      · exact (Except.ok.inj hn).symm
      · cases hn
    cases hextract : extractUnsigned 64 loopThreads with
    | error e => simp [hport, hextract] at h
    | ok n =>
      obtain rfl := hthreads n hextract
      simp only [hport, hextract] at h
      rcases hstart : startServer machine m host port' routes loopThreads.toNat w with
        ⟨e | server', w''⟩
      · simp [hstart] at h
      · rw [hstart] at h
        exact ⟨port', hstart.trans (by simpa using h)⟩

/-- No thread from `first` on runs. -/
def Stopped (first : ℕ) (session : Session m) : Prop :=
  ∀ t, first ≤ t → t ∉ session.threads.running

/-- The threads from `first` on are those that the event loops of the server have a handle of, and
the receiver of the drain is still there or the drain is over. -/
structure Owned (first : ℕ) (session : Session m) : Prop where
  running : ∀ t ∈ session.server.eventLoops.threads, t ∈ session.threads.running
  threads : ∀ t ∈ session.threads.running, first ≤ t → t ∈ session.server.eventLoops.threads
  drain : (session.host.serveFinished = true ∧ GraceValue.StopsDrained session.host.log) ∨
    GraceValue.DrainOver session.host

variable {first : ℕ} {session : Session m} {closing : Closing} {course : Course}

/-- Loops are only stopped after a drain. -/
theorem Owned.stopsDrained (h : Owned first session) :
    GraceValue.StopsDrained session.host.log :=
  h.drain.elim And.right GraceValue.DrainOver.stopsDrained

/-- The threads have ended of loops that no thread is left of. -/
theorem Owned.stopped (h : Owned first session)
    (hthreads : session.server.eventLoops.threads = []) : Stopped first session := by
  intro t ht hmem
  have howned := h.threads t hmem ht
  rw [hthreads] at howned
  cases howned

/-- What a part of a run leaves of a server with `size` event loops: either it joins a thread that
goes on, or the loops still have the handles of these threads. -/
structure Left (first size : ℕ) (threads : List ℕ) (joining : Option ℕ) (session : Session m) :
    Prop where
  size : session.server.eventLoops.loops.length = size
  stopsDrained : GraceValue.StopsDrained session.host.log
  owned : joining = none → Owned first session
  handles : joining = none → session.server.eventLoops.threads = threads
  runs : ∀ t, joining = some t → t ∈ session.threads.running

/-- A session that owns its threads has them left. -/
theorem Owned.left (h : Owned first session) :
    Left first session.server.eventLoops.loops.length session.server.eventLoops.threads none
      session where
  size := rfl
  stopsDrained := h.stopsDrained
  owned _ := h
  handles _ := rfl
  runs _ := nofun

/-- Once the drain is over, the loops are stopped up to the first one that is not told to. -/
theorem Owned.stop (h : Owned first session) (closing : Closing)
    (hover : GraceValue.DrainOver session.host) :
    (session.stop closing).2 = session.server.eventLoops.threads.find? closing.raises ∧
      Left first session.server.eventLoops.loops.length [] (session.stop closing).2
        (session.stop closing).1 := by
  have hjoining : (session.stop closing).2 =
      session.server.eventLoops.threads.find? closing.raises := stopLoops_joining
  refine ⟨hjoining, length_stopLoops, hover.stopsDrained, fun hnone => ?_, stopLoops_threads,
    fun t ht => mem_running_stopLoops.mpr ?_⟩
  · have htake : session.server.eventLoops.threads.takeWhile (!closing.raises ·) =
        session.server.eventLoops.threads :=
      List.takeWhile_eq_self_iff.mpr fun t ht => by
        simpa using List.find?_eq_none.mp (hjoining.symm.trans hnone) t ht
    have hhandles : (session.stop closing).1.server.eventLoops.threads = [] :=
      stopLoops_threads hnone
    refine ⟨fun t ht => ?_, fun t hmem ht => ?_, .inr hover⟩
    · rw [hhandles] at ht
      cases ht
    · obtain ⟨hrunning, hnot⟩ := mem_running_stopLoops.mp hmem
      exact absurd (h.threads t hrunning ht) (htake ▸ hnot)
  · have hfind := hjoining.symm.trans ht
    refine ⟨h.running t (List.mem_of_find?_eq_some hfind), fun hmem => ?_⟩
    have hnot := List.mem_takeWhile_imp hmem
    simp [List.find?_some hfind] at hnot

/-- A shutdown with a grace period that is converted joins the first thread whose loop it cannot
tell to stop for ever, and otherwise leaves none. -/
theorem Owned.shutdownImpl (h : Owned first session) (closing : Closing)
    {graceSeconds : Option GraceValue.F64} (hgrace : GraceValue.Convertible graceSeconds) :
    (session.shutdownImpl graceSeconds closing).2 =
        session.server.eventLoops.threads.find? closing.raises ∧
      Left first session.server.eventLoops.loops.length []
        (session.shutdownImpl graceSeconds closing).2
        (session.shutdownImpl graceSeconds closing).1 := by
  obtain ⟨hcompleted, hover⟩ : GraceValue.Completed (GraceValue.shutdownImpl
        ⟨graceSeconds, closing.drainedNaturally, closing.drainedAfterCancel⟩ session.host) ∧
      GraceValue.DrainOver (GraceValue.shutdownImpl
        ⟨graceSeconds, closing.drainedNaturally, closing.drainedAfterCancel⟩ session.host).2 := by
    rcases h.drain with ⟨hslot, hlog⟩ | hover
    · exact GraceValue.drainOver_first hslot hlog hgrace
    · exact hover.next _
  unfold Session.shutdownImpl
  rcases hresult : GraceValue.shutdownImpl
    ⟨graceSeconds, closing.drainedNaturally, closing.drainedAfterCancel⟩ session.host with
    ⟨_ | _, host⟩ <;> rw [hresult] at hcompleted hover
  · have howned : Owned first ({ session with host } : Session m) :=
      ⟨h.running, h.threads, .inr hover⟩
    exact howned.stop closing hover
  · rcases hcompleted with ⟨hreturned, -⟩ | ⟨-, hslot⟩
    · cases hreturned
    · exact absurd (hover.taken.symm.trans hslot) Bool.false_ne_true

/-- A call of `shutdown` without a grace period leaves the same as one with the default. -/
theorem Owned.shutdown (h : Owned first session) (closing : Closing) :
    (session.shutdown closing).2 = session.server.eventLoops.threads.find? closing.raises ∧
      Left first session.server.eventLoops.loops.length [] (session.shutdown closing).2
        (session.shutdown closing).1 :=
  h.shutdownImpl closing ⟨nofun, nofun⟩

/-- The collection of the server joins the first thread whose loop it cannot tell to stop for ever,
and otherwise leaves none running. -/
theorem Owned.collect (h : Owned first session) (closing : Closing) :
    (session.collect closing).2 = session.server.eventLoops.threads.find? closing.raises ∧
      ((session.collect closing).2 = none → Stopped first (session.collect closing).1) ∧
      GraceValue.StopsDrained (session.collect closing).1.host.log := by
  have hgrace : GraceValue.Convertible (some (.finite 0)) := by
    refine ⟨nofun, fun x hx => ?_⟩
    obtain rfl := GraceValue.F64.finite.inj (Option.some.inj hx)
    norm_num
  obtain ⟨hjoining, hleft⟩ := h.shutdownImpl closing hgrace
  unfold Session.collect
  rcases hshut : session.shutdownImpl (some (.finite 0)) closing with ⟨session', _ | thread⟩
  · rw [hshut] at hjoining hleft
    refine ⟨hjoining, fun _ t ht hmem => ?_, hleft.stopsDrained⟩
    refine (hleft.owned rfl).stopped (hleft.handles rfl) t ht ?_
    rwa [← dropLoops_running session'.server.eventLoops.loops]
  · rw [hshut] at hjoining hleft
    exact ⟨hjoining, nofun, hleft.stopsDrained⟩

/-- A server that has just been started. -/
theorem owned_of_startServer {port loopThreads : ℕ}
    (hstart : startServer machine m host port routes loopThreads w = (.ok server, w')) :
    Owned w.spawned (⟨server, .start 0, w'⟩ : Session m) ∧
      server.eventLoops.loops.length = loopThreads ∧
      server.eventLoops.threads = List.range' w.spawned loopThreads := by
  obtain ⟨hlength, hthreads, hrunning⟩ := startLoops_eq_ok (startLoops_of_startServer hstart)
  have hown : server.eventLoops.threads = List.range' w.spawned loopThreads := hthreads
  refine ⟨⟨fun t ht => ?_, fun t hmem ht => ?_, .inl ⟨rfl, fun before later hsplit => ?_⟩⟩,
    hlength.trans (Nat.zero_add _), hown⟩
  · have hmem : t ∈ List.range' w.spawned loopThreads := hown ▸ ht
    exact hrunning ▸ List.mem_append_left _ (List.mem_reverse.mpr hmem)
  · rcases List.mem_append.mp (hrunning ▸ hmem) with hnew | hold
    · exact hown ▸ List.mem_reverse.mp hnew
    · exact absurd (w.below t hold) (Nat.not_lt.mpr ht)
  · exact absurd hsplit.symm (by simp [GraceValue.Host.start])

/-- The thread that an ending joins for ever. -/
def Ending.joining : Ending → Option ℕ
  | .stuck thread => some thread
  | _ => none

/-- The thread that an ending joins is the one it is stuck with. -/
theorem Ending.joining_eq_some {ending : Ending} {t : ℕ} :
    ending.joining = some t ↔ ending = .stuck t := by
  cases ending <;> simp [Ending.joining]

/-- A call joins what its shutdown joins. -/
@[simp] theorem Ending.joining_ofCall (raises : Option RunError) (joining : Option ℕ) :
    (Ending.ofCall raises joining).joining = joining := by
  cases joining with
  | none => cases raises <;> rfl
  | some thread => rfl

/-- The thread that a run joins for ever if its server has these threads: in the first of its two
shutdowns that is called, that of `wait` or, if it was hit before, the other one. -/
def Course.joins (course : Course) (threads : List ℕ) : Option ℕ :=
  match course.printRaises, course.interruptsWait, course.interruptsShutdown with
  | none, none, _ => threads.find? course.waitCloses.raises
  | none, some _, none => threads.find? course.shutdownCloses.raises
  | _, _, _ => none

/-- One of the shutdowns of a run is called. -/
def Course.shutsDown (course : Course) : Bool :=
  course.printRaises.isNone && (course.interruptsWait.isNone || course.interruptsShutdown.isNone)

/-- After a part that has ended, a `finally` clause joins what it joins itself. -/
@[simp] theorem Ending.joining_finally {ending : Ending} (h : ending.joining = none)
    (overriding : Ending) : (ending.finally overriding).joining = overriding.joining := by
  cases overriding with
  | returned => exact h
  | raised e => rfl
  | stuck thread => rfl

/-- The `except` clause joins nothing and frees nothing. -/
theorem Ending.joining_exceptKeyboardInterrupt (ending : Ending) :
    ending.exceptKeyboardInterrupt.joining = ending.joining := by
  rcases ending with _ | (_ | _ | _ | _) | _ <;> rfl

/-- What is left after the `finally` clause. -/
theorem Owned.finally (h : Owned first session) (course : Course) {ending : Ending}
    (hending : ending.joining = none) :
    (session.finally course ending).1.joining = (if course.interruptsShutdown = none then
        session.server.eventLoops.threads.find? course.shutdownCloses.raises else none) ∧
      Left first session.server.eventLoops.loops.length
        (if course.interruptsShutdown = none then [] else session.server.eventLoops.threads)
        (session.finally course ending).1.joining (session.finally course ending).2 := by
  unfold Session.finally
  cases hinterrupts : course.interruptsShutdown with
  | some e => exact ⟨rfl, h.left⟩
  | none =>
    simp only [Ending.joining_finally hending, Ending.joining_ofCall, if_true]
    exact h.shutdown course.shutdownCloses

/-- What is left when a run is over. -/
theorem Owned.serve (h : Owned first session) (course : Course) :
    (session.serve course).1.joining = course.joins session.server.eventLoops.threads ∧
      Left first session.server.eventLoops.loops.length
        (if course.shutsDown then [] else session.server.eventLoops.threads)
        (session.serve course).1.joining (session.serve course).2 := by
  unfold Session.serve Course.joins Course.shutsDown
  cases hprint : course.printRaises with
  | some e => exact ⟨rfl, h.left⟩
  | none =>
    unfold Session.wait
    cases hwait : course.interruptsWait with
    | some e =>
      have hending : (Ending.raised e).exceptKeyboardInterrupt.joining = none :=
        Ending.joining_exceptKeyboardInterrupt _
      have hfinally := h.finally course hending
      cases hinterrupts : course.interruptsShutdown with
      | some e' => simpa [hinterrupts] using hfinally
      | none => simpa [hinterrupts] using hfinally
    | none =>
      obtain ⟨hjoining, hleft⟩ := h.shutdown course.waitCloses
      rcases hshut : session.shutdown course.waitCloses with ⟨session', _ | thread⟩ <;>
        rw [hshut] at hjoining hleft
      · -- nothing is left for the second shutdown to join
        have hsecond : ∀ ending : Ending, ending.joining = none →
            (session'.finally course ending.exceptKeyboardInterrupt).1.joining = none ∧
              Left first session.server.eventLoops.loops.length []
                (session'.finally course ending.exceptKeyboardInterrupt).1.joining
                (session'.finally course ending.exceptKeyboardInterrupt).2 := by
          intro ending hending
          have hfinally := (hleft.owned rfl).finally course
            ((Ending.joining_exceptKeyboardInterrupt ending).trans hending)
          rw [hleft.handles rfl, hleft.size] at hfinally
          simpa using hfinally
        rw [← hjoining]
        cases course.waitRaises with
        | none => exact hsecond .returned rfl
        | some e => exact hsecond (.raised e) rfl
      · exact ⟨hjoining, hleft⟩

/-- The `except` clause: no `KeyboardInterrupt` escapes from the `try`. -/
theorem raised_serve (h : (session.serve course).1 = .raised .keyboardInterrupt) :
    course.printRaises = some .keyboardInterrupt ∨
      course.interruptsShutdown = some .keyboardInterrupt ∨
      course.shutdownRaises = some .keyboardInterrupt := by
  have hfinally : ∀ (session : Session m) (ending : Ending),
      (session.finally course ending.exceptKeyboardInterrupt).1 = .raised .keyboardInterrupt →
        course.interruptsShutdown = some .keyboardInterrupt ∨
          course.shutdownRaises = some .keyboardInterrupt := by
    intro session ending hraised
    unfold Session.finally at hraised
    cases hinterrupts : course.interruptsShutdown with
    | some e => exact .inl (by simpa [hinterrupts] using hraised)
    | none =>
      refine .inr ?_
      rcases hshut : session.shutdown course.shutdownCloses with ⟨session', _ | thread⟩
      · cases hraises : course.shutdownRaises with
        | some e => simpa [hinterrupts, hshut, hraises, Ending.ofCall, Ending.finally] using hraised
        | none =>
          simp only [hinterrupts, hshut, hraises, Ending.ofCall, Ending.finally,
            Option.elim_none] at hraised
          rcases ending with _ | (_ | _ | _ | _) | _ <;> cases hraised
      · simp [hinterrupts, hshut, Ending.ofCall, Ending.finally] at hraised
  unfold Session.serve at h
  cases hprint : course.printRaises with
  | some e => exact .inl (by simpa [hprint] using h)
  | none =>
    refine .inr ?_
    simp only [hprint] at h
    rcases hwait : session.wait course with ⟨_ | e | thread, session'⟩
    · exact hfinally session' .returned (by simpa [hwait] using h)
    · exact hfinally session' (.raised e) (by simpa [hwait] using h)
    · simp [hwait] at h

/-- Every step of `start_server` succeeds. -/
def idleMachine : Machine where
  loopFault _ := none
  runtimeError := none
  bindError := none
  localAddr := .ok 8000

/-- The drain comes in time, and every loop is told to stop. -/
def smoothClosing : Closing := ⟨true, true, fun _ => false⟩

/-- The run is ended by a `KeyboardInterrupt` when `wait` returns. -/
def interruptedCourse : Course where
  printRaises := none
  interruptsWait := none
  waitRaises := some .keyboardInterrupt
  interruptsShutdown := none
  shutdownRaises := none
  waitCloses := smoothClosing
  shutdownCloses := smoothClosing

/-- The `KeyboardInterrupt` is still pending when the first loop is about to be told to stop. -/
example : ∃ session : Session templateList,
    run ⟨some false, some 2⟩ idleMachine templateList (App.ofDecorations asciiWord [getItem])
      "127.0.0.1" 8000 none
      { interruptedCourse with waitCloses := { smoothClosing with raises := (· == 0) } }
      noThreads = .served (.stuck 0) session := ⟨_, rfl⟩

end Rayo.Run
