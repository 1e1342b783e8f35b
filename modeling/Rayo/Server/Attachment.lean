import Mathlib.Logic.Function.Basic
import Rayo.Transition

/-!
# Waiting with the interpreter

On a build with a global lock, a thread is attached to the interpreter while it holds a
token. Handlers, loop threads and workers of the runtime need it to go on, and so does
whoever shuts the server down. The waits of `shutdown_impl` detach. The wait in the drop of
the `runtime` field, after `Drop::drop`, does not. A thread that joins itself is refused by POSIX
and unwinds, as a worker of the runtime does that is about to block for the drain or in the drop
of the runtime.
-/

namespace Rayo

/-- The threads of the process: threads of the program, and the server's own ones. -/
inductive Thread
  | python (n : ℕ)
  /-- The thread of an event loop. -/
  | loop (l : ℕ)
  /-- A worker of the Tokio runtime. -/
  | worker (n : ℕ)
  /-- A thread of the blocking pool, for sync handlers. -/
  | blocking (n : ℕ)
  deriving DecidableEq

/-- The thread belongs to the server. -/
def Thread.own : Thread → Bool
  | .python _ => false
  | .loop _ | .worker _ | .blocking _ => true

/-- Tokio lets the thread block for a future, which it does not let a worker. -/
def Thread.mayBlock : Thread → Bool
  | .worker _ => false
  | .python _ | .loop _ | .blocking _ => true

/-- What an attached thread is doing. The flag says whether `shutdown_impl` was called by
`Drop::drop`. -/
inductive Stage
  | python
  /-- At the beginning of `shutdown_impl`. -/
  | shutdown (dropping : Bool)
  /-- The grace period has expired: in `cancel_in_flight`. -/
  | cancel (dropping : Bool)
  /-- In `EventLoopPool::stop`, with these loops ahead. -/
  | stop (loops : List ℕ) (dropping : Bool)
  deriving DecidableEq

/-- Where a thread is. -/
inductive ThreadPc
  /-- A runtime thread between two polls or closures. -/
  | parked
  /-- Running or blocked without the token. -/
  | away
  /-- Blocked until it gets the token. -/
  | attaching (stage : Stage)
  | attached (stage : Stage)
  /-- Detached, until the drain or a timer: the natural grace period, or the window after the
  cancellations. -/
  | drainWait (grace dropping : Bool)
  /-- Detached, in `join` of the thread of a loop. -/
  | joinWait (l : ℕ) (loops : List ℕ) (dropping : Bool)
  /-- Attached, in the drop of the `runtime` field. -/
  | tearingDown
  | ended
  deriving DecidableEq

/-- Where a call goes that has told a loop to stop. The join of a thread by itself panics, and the
call is over as soon as it has the token back. -/
def ThreadPc.joins (t : Thread) (l : ℕ) (loops : List ℕ) (dropping : Bool) : ThreadPc :=
  if t = .loop l then .attaching (.stop [] dropping) else .joinWait l loops dropping

/-- Between two polls or closures, or gone. -/
def ThreadPc.idle : ThreadPc → Bool
  | .parked | .ended => true
  | _ => false

/-- The thread has the token. -/
def ThreadPc.holds : ThreadPc → Bool
  | .attached _ | .tearingDown => true
  | _ => false

/-- The thread is not at a stage of a shutdown. -/
def ThreadPc.plain : ThreadPc → Bool
  | .parked | .away | .ended | .attaching .python | .attached .python => true
  | _ => false

/-- The threads of a process with a server. -/
structure Process where
  /-- The numbers of loops, workers and threads of the blocking pool. -/
  loops : ℕ
  workers : ℕ
  pool : ℕ
  token : Option Thread
  pc : Thread → ThreadPc
  /-- `serve_finished` still holds the receiver. -/
  receiver : Bool
  /-- The loops that still have their join handle. -/
  handles : ℕ → Bool
  /-- The loops that have been told to stop. -/
  told : List ℕ
  /-- The threads in a call of `shutdown`, which hold a reference to the server. -/
  inside : List Thread
  /-- The last reference to the server is gone. -/
  dropped : Bool
  /-- The runtime is being dropped, and starts nothing new. -/
  shuttingDown : Bool
  /-- Async requests whose `DispatchedRequest` is alive and whose task is unfinished. -/
  unanswered : List ℕ

namespace Process

/-- A server that has just been started. -/
def start (loops workers pool : ℕ) : Process where
  loops := loops
  workers := workers
  pool := pool
  token := none
  pc
    | .python _ | .loop _ => .away
    | .worker _ | .blocking _ => .parked
  receiver := true
  handles _ := true
  told := []
  inside := []
  dropped := false
  shuttingDown := false
  unanswered := []

/-- The thread belongs to the Tokio runtime. -/
def runtimeHas (s : Process) : Thread → Bool
  | .worker n => n < s.workers
  | .blocking m => m < s.pool
  | .python _ | .loop _ => false

/-- The steps of the threads. -/
inductive Event
  -- the interpreter
  | attach (t : Thread)
  | acquire (t : Thread) (stage : Stage)
  | detach (t : Thread)
  -- the runtime
  | poll (n : ℕ)
  | dispatch (n r : ℕ)
  | spawnBlocking (n m : ℕ)
  | park (t : Thread)
  | retire (t : Thread)
  -- the loops
  | answer (r : ℕ)
  | loopEnds (l : ℕ)
  -- `shutdown_impl`, and the drop of a `Server`
  | shutdown (t : Thread)
  | dropLast (t : Thread)
  | takeReceiver (t : Thread) (dropping : Bool)
  /-- `Duration::from_secs_f64` does not take the grace value. -/
  | conversionPanics (t : Thread)
  | waited (t : Thread) (grace dropping : Bool)
  | graceExpires (t : Thread) (dropping : Bool)
  | cancelInFlight (t : Thread) (dropping : Bool)
  | stopLoop (t : Thread) (l : ℕ) (loops : List ℕ) (dropping : Bool)
  /-- `call_soon_threadsafe` raises, which `stop` prints before it joins. -/
  | stopRefused (t : Thread) (l : ℕ) (loops : List ℕ) (dropping : Bool)
  | joined (t : Thread) (l : ℕ) (loops : List ℕ) (dropping : Bool)
  | returns (t : Thread)
  | dropRuntime (t : Thread)
  | runtimeDropped (t : Thread)

/-- When a step can happen. A worker that shuts down still drops the connections it owns,
which attaches as long as one of their requests is unanswered. -/
def enabled (s : Process) : Event → Bool
  | .attach t => s.pc t = .away
  | .acquire t stage => s.pc t = .attaching stage ∧ s.token = none
  | .detach t => s.pc t = .attached .python
  | .poll n => n < s.workers ∧ s.pc (.worker n) = .parked ∧
      (s.shuttingDown = false ∨ s.unanswered ≠ [])
  | .dispatch n _ => n < s.workers ∧ s.pc (.worker n) = .attached .python
  | .spawnBlocking n m => s.pc (.worker n) = .away ∧ m < s.pool ∧
      s.pc (.blocking m) = .parked ∧ s.shuttingDown = false
  | .park t => s.runtimeHas t = true ∧ s.pc t = .away
  | .retire t => s.runtimeHas t = true ∧ s.pc t = .parked ∧ s.shuttingDown = true
  | .answer r => r ∈ s.unanswered
  | .loopEnds l => s.pc (.loop l) = .attached .python ∧ l ∈ s.told
  | .shutdown t => s.pc t = .attached .python ∧ s.dropped = false
  | .dropLast t => s.pc t = .attached .python ∧ s.dropped = false ∧ s.inside = []
  | .takeReceiver t dropping => s.pc t = .attached (.shutdown dropping)
  | .conversionPanics t => s.pc t = .attached (.shutdown false) ∧ s.receiver = true
  | .waited t grace dropping => s.pc t = .drainWait grace dropping
  | .graceExpires t dropping => s.pc t = .drainWait true dropping
  | .cancelInFlight t dropping => s.pc t = .attached (.cancel dropping)
  | .stopLoop t l loops dropping => s.pc t = .attached (.stop (l :: loops) dropping)
  | .stopRefused t l loops dropping =>
    s.pc t = .attached (.stop (l :: loops) dropping) ∧ s.handles l = true
  | .joined t l loops dropping => s.pc t = .joinWait l loops dropping ∧ s.pc (.loop l) = .ended
  | .returns t => s.pc t = .attached (.stop [] false)
  | .dropRuntime t => s.pc t = .attached (.stop [] true)
  | .runtimeDropped t => s.pc t = .tearingDown ∧
      (∀ n < s.workers, s.pc (.worker n) = .ended) ∧ ∀ m < s.pool, s.pc (.blocking m) = .ended

/-- A thread goes on. -/
def goto (s : Process) (t : Thread) (pc : ThreadPc) : Process :=
  { s with pc := Function.update s.pc t pc }

/-- A thread goes on without the token. -/
def release (s : Process) (t : Thread) (pc : ThreadPc) : Process :=
  { s.goto t pc with token := none }

/-- What a step does. -/
def effect (s : Process) : Event → Process
  | .attach t => s.goto t (.attaching .python)
  | .acquire t stage => { s.goto t (.attached stage) with token := some t }
  | .detach t => s.release t .away
  | .poll n => s.goto (.worker n) .away
  | .dispatch _ r => { s with unanswered := r :: s.unanswered }
  | .spawnBlocking _ m => s.goto (.blocking m) .away
  | .park t => s.goto t .parked
  | .retire t => s.goto t .ended
  | .answer r => { s with unanswered := s.unanswered.filter (· ≠ r) }
  | .loopEnds l => s.release (.loop l) .ended
  | .shutdown t => { s.goto t (.attached (.shutdown false)) with inside := t :: s.inside }
  | .dropLast t => { s.goto t (.attached (.shutdown true)) with dropped := true }
  | .takeReceiver t dropping =>
    if s.receiver then
      if t.mayBlock then { s.release t (.drainWait true dropping) with receiver := false }
      -- `block_on` panics
      else { s.goto t (.attached (.stop [] dropping)) with receiver := false }
    else s.goto t (.attached (.stop (List.range s.loops) dropping))
  | .conversionPanics t => { s.goto t (.attached (.stop [] false)) with receiver := false }
  | .waited t _ dropping => s.goto t (.attaching (.stop (List.range s.loops) dropping))
  | .graceExpires t dropping => s.goto t (.attaching (.cancel dropping))
  | .cancelInFlight t dropping => s.release t (.drainWait false dropping)
  | .stopLoop t l loops dropping =>
    if s.handles l then
      { s.release t (.joins t l loops dropping) with
        handles := Function.update s.handles l false
        told := l :: s.told }
    else s.goto t (.attached (.stop loops dropping))
  | .stopRefused t l loops dropping =>
    { s.release t (.joins t l loops dropping) with handles := Function.update s.handles l false }
  | .joined t _ loops dropping => s.goto t (.attaching (.stop loops dropping))
  | .returns t => { s.goto t (.attached .python) with inside := s.inside.filter (· ≠ t) }
  | .dropRuntime t =>
    -- the wait of the drop panics on a worker
    { s.goto t (if t.mayBlock then .tearingDown else .attached .python) with shuttingDown := true }
  | .runtimeDropped t => s.goto t (.attached .python)

/-- All runs of a process. -/
def system : Transition.System Process Event where
  init s := s = start s.loops s.workers s.pool
  enabled := enabled
  effect := effect

/-- `t` cannot go on before `u` does. The drain waits for everything that carries a request. -/
def Awaits (s : Process) (t u : Thread) : Prop :=
  match s.pc t with
  | .drainWait .. => u.own = true ∧ s.pc u ≠ .ended
  | .joinWait l .. => u = .loop l
  | .tearingDown => s.runtimeHas u = true ∧ s.pc u ≠ .ended
  | _ => False

/-- No thread waits for itself, or keeps the token from a thread that it waits for. -/
def DeadlockFree (s : Process) : Prop :=
  ∀ t u, s.Awaits t u → t ≠ u ∧
    ¬ (s.token = some t ∧ ∃ stage, s.pc u = .attaching stage)

/-- No worker is in a poll, no closure is running, and no worker has to attach to drop what it
owns. -/
def quiet (s : Process) : Bool :=
  (∀ n < s.workers, (s.pc (.worker n)).idle = true) ∧
    (∀ m < s.pool, (s.pc (.blocking m)).idle = true) ∧ s.unanswered = []

/-- The discipline: the server is shut down and dropped by a thread that is not its own, and
the runtime is dropped when it is quiet. -/
def dropsQuietly (s : Process) : Event → Bool
  | .shutdown t | .dropLast t => t.own = false
  | .dropRuntime _ => s.quiet
  | _ => true

/-- The invariant of disciplined runs. -/
structure Orderly (s : Process) : Prop where
  plain : ∀ t, t.own = true → (s.pc t).plain = true
  token : ∀ t, s.token = some t → (s.pc t).holds = true
  tearing : ∀ t, s.pc t = .tearingDown → s.shuttingDown = true
  unanswered : s.shuttingDown = true → s.unanswered = []
  idle : s.shuttingDown = true → ∀ t, s.runtimeHas t = true → (s.pc t).idle = true

variable {s s' : Process} {t : Thread} {pc : ThreadPc}

/-- A runtime thread that is not idle shows that the runtime is not being dropped. -/
theorem Orderly.starts (h : Orderly s) (hruntime : s.runtimeHas t = true)
    (hbusy : (s.pc t).idle = false) : s.shuttingDown = false := by
  by_contra hshutting
  have hidle := h.idle (by simpa using hshutting) t hruntime
  simp [hbusy] at hidle

/-- One thread goes on, and the token perhaps with it. -/
theorem Orderly.move (h : Orderly s) (hpc : s'.pc = Function.update s.pc t pc)
    (hruntime : s'.runtimeHas = s.runtimeHas) (hunanswered : s'.unanswered = s.unanswered)
    (hshutting : s'.shuttingDown = s.shuttingDown)
    (hidle : (s.pc t).idle = true → s.shuttingDown = true → s.runtimeHas t = true →
      pc.idle = true)
    (hplain : t.own = true → pc.plain = true)
    (htoken : ∀ u, s'.token = some u → (u = t ∧ pc.holds = true) ∨ (u ≠ t ∧ s.token = some u))
    (htearing : pc = .tearingDown → s.shuttingDown = true) : Orderly s' where
  plain u hu := by
    by_cases ht : u = t
    · subst ht
      rw [hpc, Function.update_self]
      exact hplain hu
    · rw [hpc, Function.update_of_ne ht]
      exact h.plain u hu
  token u hu := by
    rcases htoken u hu with ⟨rfl, hholds⟩ | ⟨ht, hu⟩
    · rw [hpc, Function.update_self]
      exact hholds
    · rw [hpc, Function.update_of_ne ht]
      exact h.token u hu
  tearing u hu := by
    rw [hshutting]
    by_cases ht : u = t
    · subst ht
      rw [hpc, Function.update_self] at hu
      exact htearing hu
    · rw [hpc, Function.update_of_ne ht] at hu
      exact h.tearing u hu
  unanswered hs := hunanswered.trans (h.unanswered (hshutting ▸ hs))
  idle hs u hu := by
    rw [hshutting] at hs
    rw [hruntime] at hu
    by_cases ht : u = t
    · subst ht
      rw [hpc, Function.update_self]
      exact hidle (h.idle hs u hu) hs hu
    · rw [hpc, Function.update_of_ne ht]
      exact h.idle hs u hu

/-- A busy thread goes on and leaves the token where it is. -/
theorem Orderly.goto (h : Orderly s) (hpc : s'.pc = Function.update s.pc t pc)
    (hruntime : s'.runtimeHas = s.runtimeHas) (hunanswered : s'.unanswered = s.unanswered)
    (hshutting : s'.shuttingDown = s.shuttingDown) (htoken : s'.token = s.token)
    (hbusy : (s.pc t).idle = false)
    (hplain : t.own = true → (s.pc t).plain = true → pc.plain = true)
    (hholds : (s.pc t).holds = true → pc.holds = true) (htearing : pc ≠ .tearingDown) :
    Orderly s' := by
  refine h.move hpc hruntime hunanswered hshutting (fun hidle => ?_)
    (fun hown => hplain hown (h.plain t hown)) (fun u hu => ?_) fun heq => absurd heq htearing
  · simp [hbusy] at hidle
  · by_cases ht : u = t
    · subst ht
      exact Or.inl ⟨rfl, hholds (h.token u (htoken ▸ hu))⟩
    · exact Or.inr ⟨ht, htoken ▸ hu⟩

/-- A busy thread gives the token back. -/
theorem Orderly.release (h : Orderly s) (hpc : s'.pc = Function.update s.pc t pc)
    (hruntime : s'.runtimeHas = s.runtimeHas) (hunanswered : s'.unanswered = s.unanswered)
    (hshutting : s'.shuttingDown = s.shuttingDown) (htoken : s'.token = none)
    (hbusy : (s.pc t).idle = false)
    (hplain : t.own = true → (s.pc t).plain = true → pc.plain = true)
    (htearing : pc ≠ .tearingDown) : Orderly s' := by
  refine h.move hpc hruntime hunanswered hshutting (fun hidle => ?_)
    (fun hown => hplain hown (h.plain t hown)) (fun u hu => ?_) fun heq => absurd heq htearing
  · simp [hbusy] at hidle
  · simp [htoken] at hu

/-- A thread of a quiet runtime is idle. -/
theorem quiet_idle (hquiet : s.quiet = true) {t : Thread} (ht : s.runtimeHas t = true) :
    (s.pc t).idle = true := by
  simp only [quiet, decide_eq_true_eq] at hquiet
  cases t with
  | worker n => exact hquiet.1 n (by simpa [runtimeHas] using ht)
  | blocking m => exact hquiet.2.1 m (by simpa [runtimeHas] using ht)
  | python | loop => simp [runtimeHas] at ht

/-- The runtime is dropped while it is quiet. -/
theorem Orderly.dropRuntime (h : Orderly s) (hpc : s.pc t = .attached (.stop [] true))
    (hquiet : s.quiet = true) : Orderly (s.effect (.dropRuntime t)) := by
  have hown : t.own = false := by
    by_contra hown
    have hplain := h.plain t (by simpa using hown)
    simp [hpc, ThreadPc.plain] at hplain
  have hblocks : t.mayBlock = true := by
    cases t with
    | python n => rfl
    | loop | worker | blocking => cases hown
  have hcases (u : Thread) : (u = t ∧ (s.effect (.dropRuntime t)).pc u = .tearingDown) ∨
      (u ≠ t ∧ (s.effect (.dropRuntime t)).pc u = s.pc u) := by
    by_cases hu : u = t
    · exact Or.inl ⟨hu, by simp [effect, Process.goto, hu, hblocks]⟩
    · exact Or.inr ⟨hu, by simp [effect, Process.goto, hu]⟩
  refine ⟨fun u hu => ?_, fun u hu => ?_, fun _ _ => rfl, fun _ => ?_, fun _ u hu => ?_⟩
  · rcases hcases u with ⟨rfl, -⟩ | ⟨-, hsame⟩
    · simp [hown] at hu
    · rw [hsame]
      exact h.plain u hu
  · rcases hcases u with ⟨-, htearing⟩ | ⟨-, hsame⟩
    · rw [htearing]
      rfl
    · rw [hsame]
      exact h.token u hu
  · simp only [quiet, decide_eq_true_eq] at hquiet
    exact hquiet.2.2
  · rcases hcases u with ⟨rfl, -⟩ | ⟨-, hsame⟩
    · have hidle := quiet_idle hquiet hu
      simp [hpc, ThreadPc.idle] at hidle
    · rw [hsame]
      exact quiet_idle hquiet hu

/-- Joining a loop thread is not tearing the runtime down. -/
theorem joins_ne_tearingDown {l : ℕ} {loops : List ℕ} {dropping : Bool} :
    ThreadPc.joins t l loops dropping ≠ .tearingDown := by
  unfold ThreadPc.joins
  split <;> nofun

/-- **One step.** -/
theorem Orderly.effect (h : Orderly s) {e : Event} (hallowed : dropsQuietly s e = true)
    (henabled : s.enabled e = true) : Orderly (s.effect e) := by
  cases e with
  | attach t =>
    have hpc : s.pc t = .away := by simpa [enabled] using henabled
    exact h.goto rfl rfl rfl rfl rfl (by rw [hpc]; rfl) (fun _ _ => rfl)
      (by rw [hpc]; nofun) nofun
  | acquire t stage =>
    simp only [enabled, decide_eq_true_eq] at henabled
    refine h.move rfl rfl rfl rfl (fun hidle => ?_) (fun hown => ?_) (fun u hu => ?_) nofun
    · simp [henabled.1, ThreadPc.idle] at hidle
    · have hplain := h.plain t hown
      rw [henabled.1] at hplain
      cases stage <;> simp_all [ThreadPc.plain]
    · exact Or.inl ⟨(Option.some.inj hu).symm, rfl⟩
  | detach t =>
    have hpc : s.pc t = .attached .python := by simpa [enabled] using henabled
    exact h.release rfl rfl rfl rfl rfl (by rw [hpc]; rfl) (fun _ _ => rfl) nofun
  | poll n =>
    simp only [enabled, decide_eq_true_eq] at henabled
    obtain ⟨hbound, hpc, hstarts⟩ := henabled
    refine h.move rfl rfl rfl rfl (fun _ hshutting _ => ?_) (fun _ => rfl) (fun u hu => ?_) nofun
    · rcases hstarts with hnot | hne
      · simp [hshutting] at hnot
      · exact absurd (h.unanswered hshutting) hne
    · refine Or.inr ⟨fun heq => ?_, hu⟩
      have hholds := h.token u hu
      simp [heq, hpc, ThreadPc.holds] at hholds
  | dispatch n r =>
    simp only [enabled, decide_eq_true_eq] at henabled
    have hnot := h.starts (t := .worker n) (by simpa [runtimeHas] using henabled.1)
      (by rw [henabled.2]; rfl)
    exact ⟨h.plain, h.token, h.tearing, fun hs => by simp [Process.effect, hnot] at hs, h.idle⟩
  | spawnBlocking n m =>
    simp only [enabled, decide_eq_true_eq] at henabled
    obtain ⟨-, -, hpc, hnot⟩ := henabled
    refine h.move rfl rfl rfl rfl (fun _ hshutting _ => ?_) (fun _ => rfl) (fun u hu => ?_) nofun
    · simp [hnot] at hshutting
    · refine Or.inr ⟨fun heq => ?_, hu⟩
      have hholds := h.token u hu
      simp [heq, hpc, ThreadPc.holds] at hholds
  | park t =>
    simp only [enabled, decide_eq_true_eq] at henabled
    exact h.goto rfl rfl rfl rfl rfl (by rw [henabled.2]; rfl) (fun _ _ => rfl)
      (by rw [henabled.2]; nofun) nofun
  | retire t =>
    simp only [enabled, decide_eq_true_eq] at henabled
    refine h.move rfl rfl rfl rfl (fun _ _ _ => rfl) (fun _ => rfl) (fun u hu => ?_) nofun
    refine Or.inr ⟨fun heq => ?_, hu⟩
    have hholds := h.token u hu
    simp [heq, henabled.2.1, ThreadPc.holds] at hholds
  | answer r =>
    exact ⟨h.plain, h.token, h.tearing, fun hs => by simp [Process.effect, h.unanswered hs], h.idle⟩
  | loopEnds l =>
    simp only [enabled, decide_eq_true_eq] at henabled
    exact h.release rfl rfl rfl rfl rfl (by rw [henabled.1]; rfl) (fun _ _ => rfl) nofun
  | shutdown t | dropLast t =>
    simp only [enabled, decide_eq_true_eq] at henabled
    have hown : t.own = false := by simpa [dropsQuietly] using hallowed
    exact h.goto rfl rfl rfl rfl rfl (by rw [henabled.1]; rfl) (by simp [hown]) (fun _ => rfl) nofun
  | takeReceiver t dropping =>
    have hpc : s.pc t = .attached (.shutdown dropping) := by simpa [enabled] using henabled
    simp only [Process.effect]
    split
    · split
      · exact h.release rfl rfl rfl rfl rfl (by rw [hpc]; rfl) (by rw [hpc]; nofun) nofun
      · exact h.goto rfl rfl rfl rfl rfl (by rw [hpc]; rfl) (by rw [hpc]; nofun) (fun _ => rfl)
          nofun
    · exact h.goto rfl rfl rfl rfl rfl (by rw [hpc]; rfl) (by rw [hpc]; nofun) (fun _ => rfl) nofun
  | conversionPanics t =>
    simp only [enabled, decide_eq_true_eq] at henabled
    exact h.goto rfl rfl rfl rfl rfl (by rw [henabled.1]; rfl) (by rw [henabled.1]; nofun)
      (fun _ => rfl) nofun
  | waited t grace dropping =>
    have hpc : s.pc t = .drainWait grace dropping := by simpa [enabled] using henabled
    exact h.goto rfl rfl rfl rfl rfl (by rw [hpc]; rfl) (by rw [hpc]; nofun)
      (by rw [hpc]; nofun) nofun
  | graceExpires t dropping =>
    have hpc : s.pc t = .drainWait true dropping := by simpa [enabled] using henabled
    exact h.goto rfl rfl rfl rfl rfl (by rw [hpc]; rfl) (by rw [hpc]; nofun)
      (by rw [hpc]; nofun) nofun
  | cancelInFlight t dropping =>
    have hpc : s.pc t = .attached (.cancel dropping) := by simpa [enabled] using henabled
    exact h.release rfl rfl rfl rfl rfl (by rw [hpc]; rfl) (by rw [hpc]; nofun) nofun
  | stopLoop t l loops dropping =>
    have hpc : s.pc t = .attached (.stop (l :: loops) dropping) := by simpa [enabled] using henabled
    simp only [Process.effect]
    split
    · exact h.release rfl rfl rfl rfl rfl (by rw [hpc]; rfl) (by rw [hpc]; nofun)
        joins_ne_tearingDown
    · exact h.goto rfl rfl rfl rfl rfl (by rw [hpc]; rfl) (by rw [hpc]; nofun) (fun _ => rfl) nofun
  | stopRefused t l loops dropping =>
    simp only [enabled, decide_eq_true_eq] at henabled
    exact h.release rfl rfl rfl rfl rfl (by rw [henabled.1]; rfl) (by rw [henabled.1]; nofun)
      joins_ne_tearingDown
  | joined t l loops dropping =>
    simp only [enabled, decide_eq_true_eq] at henabled
    exact h.goto rfl rfl rfl rfl rfl (by rw [henabled.1]; rfl) (by rw [henabled.1]; nofun)
      (by rw [henabled.1]; nofun) nofun
  | returns t =>
    have hpc : s.pc t = .attached (.stop [] false) := by simpa [enabled] using henabled
    exact h.goto rfl rfl rfl rfl rfl (by rw [hpc]; rfl) (fun _ _ => rfl) (fun _ => rfl) nofun
  | dropRuntime t => exact h.dropRuntime (by simpa [enabled] using henabled) hallowed
  | runtimeDropped t =>
    simp only [enabled, decide_eq_true_eq] at henabled
    exact h.goto rfl rfl rfl rfl rfl (by rw [henabled.1]; rfl) (fun _ _ => rfl) (fun _ => rfl) nofun

/-- A server that has just been started is orderly. -/
theorem orderly_start (loops workers pool : ℕ) : Orderly (start loops workers pool) where
  plain t _ := by cases t <;> rfl
  token _ := nofun
  tearing t := by cases t <;> nofun
  unanswered := nofun
  idle := nofun

/-- **No deadlock** along every run in which the server is dropped by a foreign thread after
its own threads have come to rest. -/
theorem deadlockFree_of_dropsQuietly {s : Process}
    (hreach : system.ReachesUnder (fun s e => dropsQuietly s e = true) s) : DeadlockFree s := by
  have horderly : Orderly s := by
    refine hreach.invariant (fun s hs => ?_) fun _ _ h hallowed henabled =>
      h.effect hallowed henabled
    rw [hs]
    exact orderly_start _ _ _
  intro t u hawaits
  have hforeign (hplain : (s.pc t).plain = false) : t.own = false := by
    by_contra hown
    simp [horderly.plain t (by simpa using hown)] at hplain
  have hdetached (hholds : (s.pc t).holds = false) : s.token ≠ some t := fun htoken => by
    simp [horderly.token t htoken] at hholds
  unfold Awaits at hawaits
  cases hpc : s.pc t with
  | drainWait grace dropping =>
    simp only [hpc] at hawaits
    exact ⟨fun heq => by simp [← heq, hforeign (by rw [hpc]; rfl)] at hawaits,
      fun hdead => hdetached (by rw [hpc]; rfl) hdead.1⟩
  | joinWait l loops dropping =>
    simp only [hpc] at hawaits
    have hown := hforeign (by rw [hpc]; rfl)
    exact ⟨fun heq => by simp [heq, hawaits, Thread.own] at hown,
      fun hdead => hdetached (by rw [hpc]; rfl) hdead.1⟩
  | tearingDown =>
    simp only [hpc] at hawaits
    have hidle := horderly.idle (horderly.tearing t hpc) u hawaits.1
    refine ⟨fun heq => ?_, fun hdead => ?_⟩
    · simp [← heq, hpc, ThreadPc.idle] at hidle
    · obtain ⟨stage, hstage⟩ := hdead.2
      simp [hstage, ThreadPc.idle] at hidle
  | parked | away | attaching | attached | ended => simp [hpc] at hawaits

/-- The main thread drops an idle server. -/
def dropRun : List Event :=
  [.attach (.python 0), .acquire (.python 0) .python, .dropLast (.python 0),
    .takeReceiver (.python 0) true, .graceExpires (.python 0) true,
    .acquire (.python 0) (.cancel true), .cancelInFlight (.python 0) true,
    .waited (.python 0) false true, .acquire (.python 0) (.stop [0] true),
    .stopLoop (.python 0) 0 [] true, .attach (.loop 0), .acquire (.loop 0) .python, .loopEnds 0,
    .joined (.python 0) 0 [] true, .acquire (.python 0) (.stop [] true), .dropRuntime (.python 0)]

/-- The one who drops the runtime waits for a worker that needs no token. -/
theorem deadlockFree_dropRun :
    ∃ s : Process, s.pc (.python 0) = .tearingDown ∧ s.token = some (.python 0) ∧
      s.Awaits (.python 0) (.worker 0) ∧ ¬ ∃ stage, s.pc (.worker 0) = .attaching stage := by
  have hexec : ((system.restrict dropsQuietly).exec (start 1 1 1) dropRun).map (fun s =>
      decide (s.pc (.python 0) = .tearingDown ∧ s.token = some (.python 0) ∧
        s.runtimeHas (.worker 0) = true ∧ s.pc (.worker 0) ≠ .ended)) = some true := by decide
  obtain ⟨s, hs, hend⟩ := system.exists_reachesUnder_of_exec (s := start 1 1 1) rfl hexec
  obtain ⟨htearing, htoken, hhas, halive⟩ := of_decide_eq_true hend
  have hawaits : s.Awaits (.python 0) (.worker 0) := by
    simp only [Awaits, htearing]
    exact ⟨hhas, halive⟩
  have hfree := deadlockFree_of_dropsQuietly hs _ _ hawaits
  exact ⟨s, htearing, htoken, hawaits, fun hneeds => hfree.2 ⟨htoken, hneeds⟩⟩

/-- A sync handler sleeps without the token while the main thread drops the server. -/
def sleepingRun : List Event :=
  [.poll 0, .spawnBlocking 0 0, .attach (.blocking 0), .acquire (.blocking 0) .python,
    .detach (.blocking 0)] ++ dropRun ++ [.attach (.blocking 0)]

/-- The drop of the runtime keeps the token from a sync handler that it waits for. -/
theorem drop_keeps_token_from_closure :
    ∃ s : Process, system.Reaches s ∧ ¬ DeadlockFree s ∧ s.pc (.python 0) = .tearingDown ∧
      s.token = some (.python 0) ∧ s.pc (.blocking 0) = .attaching .python := by
  have hexec : ((system.restrict fun _ _ => true).exec (start 1 1 1) sleepingRun).map (fun s =>
      decide (s.pc (.python 0) = .tearingDown ∧ s.token = some (.python 0) ∧
        s.runtimeHas (.blocking 0) = true ∧ s.pc (.blocking 0) = .attaching .python)) =
      some true := by decide
  obtain ⟨s, hs, hend⟩ := system.exists_reaches_of_exec (s := start 1 1 1) rfl hexec
  obtain ⟨htearing, htoken, hhas, hneeds⟩ := of_decide_eq_true hend
  refine ⟨s, hs, fun hfree => ?_, htearing, htoken, hneeds⟩
  have hawaits : s.Awaits (.python 0) (.blocking 0) := by
    simp only [Awaits, htearing]
    exact ⟨hhas, by simp [hneeds]⟩
  exact (hfree _ _ hawaits).2 ⟨htoken, _, hneeds⟩

/-- Why the discipline keeps the server's own threads out: each of them that gets as far as a wait
for the drain or in the drop of the runtime waits for itself there, among others. -/
theorem not_deadlockFree_of_own {s : Process} {t : Thread} (hown : t.own = true)
    (hwaits : (∃ grace dropping, s.pc t = .drainWait grace dropping) ∨
      (s.runtimeHas t = true ∧ s.pc t = .tearingDown)) : ¬ DeadlockFree s := by
  refine fun hfree => (hfree t t ?_).1 rfl
  rcases hwaits with ⟨grace, dropping, hpc⟩ | ⟨hhas, hpc⟩
  · simp only [Awaits, hpc]
    exact ⟨hown, by simp⟩
  · simp only [Awaits, hpc]
    exact ⟨hhas, by simp⟩

end Process

end Rayo
