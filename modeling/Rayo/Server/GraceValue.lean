import Mathlib.Algebra.Order.Ring.Rat
import Mathlib.Tactic.NormNum
import Rayo.Server.Shutdown

/-!
# The grace value of a shutdown

Calls of `shutdown_impl` that come one after the other, each with its own grace value. The
receiver of the drain is taken before the value becomes a `Duration`, and the conversion
panics on values that a `Duration` cannot hold.
-/

namespace Rayo.GraceValue

/-- An `f64` by its number. -/
inductive F64
  | nan
  | infinite (negative : Bool)
  | finite (x : ℚ)
  deriving DecidableEq

/-- `f64::max`, which gives the other operand when one is NaN. -/
def F64.max : F64 → F64 → F64
  | .nan, y => y
  | x, .nan => x
  | .infinite true, y => y
  | x, .infinite true => x
  | .infinite false, _ => .infinite false
  | _, .infinite false => .infinite false
  | .finite x, .finite y => .finite (if x < y then y else x)

/-- `Duration::from_secs_f64`, or `none` for its panic. A `Duration` has 64 bits of seconds. -/
def fromSecsF64 : F64 → Option ℚ
  | .finite x => if 0 ≤ x ∧ x < 2 ^ 64 then some x else none
  | _ => none

/-- `DEFAULT_SHUTDOWN_GRACE_SECONDS`. -/
def defaultShutdownGraceSeconds : F64 := .finite 30

/-- `CANCELLED_DRAIN_SECONDS`. -/
def cancelledDrainSeconds : F64 := .finite 5

/-- What a call does, in order. -/
inductive Action
  /-- `shutdown_sender` sends. -/
  | signal
  | takeReceiver
  /-- A wait for the drain, with its limit and whether the drain came in time. -/
  | await (limit : ℚ) (drained : Bool)
  | cancelInFlight
  | warn
  /-- `event_loops.stop`. -/
  | stop
  deriving DecidableEq

/-- What successive calls share. -/
structure Host where
  /-- The receiver is in `serve_finished`. -/
  serveFinished : Bool
  loops : List LoopThread
  /-- History: what has been done. -/
  log : List Action
  deriving DecidableEq

/-- A call of `shutdown`, `wait` (without a value) or `drop` (with the value zero), and whether
the drain comes during its two waits. -/
structure Call where
  graceSeconds : Option F64
  drainedNaturally : Bool
  drainedAfterCancel : Bool

/-- How a call ends. -/
inductive Outcome
  | returned
  | panicked
  deriving DecidableEq

namespace Host

/-- `start_server`. -/
def start (loopThreads : ℕ) : Host := ⟨true, List.replicate loopThreads .running, []⟩

/-- One more action. -/
def act (host : Host) (action : Action) : Host := { host with log := host.log ++ [action] }

/-- `EventLoopPool::stop`, which returns when every loop has ended. -/
def stop (host : Host) : Host :=
  { host.act .stop with loops := host.loops.map fun _ => .ended }

/-- Every event loop has ended. -/
def AllStopped (host : Host) : Prop := ∀ thread ∈ host.loops, thread = .ended

end Host

/-- `natural_grace`. -/
def naturalGrace (graceSeconds : Option F64) : Option ℚ :=
  fromSecsF64 ((graceSeconds.getD defaultShutdownGraceSeconds).max (.finite 0))

/-- `Server::shutdown_impl`. -/
def shutdownImpl (call : Call) (host : Host) : Outcome × Host :=
  let host := host.act .signal
  if host.serveFinished then
    let host := { host.act .takeReceiver with serveFinished := false }
    match naturalGrace call.graceSeconds with
    | none => (.panicked, host)
    | some naturalGrace =>
      let host := host.act (.await naturalGrace call.drainedNaturally)
      if call.drainedNaturally then (.returned, host.stop)
      else
        let host := host.act .cancelInFlight
        match fromSecsF64 cancelledDrainSeconds with
        | none => (.panicked, host)
        | some window =>
          let host := host.act (.await window call.drainedAfterCancel)
          let host := if call.drainedAfterCancel then host else host.act .warn
          (.returned, host.stop)
  else (.returned, host.stop)

/-- The host after some calls. -/
def afterCalls (host : Host) (calls : List Call) : Host :=
  calls.foldl (fun host call => (shutdownImpl call host).2) host

/-- Either the drain has come within a grace period, or that has expired, the tasks in flight
have been cancelled and a second wait is over. -/
def Drained (log : List Action) : Prop :=
  ∃ limit, [.await limit true].Sublist log ∨
    ∃ window drained, [.await limit false, .cancelInFlight, .await window drained].Sublist log

/-- The loops are only stopped after a drain. -/
def StopsDrained (log : List Action) : Prop :=
  ∀ before later, log = before ++ .stop :: later → Drained before

/-- The call has completed with all loops stopped, or it has failed and left the receiver. -/
def Completed (result : Outcome × Host) : Prop :=
  (result.1 = .returned ∧ result.2.AllStopped) ∨
    (result.1 = .panicked ∧ result.2.serveFinished = true)

/-- No call leaves the shutdown half-done. -/
def NeverHalfDone (host : Host) (calls : List Call) : Prop :=
  (∀ before call later, calls = before ++ call :: later →
    Completed (shutdownImpl call (afterCalls host before))) ∧
  StopsDrained (afterCalls host calls).log

/-- The value is neither positive infinity nor too large for a `Duration`. -/
def Convertible (graceSeconds : Option F64) : Prop :=
  graceSeconds ≠ some (.infinite false) ∧ ∀ x, graceSeconds = some (.finite x) → x < 2 ^ 64

/-- `max(0.0)` takes care of all values but the large ones. -/
theorem naturalGrace_isSome (graceSeconds : Option F64) :
    (naturalGrace graceSeconds).isSome = true ↔ Convertible graceSeconds := by
  match graceSeconds with
  | none => exact iff_of_true (by decide) ⟨nofun, nofun⟩
  | some .nan => exact iff_of_true (by decide) ⟨nofun, nofun⟩
  | some (.infinite true) => exact iff_of_true (by decide) ⟨nofun, nofun⟩
  | some (.infinite false) => exact iff_of_false (by decide) fun h => h.1 rfl
  | some (.finite x) =>
    have hmax : (F64.finite x).max (.finite 0) = .finite (if x < 0 then 0 else x) := rfl
    have hconvertible : Convertible (some (.finite x)) ↔ x < 2 ^ 64 := by
      simp [Convertible]
    rw [hconvertible, naturalGrace, Option.getD_some, hmax, fromSecsF64]
    by_cases hx : x < 0
    · rw [if_pos hx]
      exact iff_of_true (by decide +kernel) (lt_trans hx (by norm_num))
    · have hpos : 0 ≤ x := not_lt.mp hx
      rw [if_neg hx]
      by_cases hlarge : x < 2 ^ 64
      · exact iff_of_true (by simp [hpos, hlarge]) hlarge
      · exact iff_of_false (by simp [hlarge]) hlarge

variable {host : Host} {call : Call}

/-- A server that is stopped has all its loops ended. -/
theorem Host.allStopped_stop (host : Host) : host.stop.AllStopped := by
  intro thread hthread
  obtain ⟨_, _, rfl⟩ := List.mem_map.mp hthread
  rfl

/-- A call that finds no receiver stops the loops at once. -/
theorem shutdownImpl_taken (h : host.serveFinished = false) :
    shutdownImpl call host = (.returned, (host.act .signal).stop) := by
  unfold shutdownImpl
  simp [Host.act, h]

/-- The first call panics with a value that is not converted, and the receiver is gone. -/
theorem shutdownImpl_panics (h : host.serveFinished = true)
    (hgrace : ¬ Convertible call.graceSeconds) :
    (shutdownImpl call host).1 = .panicked ∧
      (shutdownImpl call host).2.serveFinished = false := by
  have hnone : naturalGrace call.graceSeconds = none := by
    rw [← naturalGrace_isSome] at hgrace
    simpa using hgrace
  unfold shutdownImpl
  simp [Host.act, h, hnone]

/-- With any other value it waits and stops the loops after that. -/
theorem shutdownImpl_converts (h : host.serveFinished = true)
    (hgrace : Convertible call.graceSeconds) :
    ∃ actions, Drained actions ∧ Action.stop ∉ actions ∧
      shutdownImpl call host = (.returned,
        { serveFinished := false
          loops := host.loops.map fun _ => .ended
          log := host.log ++ actions ++ [.stop] }) := by
  obtain ⟨limit, hlimit⟩ := Option.isSome_iff_exists.mp ((naturalGrace_isSome _).mpr hgrace)
  have hwindow : fromSecsF64 cancelledDrainSeconds = some 5 := by decide +kernel
  unfold shutdownImpl
  cases hnatural : call.drainedNaturally with
  | true =>
    refine ⟨[.signal, .takeReceiver, .await limit true], ⟨limit, .inl ?_⟩, by simp, ?_⟩
    · simp
    · simp [Host.act, Host.stop, h, hlimit]
  | false =>
    cases hafter : call.drainedAfterCancel with
    | true =>
      refine ⟨[.signal, .takeReceiver, .await limit false, .cancelInFlight, .await 5 true],
        ⟨limit, .inr ⟨5, true, ?_⟩⟩, by simp, ?_⟩
      · simp
      · simp [Host.act, Host.stop, h, hlimit, hwindow]
    | false =>
      refine ⟨[.signal, .takeReceiver, .await limit false, .cancelInFlight, .await 5 false, .warn],
        ⟨limit, .inr ⟨5, false, ?_⟩⟩, by simp, ?_⟩
      · simp
      · simp [Host.act, Host.stop, h, hlimit, hwindow]

/-- The drain is over, and no receiver is left. -/
structure DrainOver (host : Host) : Prop where
  taken : host.serveFinished = false
  drained : Drained host.log
  stopsDrained : StopsDrained host.log

/-- A drain stays over. -/
theorem Drained.mono {log log' : List Action} (h : Drained log) (hlog : log.Sublist log') :
    Drained log' := by
  obtain ⟨limit, hnatural | ⟨window, drained, hcancelled⟩⟩ := h
  · exact ⟨limit, .inl (hnatural.trans hlog)⟩
  · exact ⟨limit, .inr ⟨window, drained, hcancelled.trans hlog⟩⟩

/-- The loops are only stopped after a drain if each stop comes after one. -/
theorem stopsDrained_concat {log : List Action} {action : Action} :
    StopsDrained (log ++ [action]) ↔ StopsDrained log ∧ (action = .stop → Drained log) := by
  constructor
  · intro h
    refine ⟨fun before later hsplit => ?_, ?_⟩
    · exact h before (later ++ [action]) (by simp [hsplit])
    · rintro rfl
      exact h log [] rfl
  · rintro ⟨hlog, haction⟩ before later hsplit
    rcases List.eq_nil_or_concat later with rfl | ⟨rest, last, rfl⟩
    · obtain ⟨rfl, hlast⟩ := List.append_inj' hsplit rfl
      exact haction (List.cons.inj hlast).1
    · rw [List.concat_eq_append, ← List.cons_append, ← List.append_assoc] at hsplit
      exact hlog before rest (List.append_inj' hsplit rfl).1

/-- Other actions do not matter. -/
theorem StopsDrained.append {log actions : List Action} (h : StopsDrained log)
    (hactions : Action.stop ∉ actions) : StopsDrained (log ++ actions) := by
  induction actions generalizing log with
  | nil => simpa using h
  | cons action rest ih =>
    rw [List.mem_cons, not_or] at hactions
    have hone : StopsDrained (log ++ [action]) :=
      stopsDrained_concat.mpr ⟨h, fun hstop => absurd hstop.symm hactions.1⟩
    have hall := ih hone hactions.2
    rwa [List.append_assoc] at hall

/-- The first call with a value that is converted. -/
theorem drainOver_first (h : host.serveFinished = true) (hlog : StopsDrained host.log)
    (hgrace : Convertible call.graceSeconds) :
    Completed (shutdownImpl call host) ∧ DrainOver (shutdownImpl call host).2 := by
  obtain ⟨actions, hdrained, hactions, hcall⟩ := shutdownImpl_converts h hgrace
  have hbefore : Drained (host.log ++ actions) :=
    hdrained.mono (List.sublist_append_right _ _)
  rw [hcall]
  refine ⟨.inl ⟨rfl, fun thread hthread => ?_⟩, rfl, ?_, ?_⟩
  · obtain ⟨_, _, rfl⟩ := List.mem_map.mp hthread
    rfl
  · exact hbefore.mono (List.sublist_append_left _ _)
  · exact stopsDrained_concat.mpr ⟨hlog.append hactions, fun _ => hbefore⟩

/-- A call after the drain. -/
theorem DrainOver.next (h : DrainOver host) (call : Call) :
    Completed (shutdownImpl call host) ∧ DrainOver (shutdownImpl call host).2 := by
  have hsignal : Drained (host.log ++ [.signal]) := h.drained.mono (List.sublist_append_left _ _)
  rw [shutdownImpl_taken h.taken]
  refine ⟨.inl ⟨rfl, Host.allStopped_stop _⟩, h.taken, ?_, ?_⟩
  · exact hsignal.mono (List.sublist_append_left _ _)
  · refine stopsDrained_concat.mpr ⟨?_, fun _ => hsignal⟩
    exact stopsDrained_concat.mpr ⟨h.stopsDrained, nofun⟩

/-- All calls after the drain. -/
theorem DrainOver.afterCalls (h : DrainOver host) (calls : List Call) :
    DrainOver (afterCalls host calls) := by
  induction calls generalizing host with
  | nil => exact h
  | cons call rest ih => exact ih (h.next call).2

/-- No call leaves the shutdown half-done once the drain is over. -/
theorem DrainOver.neverHalfDone (h : DrainOver host) (calls : List Call) :
    NeverHalfDone host calls :=
  ⟨fun before call _ _ => ((h.afterCalls before).next call).1, (h.afterCalls calls).stopsDrained⟩

/-- `shutdown(math.inf)` and the `drop` after it. -/
def infiniteGrace : List Call :=
  [⟨some (.infinite false), true, true⟩, ⟨some (.finite 0), true, true⟩]

end Rayo.GraceValue
