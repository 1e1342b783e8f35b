import Mathlib.Algebra.BigOperators.Ring.Finset
import Rayo.Dispatch.LoopPool
import Rayo.Dispatch.Settlement

/-!
# A pool that all server threads share

`EventLoopPool::schedule` takes no lock. While it reads one gauge after the other, other requests
are scheduled and completed on all loops, and what it has read may be out of date when it settles.
Each loop of the pool runs as it does alone, but a request is scheduled on the loop that its call
settled on, and `EventLoopPool::stop` stops the loops one after the other.
-/

namespace Rayo

/-- Where a call of `EventLoopPool::schedule` is. -/
inductive PlacePc (w n : ℕ)
  | idle
  /-- It has its value of the counter, and has read no gauge. -/
  | numbered (scanStart : BitVec w)
  /-- It has read the gauges of the offsets below `scanOffset`. -/
  | scanning (scanStart : BitVec w) (scanOffset : ℕ) (chosenIndex : Fin n) (lowestLoad : ℤ)
  /-- It goes on with `EventLoop::schedule` of this loop. -/
  | placed (index : Fin n)
  deriving DecidableEq

/-- `EventLoopPool`, and the calls on it. -/
structure SharedPool (w n : ℕ) where
  /-- `loops`. -/
  loops : Fin n → EventLoop
  /-- `scan_start_index`. -/
  scanStartIndex : BitVec w
  /-- The call of `schedule` of every request. -/
  calls : RequestId → PlacePc w n
  /-- History: how far the gauges have risen since a call took its value of the counter. -/
  arrivals : RequestId → ℕ
  /-- History: how far they have fallen. -/
  departures : RequestId → ℕ
  /-- An empty pool is refused at startup. -/
  size_pos : 0 < n
  /-- The number of loops is a `usize`. -/
  size_lt : n < 2 ^ w

/-- When a loop has been stopped and all calls on it have returned, its requests are settled. -/
theorem EventLoop.Orderly.settled {s : EventLoop} (h : s.Orderly) {c : StopId}
    (hstop : s.stops c = .returned) (hstops : ∀ c, s.stops c = .idle ∨ s.stops c = .returned)
    (hcalls : ∀ r, s.calls r = .idle ∨ s.calls r = .returned) :
    s.registry.gauge = 0 ∧ s.registry.live = [] ∧
      ∀ r, s.calls r = .returned → ∃ x, (r, x) ∈ s.registry.resolutions := by
  have hbalanced := h.sound.accounted.balanced
  refine ⟨hbalanced.gauge_eq_zero fun r hr => ?_, ?_, fun r hr => ?_⟩
  · obtain ⟨x, hx⟩ := h.channel_resolved hstop hstops hcalls ((hbalanced.mem_increments r).mp hr)
    rw [hx]
    rfl
  · refine List.eq_nil_iff_forall_not_mem.mpr fun r hr => ?_
    rcases h.late c (by rw [hstop]; rfl) r hr with hlate | ⟨x, hlate⟩ <;>
      rcases hcalls r with hr | hr <;> simp [hr] at hlate
  · obtain ⟨x, hx⟩ := h.channel_resolved hstop hstops hcalls fun habsent => by
      simp [h.sound.idle_of_absent r habsent] at hr
    exact ⟨x, (hbalanced.mem_resolutions r x).mpr hx⟩

namespace SharedPool

variable {w n : ℕ}

/-- `in_flight_count` of the loop at an index. -/
def inFlightCount (s : SharedPool w n) (index : Fin n) : ℤ := (s.loops index).registry.gauge

/-- `EventLoopPool::total_in_flight`, as the sum of the gauges at one instant. The source loads them
one after the other, so that what it returns under concurrency is approximate. -/
def totalInFlight (s : SharedPool w n) : ℤ := ∑ index, s.inFlightCount index

/-- The remainder by `loop_count`. -/
def indexOf (s : SharedPool w n) (x : BitVec w) : Fin n :=
  ⟨x.toNat % n, Nat.mod_lt _ s.size_pos⟩

/-- The loop that a scan reads at an offset. -/
def candidate (s : SharedPool w n) (scanStart : BitVec w) (scanOffset : ℕ) : Fin n :=
  s.indexOf (scanStart + BitVec.ofNat w scanOffset)

/-- The steps of the calls on a pool. -/
inductive Event (n : ℕ)
  -- `EventLoopPool::schedule`
  | fetchAdd (r : RequestId)
  | readFirst (r : RequestId)
  | readNext (r : RequestId)
  | settle (r : RequestId)
  -- a loop
  | onLoop (index : Fin n) (e : EventLoop.Event)

/-- What the pool asks of a step on one of its loops. -/
def permits (s : SharedPool w n) (index : Fin n) : EventLoop.Event → Bool
  | .count r => s.calls r = .placed index
  | .takeHandle c => ∀ earlier < index, (s.loops earlier).stops c = .returned
  | _ => true

/-- When a step can be taken. -/
def enabled (s : SharedPool w n) : Event n → Bool
  | .fetchAdd r => s.calls r = .idle
  | .readFirst r => match s.calls r with
    | .numbered _ => true
    | _ => false
  | .readNext r => match s.calls r with
    | .scanning _ scanOffset _ lowestLoad => scanOffset < n ∧ lowestLoad ≠ 0
    | _ => false
  | .settle r => match s.calls r with
    | .scanning _ scanOffset _ lowestLoad => n ≤ scanOffset ∨ lowestLoad = 0
    | _ => false
  | .onLoop index e => (s.loops index).enabled e && s.permits index e

/-- Set where a call is. -/
def setCall (s : SharedPool w n) (r : RequestId) (pc : PlacePc w n) : SharedPool w n :=
  { s with calls := Function.update s.calls r pc }

/-- What a step does. -/
def effect (s : SharedPool w n) : Event n → SharedPool w n
  | .fetchAdd r =>
    { s.setCall r (.numbered s.scanStartIndex) with
      scanStartIndex := s.scanStartIndex + 1
      arrivals := Function.update s.arrivals r 0
      departures := Function.update s.departures r 0 }
  | .readFirst r => match s.calls r with
    | .numbered scanStart =>
      s.setCall r (.scanning scanStart 1 (s.indexOf scanStart)
        (s.inFlightCount (s.indexOf scanStart)))
    | _ => s
  | .readNext r => match s.calls r with
    | .scanning scanStart scanOffset chosenIndex lowestLoad =>
      -- the sum wraps around, as in a build without overflow checks
      let candidateIndex := s.candidate scanStart scanOffset
      let candidateLoad := s.inFlightCount candidateIndex
      if candidateLoad < lowestLoad then
        s.setCall r (.scanning scanStart (scanOffset + 1) candidateIndex candidateLoad)
      else
        s.setCall r (.scanning scanStart (scanOffset + 1) chosenIndex lowestLoad)
    | _ => s
  | .settle r => match s.calls r with
    | .scanning _ _ chosenIndex _ => s.setCall r (.placed chosenIndex)
    | _ => s
  | .onLoop index e =>
    let eventLoop := (s.loops index).effect e
    let change := eventLoop.registry.gauge - s.inFlightCount index
    { s with
      loops := Function.update s.loops index eventLoop
      arrivals := fun r => s.arrivals r + change.toNat
      departures := fun r => s.departures r + (-change).toNat }

/-- A pool whose loops have just been started. -/
structure Fresh (s : SharedPool w n) : Prop where
  loops : ∀ index, s.loops index = EventLoop.start
  scanStartIndex : s.scanStartIndex = 0
  calls : ∀ r, s.calls r = .idle

/-- All runs of a pool. -/
def system (w n : ℕ) : Transition.System (SharedPool w n) (Event n) where
  init := Fresh
  enabled := enabled
  effect := effect

variable {s : SharedPool w n} {allowed : SharedPool w n → Event n → Prop}

/-- Each loop of a pool runs as it can alone. -/
theorem loop_reaches {allowed' : EventLoop → EventLoop.Event → Prop}
    (hreach : (system w n).ReachesUnder allowed s) (index : Fin n)
    (hallowed : ∀ s e, allowed s (.onLoop index e) → allowed' (s.loops index) e) :
    EventLoop.system.ReachesUnder allowed' (s.loops index) := by
  have hinit (s : SharedPool w n) (h : (system w n).init s) :
      EventLoop.system.init (s.loops index) := h.loops index
  refine hreach.project (fun s => s.loops index) hinit fun s e hallows henabled => ?_
  cases e with
  | fetchAdd r => exact .inl rfl
  | readFirst r =>
    left
    simp only [system, effect]
    split <;> rfl
  | readNext r =>
    left
    simp only [system, effect]
    split
    · split <;> rfl
    · rfl
  | settle r =>
    left
    simp only [system, effect]
    split <;> rfl
  | onLoop index' e =>
    by_cases hindex : index = index'
    · subst hindex
      simp only [system, enabled, Bool.and_eq_true] at henabled
      exact .inr ⟨e, hallowed s e hallows, henabled.1, Function.update_self ..⟩
    · exact .inl (Function.update_of_ne hindex ..)

/-- Every loop of a shared pool is sound. -/
theorem sound (hreach : (system w n).ReachesUnder allowed s) (index : Fin n) :
    (s.loops index).Sound := by
  have hloop : EventLoop.system.ReachesUnder (fun _ _ => True) (s.loops index) :=
    loop_reaches hreach index fun _ _ _ => trivial
  exact EventLoop.Sound.of_reachesUnder hloop

/-- A request is scheduled on the loop that its call settled on. -/
def Placed (s : SharedPool w n) : Prop :=
  ∀ r index, (s.loops index).calls r ≠ .idle → s.calls r = .placed index

/-- **One step** schedules a request only on the loop that its call has settled on. -/
theorem Placed.effect {e : Event n} (h : Placed s) (henabled : enabled s e = true) :
    Placed (s.effect e) := by
  have hset {r : RequestId} (pc : PlacePc w n) (hbefore : ∀ index, s.calls r ≠ .placed index) :
      Placed (s.setCall r pc) := by
    intro r' index hcall
    by_cases hr : r' = r
    · subst hr
      exact absurd (h r' index hcall) (hbefore index)
    · exact (Function.update_of_ne hr ..).trans (h r' index hcall)
  cases e with
  | fetchAdd r =>
    refine hset (r := r) _ fun index => ?_
    simp only [enabled, decide_eq_true_eq] at henabled
    simp [henabled]
  | readFirst r =>
    simp only [SharedPool.effect]
    split
    · next hcall => exact hset _ (by simp [hcall])
    · exact h
  | readNext r =>
    simp only [SharedPool.effect]
    split
    · next hcall => split <;> exact hset _ (by simp [hcall])
    · exact h
  | settle r =>
    simp only [SharedPool.effect]
    split
    · next hcall => exact hset _ (by simp [hcall])
    · exact h
  | onLoop index' e =>
    simp only [enabled, Bool.and_eq_true] at henabled
    intro r index hcall
    by_cases hindex : index = index'
    · subst hindex
      simp only [SharedPool.effect, Function.update_self] at hcall
      by_cases hcount : e = .count r
      · subst hcount
        have hcalls : s.calls r = .placed index := by simpa [permits] using henabled.2
        exact hcalls
      · exact h r index ((EventLoop.calls_idle_effect henabled.1 r hcount).not.mp hcall)
    · simp only [SharedPool.effect, Function.update_of_ne hindex] at hcall
      exact h r index hcall

/-- On every run requests are scheduled only where their calls have settled. -/
theorem placed (hreach : (system w n).ReachesUnder allowed s) : Placed s :=
  hreach.invariant
    (fun s h r index hcall => absurd (by rw [h.loops index]; rfl) hcall)
    fun _ _ h _ henabled => h.effect henabled

/-- What is known of a request on a loop is known on one loop. -/
theorem Placed.unique (h : Placed s) {r : RequestId} {index index' : Fin n}
    (hcall : (s.loops index).calls r ≠ .idle) (hcall' : (s.loops index').calls r ≠ .idle) :
    index = index' :=
  PlacePc.placed.inj ((h r index hcall).symm.trans (h r index' hcall'))

/-- The requests of a loop that have been counted in and not out. -/
def unsettled (s : SharedPool w n) (index : Fin n) : Finset RequestId :=
  (s.loops index).registry.increments.toFinset \ (s.loops index).registry.decrements.toFinset

/-- The requests in flight on all loops. -/
def inFlight (s : SharedPool w n) : Finset RequestId := Finset.univ.biUnion s.unsettled

/-- The gauge of a loop counts what is counted in and not out. -/
theorem inFlightCount_eq (hsound : ∀ index, (s.loops index).Sound) (index : Fin n) :
    s.inFlightCount index = (s.unsettled index).card := by
  have h := (hsound index).accounted.balanced
  have hsub : (s.loops index).registry.decrements.toFinset ⊆
      (s.loops index).registry.increments.toFinset := by
    intro r hr
    rw [List.mem_toFinset] at hr ⊢
    have hout := (h.mem_decrements r).mp hr
    refine (h.mem_increments r).mpr fun habsent => ?_
    simp [habsent, ChannelState.countedOut] at hout
  have hcard := Finset.card_sdiff_add_card_eq_card hsub
  rw [List.toFinset_card_of_nodup h.increments_nodup,
    List.toFinset_card_of_nodup h.decrements_nodup] at hcard
  have hgauge := h.gauge_eq
  unfold inFlightCount unsettled
  omega

/-- A request is counted in on the loop that it is placed on. -/
theorem Placed.of_mem_unsettled (h : Placed s) (hsound : ∀ index, (s.loops index).Sound)
    {r : RequestId} {index : Fin n} (hr : r ∈ s.unsettled index) : s.calls r = .placed index := by
  refine h r index fun hidle => ?_
  have hmem := (Finset.mem_sdiff.mp hr).1
  rw [List.mem_toFinset, (hsound index).accounted.balanced.mem_increments] at hmem
  exact hmem ((hsound index).absent_of_idle r hidle)

/-- **The gauges of a pool add up to the number of its requests in flight.** -/
theorem totalInFlight_eq (h : Placed s) (hsound : ∀ index, (s.loops index).Sound) :
    s.totalInFlight = s.inFlight.card := by
  have hdisjoint : Set.PairwiseDisjoint (Finset.univ : Finset (Fin n)) s.unsettled := by
    intro index _ index' _ hne
    refine Finset.disjoint_left.mpr fun r hr hr' => hne ?_
    exact PlacePc.placed.inj
      ((h.of_mem_unsettled hsound hr).symm.trans (h.of_mem_unsettled hsound hr'))
  rw [inFlight, Finset.card_biUnion hdisjoint, totalInFlight]
  rw [Nat.cast_sum]
  exact Finset.sum_congr rfl fun index _ => inFlightCount_eq hsound index

/-- The discipline on `stop`, on every loop. -/
def stopsInTurn (s : SharedPool w n) : Event n → Bool
  | .onLoop index e => EventLoop.stopsInTurn (s.loops index) e
  | _ => true

/-- Every call of `schedule` has returned, and every loop has been stopped by a call of `stop` that
has returned, as have all others. -/
structure Stopped (s : SharedPool w n) : Prop where
  calls : ∀ r, s.calls r = .idle ∨
    ∃ index, s.calls r = .placed index ∧ (s.loops index).calls r = .returned
  stopped : ∀ index, ∃ c, (s.loops index).stops c = .returned
  stops : ∀ index c, (s.loops index).stops c = .idle ∨ (s.loops index).stops c = .returned

/-- On a stopped pool no call of `schedule` is under way. -/
theorem Stopped.loop_calls (h : Stopped s) (hplaced : Placed s) (index : Fin n) (r : RequestId) :
    (s.loops index).calls r = .idle ∨ (s.loops index).calls r = .returned := by
  by_cases hidle : (s.loops index).calls r = .idle
  · exact .inl hidle
  · have hcall := hplaced r index hidle
    rcases h.calls r with hr | ⟨index', hr, hreturned⟩
    · cases hcall.symm.trans hr
    · obtain rfl := PlacePc.placed.inj (hcall.symm.trans hr)
      exact .inr hreturned

/-- **A stopped pool has settled its requests.** In every run in which the calls of `stop` come in
turn, `total_in_flight` is the number of requests in flight, a request is resolved on one loop at
most and only once, and when the pool has been stopped and all calls have returned, every request
has been resolved on the loop it was placed on, nothing is in flight and no task is live. -/
theorem stopped_pool_settles
    (hreach : (system w n).ReachesUnder (fun s e => stopsInTurn s e = true) s) :
    s.totalInFlight = s.inFlight.card ∧
      (∀ r index index' x y, (r, x) ∈ (s.loops index).registry.resolutions →
        (r, y) ∈ (s.loops index').registry.resolutions → index = index' ∧ x = y) ∧
      (Stopped s → s.totalInFlight = 0 ∧ (∀ index, (s.loops index).registry.live = []) ∧
        ∀ r index, s.calls r = .placed index →
          ∃ x, (r, x) ∈ (s.loops index).registry.resolutions) := by
  have hplaced := placed hreach
  have hsound := sound hreach
  have horderly (index : Fin n) : (s.loops index).Orderly :=
    EventLoop.Orderly.of_reachesUnder (loop_reaches hreach index fun _ _ h => h)
  refine ⟨totalInFlight_eq hplaced hsound, fun r index index' x y hx hy => ?_, fun hstopped => ?_⟩
  · have hcall {index : Fin n} {x : Resolution}
        (hx : (r, x) ∈ (s.loops index).registry.resolutions) :
        (s.loops index).calls r ≠ .idle := by
      intro hidle
      rw [(hsound index).accounted.balanced.mem_resolutions,
        (hsound index).absent_of_idle r hidle] at hx
      cases hx
    obtain rfl := hplaced.unique (hcall hx) (hcall hy)
    rw [(hsound index).accounted.balanced.mem_resolutions] at hx hy
    exact ⟨rfl, ChannelState.resolved.inj (hx.symm.trans hy)⟩
  · have hsettled (index : Fin n) := (horderly index).settled (hstopped.stopped index).choose_spec
      (hstopped.stops index) (hstopped.loop_calls hplaced index)
    refine ⟨Finset.sum_eq_zero fun index _ => (hsettled index).1, fun index => (hsettled index).2.1,
      fun r index hr => ?_⟩
    rcases hstopped.calls r with hidle | ⟨index', hr', hreturned⟩
    · cases hidle.symm.trans hr
    · obtain rfl := PlacePc.placed.inj (hr.symm.trans hr')
      exact (hsettled index).2.2 r hreturned

/-- The counter of a loop counts beyond two. -/
theorem two_lt_two_pow : 2 < 2 ^ 64 := by decide

/-- Two loops that have just been started. -/
def twoLoops : SharedPool 64 2 where
  loops _ := .start
  scanStartIndex := 0
  calls _ := .idle
  arrivals _ := 0
  departures _ := 0
  size_pos := Nat.two_pos
  size_lt := two_lt_two_pow

/-- The two loops are fresh. -/
theorem twoLoops_fresh : Fresh twoLoops := ⟨fun _ => rfl, rfl, fun _ => rfl⟩

/-- The indices of the two loops. -/
def loopZero : Fin 2 := ⟨0, Nat.two_pos⟩

/-- The index of the second loop. -/
def loopOne : Fin 2 := ⟨1, Nat.one_lt_two⟩

/-- The event is about request 0 and `stop` call 0. -/
def aboutZero (_ : SharedPool w n) : Event n → Bool
  | .fetchAdd r | .readFirst r | .readNext r | .settle r => r = 0
  | .onLoop _ e => match e with
    | .takeHandle c => c = 0
    | _ => true

/-- A run about request 0 schedules no other one. -/
theorem calls_of_aboutZero (hreach : (system w n).ReachesUnder (fun s e => aboutZero s e = true) s)
    {r : RequestId} (hr : r ≠ 0) : s.calls r = .idle := by
  refine hreach.invariant (I := fun s => s.calls r = .idle) (fun s h => h.calls r)
    fun s e h habout _ => ?_
  have hset (pc : PlacePc w n) : (s.setCall 0 pc).calls r = .idle :=
    (Function.update_of_ne hr ..).trans h
  cases e with
  | onLoop => exact h
  | fetchAdd r' =>
    obtain rfl : r' = 0 := of_decide_eq_true habout
    exact hset _
  | _ r' =>
    obtain rfl : r' = 0 := of_decide_eq_true habout
    simp only [system, effect]
    split
    · first | exact hset _ | (split <;> exact hset _)
    · exact h

/-- A request that the disposal of the first loop answers, and the `stop` of the second loop. -/
def stoppedRun : List (Event 2) :=
  [.fetchAdd 0, .readFirst 0, .settle 0] ++
    [EventLoop.Event.count 0, .insert 0, .checkClosed 0, .append 0, .takeHandle 0, .postStop 0,
      .runStop, .leaveRunForever, .close, .exit, .join 0, .drain 0 [0], .closeCoroutine 0 0 [],
      .stopWork 0 (.finish 0 .internalError) [], .stopWork 0 (.removeLive 0 .internalError) [],
      .stopWork 0 (.take 0 .internalError) [], .stopWork 0 (.decrement 0 .internalError) [],
      .stopWork 0 (.deliver 0 .internalError) [], .stopReturns 0].map (.onLoop loopZero) ++
    [EventLoop.Event.takeHandle 0, .postStop 0, .runStop, .leaveRunForever, .close, .exit, .join 0,
      .drain 0 [], .stopReturns 0].map (.onLoop loopOne)

/-- A pool that is stopped with one request has it resolved. -/
theorem stopped_pool_settles_stoppedRun : ∃ s : SharedPool 64 2, s.calls 0 = .placed loopZero ∧
    Stopped s ∧ s.totalInFlight = 0 ∧ ∃ x, (0, x) ∈ (s.loops loopZero).registry.resolutions := by
  have hexec : (((system 64 2).restrict fun s e => stopsInTurn s e && aboutZero s e).exec twoLoops
      stoppedRun).map (fun s => decide (s.calls 0 = .placed loopZero ∧
        (s.loops loopZero).calls 0 = .returned ∧ ∀ index, (s.loops index).stops 0 = .returned)) =
      some true := by decide
  obtain ⟨s, hreach, hend⟩ := Transition.System.exists_reachesUnder_of_exec twoLoops_fresh hexec
  obtain ⟨hcall, hreturned, hstops⟩ := of_decide_eq_true hend
  have hturns : (system 64 2).ReachesUnder (fun s e => stopsInTurn s e = true) s :=
    hreach.mono fun _ _ _ h _ => ((Bool.and_eq_true _ _).mp h).1
  have habout : (system 64 2).ReachesUnder (fun s e => aboutZero s e = true) s :=
    hreach.mono fun _ _ _ h _ => ((Bool.and_eq_true _ _).mp h).2
  have hstopped : Stopped s := by
    refine ⟨fun r => ?_, fun index => ⟨0, hstops index⟩, fun index c => ?_⟩
    · by_cases hr : r = 0
      · exact .inr ⟨loopZero, hr ▸ hcall, hr ▸ hreturned⟩
      · exact .inl (calls_of_aboutZero habout hr)
    · by_cases hc : c = 0
      · exact .inr (hc ▸ hstops index)
      · refine .inl ((EventLoop.Single.of_reachesUnder
          (loop_reaches habout index fun s e h => ?_)).others c hc)
        cases e <;> exact h
  obtain ⟨-, -, hsettled⟩ := stopped_pool_settles hturns
  obtain ⟨htotal, -, hresolved⟩ := hsettled hstopped
  exact ⟨s, hcall, hstopped, htotal, hresolved 0 loopZero hcall⟩

end SharedPool

end Rayo
