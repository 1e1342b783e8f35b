import Rayo.Balance
import Mathlib.Data.List.Nodup

/-!
# Placement of requests on loops

`EventLoopPool::schedule` scans the loops from a rotating offset and takes the first one
that carries the least. The offset is a `usize` of `w` bits that `fetch_add` advances, and
the scan adds to it before it takes the remainder, so both can pass the end of the range.
-/

namespace Rayo.LoopPool

/-- `EventLoop`, as far as placement reads it. The gauge counts response channels that are
alive in memory, so it stays far below the end of its own range. -/
structure EventLoop where
  /-- `in_flight`. -/
  inFlight : ℕ
  deriving DecidableEq

/-- `EventLoop::schedule`: the gauge rises before anything can fail. -/
def EventLoop.schedule (eventLoop : EventLoop) : EventLoop :=
  { eventLoop with inFlight := eventLoop.inFlight + 1 }

/-- The response channel of a request is dropped: it completed, or it could not be
scheduled. -/
def EventLoop.complete (eventLoop : EventLoop) : EventLoop :=
  { eventLoop with inFlight := eventLoop.inFlight - 1 }

/-- `EventLoopPool`, with `n` loops. The bounds on `n` are what `EventLoopPool::start`
checks and what the type of its `size` gives. -/
structure EventLoopPool (w n : ℕ) where
  /-- `loops`. -/
  loops : Vector EventLoop n
  /-- `scan_start_index`. -/
  scanStartIndex : BitVec w
  /-- An empty pool is refused at startup. -/
  size_pos : 0 < n
  /-- The number of loops is a `usize`. -/
  size_lt : n < 2 ^ w
  deriving DecidableEq

variable {w n : ℕ}

/-- `in_flight_count` of the loop at an index. -/
def EventLoopPool.inFlight (pool : EventLoopPool w n) (index : Fin n) : ℕ :=
  pool.loops[index].inFlight

/-- The remainder by `loop_count`. -/
def EventLoopPool.indexOf (pool : EventLoopPool w n) (x : BitVec w) : Fin n :=
  ⟨x.toNat % n, Nat.mod_lt _ pool.size_pos⟩

/-- The loop of `EventLoopPool::schedule` over `scan_offset`, with the best loop so far. -/
def EventLoopPool.scan (pool : EventLoopPool w n) (scanStart : BitVec w) :
    List ℕ → Fin n → ℕ → Fin n
  | [], chosenIndex, _ => chosenIndex
  | scanOffset :: rest, chosenIndex, lowestLoad =>
    if lowestLoad = 0 then
      chosenIndex
    else
      -- the sum wraps around, as in a build without overflow checks
      let candidateIndex := pool.indexOf (scanStart + BitVec.ofNat w scanOffset)
      let candidateLoad := pool.inFlight candidateIndex
      if candidateLoad < lowestLoad then
        pool.scan scanStart rest candidateIndex candidateLoad
      else
        pool.scan scanStart rest chosenIndex lowestLoad

/-- The index that `EventLoopPool::schedule` settles on. -/
def EventLoopPool.chosenIndex (pool : EventLoopPool w n) : Fin n :=
  let scanStart := pool.scanStartIndex
  let chosenIndex := pool.indexOf scanStart
  pool.scan scanStart (List.range' 1 (n - 1)) chosenIndex (pool.inFlight chosenIndex)

/-- `EventLoopPool::schedule`. -/
def EventLoopPool.schedule (pool : EventLoopPool w n) : EventLoopPool w n :=
  { pool with
    loops := pool.loops.set pool.chosenIndex pool.loops[pool.chosenIndex].schedule
    scanStartIndex := pool.scanStartIndex + 1 }

/-- A request of the loop at an index completes. -/
def EventLoopPool.complete (pool : EventLoopPool w n) (index : Fin n) : EventLoopPool w n :=
  { pool with loops := pool.loops.set index pool.loops[index].complete }

/-- Calls of `schedule`, one after another and without completions. -/
def EventLoopPool.calls (pool : EventLoopPool w n) : ℕ → EventLoopPool w n
  | 0 => pool
  | k + 1 => (pool.calls k).schedule

/-- A run of a pool with completions between the calls, and the pools its calls find. -/
inductive Run (pool : EventLoopPool w n) :
    List (EventLoopPool w n) → EventLoopPool w n → Prop
  | start : Run pool [] pool
  | call {found : List (EventLoopPool w n)} {pool' : EventLoopPool w n} :
      Run pool found pool' → Run pool (found ++ [pool']) pool'.schedule
  | complete {found : List (EventLoopPool w n)} {pool' : EventLoopPool w n} (index : Fin n) :
      Run pool found pool' → 0 < pool'.inFlight index → Run pool found (pool'.complete index)

/-- All loops are idle. -/
def EventLoopPool.Idle (pool : EventLoopPool w n) : Prop :=
  ∀ index, pool.inFlight index = 0

/-- The difference between the most and the least loaded loop. -/
def EventLoopPool.spread (pool : EventLoopPool w n) : ℕ :=
  Balance.spread pool.inFlight

/-- The scan of the next call reads every loop, or an idle one before its sum with the
offset wraps around. A wrap does no harm where it is a whole number of rounds. -/
def EventLoopPool.ScanFits (pool : EventLoopPool w n) : Prop :=
  pool.scanStartIndex.toNat + (n - 1) < 2 ^ w ∨ n ∣ 2 ^ w ∨
    ∃ scanOffset < n, pool.scanStartIndex.toNat + scanOffset < 2 ^ w ∧
      pool.inFlight (pool.indexOf (pool.scanStartIndex + BitVec.ofNat w scanOffset)) = 0

/-- The loop that the scan reads at an offset. -/
def EventLoopPool.candidate (pool : EventLoopPool w n) (scanOffset : ℕ) : Fin n :=
  pool.indexOf (pool.scanStartIndex + BitVec.ofNat w scanOffset)

/-- The scan never settles on a loop that carries more than one it was given. -/
theorem EventLoopPool.scan_le (pool : EventLoopPool w n) (scanStart : BitVec w)
    (offsets : List ℕ) (chosen : Fin n) :
    let settled := pool.scan scanStart offsets chosen (pool.inFlight chosen)
    pool.inFlight settled ≤ pool.inFlight chosen ∧ ∀ scanOffset ∈ offsets,
      pool.inFlight settled ≤
        pool.inFlight (pool.indexOf (scanStart + BitVec.ofNat w scanOffset)) := by
  intro settled
  induction offsets generalizing chosen with
  | nil => exact ⟨le_rfl, by rintro _ ⟨⟩⟩
  | cons scanOffset rest ih =>
    by_cases hidle : pool.inFlight chosen = 0
    · have hsettled : settled = chosen := by
        simp only [settled, EventLoopPool.scan, if_pos hidle]
      rw [hsettled, hidle]
      exact ⟨le_rfl, fun _ _ => Nat.zero_le _⟩
    · let candidate := pool.indexOf (scanStart + BitVec.ofNat w scanOffset)
      by_cases hlower : pool.inFlight candidate < pool.inFlight chosen
      · have hsettled : settled =
            pool.scan scanStart rest candidate (pool.inFlight candidate) := by
          simp only [settled, EventLoopPool.scan, if_neg hidle, if_pos hlower, candidate]
        obtain ⟨hfirst, hrest⟩ := ih candidate
        rw [hsettled]
        refine ⟨hfirst.trans hlower.le, fun offset hoffset => ?_⟩
        rcases List.mem_cons.mp hoffset with rfl | hoffset
        · exact hfirst
        · exact hrest offset hoffset
      · have hsettled : settled = pool.scan scanStart rest chosen (pool.inFlight chosen) := by
          simp only [settled, EventLoopPool.scan, if_neg hidle, if_neg hlower, candidate]
        obtain ⟨hfirst, hrest⟩ := ih chosen
        rw [hsettled]
        refine ⟨hfirst, fun offset hoffset => ?_⟩
        rcases List.mem_cons.mp hoffset with rfl | hoffset
        · exact hfirst.trans (Nat.le_of_not_lt hlower)
        · exact hrest offset hoffset

/-- A tie goes to the loop that the scan starts at. -/
theorem EventLoopPool.scan_eq_of_least {pool : EventLoopPool w n} {chosen : Fin n}
    (hleast : Balance.Least pool.inFlight chosen) (scanStart : BitVec w) (offsets : List ℕ) :
    pool.scan scanStart offsets chosen (pool.inFlight chosen) = chosen := by
  induction offsets with
  | nil => rfl
  | cons scanOffset rest ih =>
    simp only [EventLoopPool.scan]
    split
    · rfl
    · rw [if_neg (Nat.not_lt.mpr (hleast _)), ih]

/-- The scan starts at the rotating offset itself. -/
theorem EventLoopPool.candidate_zero (pool : EventLoopPool w n) :
    pool.candidate 0 = pool.indexOf pool.scanStartIndex := by
  simp [candidate]

/-- No loop that a call reads carries less than the one it takes. -/
theorem EventLoopPool.chosen_le (pool : EventLoopPool w n) {scanOffset : ℕ}
    (hoffset : scanOffset < n) :
    pool.inFlight pool.chosenIndex ≤ pool.inFlight (pool.candidate scanOffset) := by
  obtain ⟨hfirst, hrest⟩ := pool.scan_le pool.scanStartIndex (List.range' 1 (n - 1))
    (pool.indexOf pool.scanStartIndex)
  rcases Nat.eq_zero_or_pos scanOffset with rfl | hpos
  · rw [candidate_zero]
    exact hfirst
  · exact hrest scanOffset (List.mem_range'_1.mpr ⟨hpos, by omega⟩)

/-- What the scan reads, with both places where a sum can wrap around. -/
theorem EventLoopPool.candidate_val (pool : EventLoopPool w n) {scanOffset : ℕ}
    (hoffset : scanOffset < n) :
    (pool.candidate scanOffset).val =
      (pool.scanStartIndex.toNat + scanOffset) % 2 ^ w % n := by
  have hlt : scanOffset < 2 ^ w := hoffset.trans pool.size_lt
  simp only [candidate, indexOf, BitVec.toNat_add, BitVec.toNat_ofNat, Nat.mod_eq_of_lt hlt]

/-- A sum that stays in range. -/
theorem EventLoopPool.candidate_val_of_lt (pool : EventLoopPool w n) {scanOffset : ℕ}
    (hoffset : scanOffset < n) (hlt : pool.scanStartIndex.toNat + scanOffset < 2 ^ w) :
    (pool.candidate scanOffset).val = (pool.scanStartIndex.toNat + scanOffset) % n := by
  rw [pool.candidate_val hoffset, Nat.mod_eq_of_lt hlt]

/-- **Scan soundness.** Neither the early exit nor the strict comparison makes a call miss
a least loaded loop. -/
theorem EventLoopPool.ScanFits.least {pool : EventLoopPool w n} (hfits : pool.ScanFits) :
    Balance.Least pool.inFlight pool.chosenIndex := by
  intro index
  obtain ⟨scanOffset, hoffset, hturn⟩ :=
    Balance.exists_turn pool.scanStartIndex.toNat index.isLt
  have hread : (pool.candidate scanOffset).val = index.val →
      pool.inFlight pool.chosenIndex ≤ pool.inFlight index := by
    intro h
    rw [← Fin.ext h]
    exact pool.chosen_le hoffset
  rcases hfits with hlt | hdvd | ⟨idleOffset, hidle, -, hzero⟩
  · apply hread
    rw [pool.candidate_val_of_lt hoffset (by omega), hturn]
  · apply hread
    rw [pool.candidate_val hoffset, Nat.mod_mod_of_dvd _ hdvd, hturn]
  · have hle := pool.chosen_le hidle
    have hcandidate : pool.inFlight (pool.candidate idleOffset) = 0 := hzero
    omega

/-- If the loop at the rotating offset is among the least loaded ones, it is taken. -/
theorem EventLoopPool.chosen_eq_first {pool : EventLoopPool w n}
    (hleast : Balance.Least pool.inFlight (pool.indexOf pool.scanStartIndex)) :
    pool.chosenIndex = pool.indexOf pool.scanStartIndex :=
  scan_eq_of_least hleast ..

/-- A call adds its request to the loop that it takes, and to no other. -/
theorem EventLoopPool.schedule_inFlight (pool : EventLoopPool w n) :
    pool.schedule.inFlight = Balance.raise pool.inFlight pool.chosenIndex := by
  funext index
  by_cases heq : index = pool.chosenIndex
  · subst heq
    rw [Balance.raise_self]
    simp [inFlight, schedule, EventLoop.schedule]
  · have hne : pool.chosenIndex.val ≠ index.val := fun h => heq (Fin.ext h.symm)
    rw [Balance.raise_of_ne heq]
    simp [inFlight, schedule, Vector.getElem_set_ne, hne]

/-- A call whose scan fits drives no two loops further apart than one request. -/
theorem EventLoopPool.ScanFits.spread_schedule_le {pool : EventLoopPool w n}
    (hfits : pool.ScanFits) : pool.schedule.spread ≤ max pool.spread 1 := by
  rw [spread, pool.schedule_inFlight]
  exact Balance.spread_raise_le hfits.least

/-- The rotating counter after `k` calls that do not wrap it. -/
theorem EventLoopPool.calls_scanStart (pool : EventLoopPool w n) {k : ℕ}
    (hk : pool.scanStartIndex.toNat + k < 2 ^ w) :
    (pool.calls k).scanStartIndex.toNat = pool.scanStartIndex.toNat + k := by
  induction k with
  | zero => rfl
  | succ k ih =>
    have hprev := ih (by omega)
    have hlt : 1 < 2 ^ w := by omega
    have hone : (1 : BitVec w).toNat = 1 := Nat.mod_eq_of_lt hlt
    rw [calls, schedule, BitVec.toNat_add, hprev, hone, Nat.add_assoc, Nat.mod_eq_of_lt hk]

/-- Calls whose scans fit keep the loops as close together as they were. -/
theorem EventLoopPool.calls_spread_le (pool : EventLoopPool w n) {k : ℕ}
    (hfits : ∀ j < k, (pool.calls j).ScanFits) :
    (pool.calls k).spread ≤ max pool.spread 1 := by
  induction k with
  | zero => exact le_max_left ..
  | succ k ih =>
    have hbefore := ih fun j hj => hfits j (by omega)
    have hcall := (hfits k (Nat.lt_succ_self k)).spread_schedule_le
    have hafter : (pool.calls (k + 1)).spread ≤ max (pool.calls k).spread 1 := hcall
    omega

/-- From idle loops the calls go around the pool in turns: the loop `r` places after the
first one has had the turns that fell to it. No scan has to fit for this, because the loop
at the rotating offset is always among the least loaded ones. -/
theorem EventLoopPool.Idle.calls_inFlight {pool : EventLoopPool w n} (hidle : pool.Idle)
    {k : ℕ} (hk : pool.scanStartIndex.toNat + k ≤ 2 ^ w) {r : ℕ} (hr : r < n) {index : Fin n}
    (hindex : (pool.scanStartIndex.toNat + r) % n = index.val) :
    (pool.calls k).inFlight index = Balance.turns n k r := by
  induction k generalizing r index with
  | zero => rw [Balance.turns_zero hr, calls, hidle]
  | succ k ih =>
    have hbefore : pool.scanStartIndex.toNat + k ≤ 2 ^ w := by omega
    let first := (pool.calls k).indexOf (pool.calls k).scanStartIndex
    have hfirst : (pool.scanStartIndex.toNat + k % n) % n = first.val := by
      show _ = (pool.calls k).scanStartIndex.toNat % n
      rw [pool.calls_scanStart (by omega), Nat.add_mod_mod]
    have hleast : Balance.Least (pool.calls k).inFlight first := by
      intro other
      obtain ⟨r', hr', hturn⟩ := Balance.exists_turn pool.scanStartIndex.toNat other.isLt
      rw [ih hbefore (Nat.mod_lt k pool.size_pos) hfirst, ih hbefore hr' hturn]
      exact Balance.turns_next_le k hr'
    rw [calls, schedule_inFlight, chosen_eq_first hleast, Balance.turns_succ k hr]
    by_cases hturn : index = first
    · have heq : k % n = r := by
        apply Balance.turn_inj (s := pool.scanStartIndex.toNat) (Nat.mod_lt k pool.size_pos) hr
        rw [hfirst, hindex, hturn]
      rw [hturn, Balance.raise_self, ih hbefore hr (hindex.trans (congrArg Fin.val hturn)),
        if_pos heq]
    · have hne : k % n ≠ r := by
        intro heq
        rw [heq, hindex] at hfirst
        exact hturn (Fin.ext hfirst)
      rw [Balance.raise_of_ne hturn, ih hbefore hr hindex, if_neg hne, Nat.add_zero]

/-- The rotating counter along a run, whatever completes between the calls. -/
theorem Run.scanStart {pool pool' : EventLoopPool w n} {found : List (EventLoopPool w n)}
    (hrun : Run pool found pool') :
    pool'.scanStartIndex = pool.scanStartIndex + BitVec.ofNat w found.length ∧
      ∀ (m : ℕ) (hm : m < found.length),
        found[m].scanStartIndex = pool.scanStartIndex + BitVec.ofNat w m := by
  induction hrun with
  | start => exact ⟨by simp, by rintro _ ⟨⟩⟩
  | @call found pool' _ ih =>
    obtain ⟨hend, hfound⟩ := ih
    constructor
    · rw [EventLoopPool.schedule, hend, List.length_append, List.length_singleton,
        BitVec.ofNat_add, BitVec.add_assoc]
      rfl
    · intro m hm
      rw [List.length_append, List.length_singleton] at hm
      rcases Nat.lt_or_ge m found.length with hlt | hge
      · rw [List.getElem_append_left hlt, hfound m hlt]
      · have hlast : m = found.length := by omega
        subst hlast
        rw [List.getElem_append_right le_rfl]
        simpa using hend
  | complete _ _ _ ih => exact ih

/-- A call that finds all loops idle takes the one at the rotating offset. -/
theorem EventLoopPool.Idle.chosenIndex {pool : EventLoopPool w n} (hidle : pool.Idle) :
    pool.chosenIndex = pool.indexOf pool.scanStartIndex := by
  apply chosen_eq_first
  intro index
  rw [hidle]
  exact Nat.zero_le _

/-- Calls that find all loops idle use them in turns, so a window of `n` calls uses each
exactly once. -/
theorem Run.count_chosen {pool pool' : EventLoopPool w n} {found : List (EventLoopPool w n)}
    (hrun : Run pool found pool') (hwrap : pool.scanStartIndex.toNat + found.length ≤ 2 ^ w)
    (hidle : ∀ pool ∈ found, pool.Idle) {t : ℕ} (ht : t + n ≤ found.length) (index : Fin n) :
    (((found.drop t).take n).map EventLoopPool.chosenIndex).count index = 1 := by
  let turn (m : ℕ) : Fin n :=
    ⟨(pool.scanStartIndex.toNat + t + m) % n, Nat.mod_lt _ pool.size_pos⟩
  have hturns : ((found.drop t).take n).map EventLoopPool.chosenIndex =
      (List.range n).map turn := by
    apply List.ext_getElem
    · simp only [List.length_map, List.length_take, List.length_drop, List.length_range]
      omega
    · intro m hm hm'
      have hmn : m < n := by simpa using hm'
      have hcall := hrun.scanStart.2 (t + m) (by omega)
      have hmem := hidle found[t + m] (List.getElem_mem _)
      have hlt : t + m < 2 ^ w := by omega
      have hsum : pool.scanStartIndex.toNat + (t + m) < 2 ^ w := by omega
      simp only [List.getElem_map, List.getElem_take, List.getElem_drop, hmem.chosenIndex,
        List.getElem_range]
      apply Fin.ext
      simp only [EventLoopPool.indexOf, hcall, BitVec.toNat_add, BitVec.toNat_ofNat,
        Nat.mod_eq_of_lt hlt, turn]
      rw [Nat.mod_eq_of_lt hsum, Nat.add_assoc]
  have hnodup : ((List.range n).map turn).Nodup := by
    apply List.Nodup.map_on _ List.nodup_range
    intro m hm m' hm' heq
    exact Balance.turn_inj (List.mem_range.mp hm) (List.mem_range.mp hm') (congrArg Fin.val heq)
  obtain ⟨m, hm, hturn⟩ :=
    Balance.exists_turn (pool.scanStartIndex.toNat + t) index.isLt
  rw [hturns]
  apply List.count_eq_one_of_mem hnodup
  exact List.mem_map.mpr ⟨m, List.mem_range.mpr hm, Fin.ext hturn⟩

/-- **Placement spreads load.** In a run of `k` calls that does not wrap the rotating
counter: from idle loops and without completions every loop ends up with `k / n` requests,
rounded down or up; without completions the loops are never further apart than at the start
or by one request, as long as the scans fit; and calls that find all loops idle use each
loop exactly once in any `n` of them. -/
theorem EventLoopPool.schedule_spreads (pool : EventLoopPool w n) (k : ℕ)
    (hwrap : pool.scanStartIndex.toNat + k ≤ 2 ^ w) :
    (pool.Idle → ∀ index, (pool.calls k).inFlight index = k / n ∨
      (pool.calls k).inFlight index = (k + (n - 1)) / n) ∧
    ((∀ j < k, (pool.calls j).ScanFits) → ∀ j ≤ k,
      (pool.calls j).spread ≤ max pool.spread 1) ∧
    ∀ found pool', Run pool found pool' → found.length = k → (∀ pool ∈ found, pool.Idle) →
      ∀ t, t + n ≤ k → ∀ index,
        (((found.drop t).take n).map EventLoopPool.chosenIndex).count index = 1 := by
  refine ⟨fun hidle index => ?_, fun hfits j hj => ?_, ?_⟩
  · obtain ⟨r, hr, hturn⟩ := Balance.exists_turn pool.scanStartIndex.toNat index.isLt
    rw [hidle.calls_inFlight hwrap hr hturn]
    exact Balance.turns_eq_floor_or_ceil k hr
  · exact pool.calls_spread_le fun i hi => hfits i (by omega)
  · rintro found pool' hrun rfl hidle t ht index
    exact hrun.count_chosen hwrap hidle ht index

/-- Two loops that carry nothing. -/
def twoIdle : EventLoopPool 64 2 where
  loops := #v[⟨0⟩, ⟨0⟩]
  scanStartIndex := 0
  size_pos := by decide
  size_lt := by decide

/-- Two calls on two idle loops go to one each. -/
theorem EventLoopPool.schedule_spreads_twoIdle :
    (∀ index, (twoIdle.calls 2).inFlight index = 2 / 2 ∨
      (twoIdle.calls 2).inFlight index = (2 + (2 - 1)) / 2) ∧
    (twoIdle.calls 2).spread ≤ max twoIdle.spread 1 ∧
    ∀ index, (((([twoIdle, twoIdle.schedule.complete 0].drop 0).take 2).map
      EventLoopPool.chosenIndex).count index = 1) := by
  have hspreads := twoIdle.schedule_spreads 2 (by decide)
  have hfits : ∀ j < 2, (twoIdle.calls j).ScanFits := by
    intro j _
    exact Or.inr (Or.inl (by decide))
  have hrun : Run twoIdle [twoIdle, twoIdle.schedule.complete 0]
      (twoIdle.schedule.complete 0).schedule :=
    .call (.complete 0 (.call .start) (by decide))
  have hidle : ∀ pool ∈ [twoIdle, twoIdle.schedule.complete 0], pool.Idle := by
    intro pool hpool index
    simp only [List.mem_cons, List.not_mem_nil, or_false] at hpool
    rcases hpool with rfl | rfl <;> revert index <;> decide
  exact ⟨hspreads.1 (by intro index; revert index; decide), hspreads.2.1 hfits 2 le_rfl,
    hspreads.2.2 _ _ hrun rfl hidle 0 le_rfl⟩

/-- Three loops, and a counter so close to its end that the scan passes it. -/
def nearCounterEnd : EventLoopPool 64 3 where
  loops := #v[⟨1⟩, ⟨0⟩, ⟨1⟩]
  scanStartIndex := 0xFFFFFFFFFFFFFFFE
  size_pos := by decide
  size_lt := by decide

/-- The counter itself does not wrap around, but the sums with the offsets do: the scan reads
the first loop twice and the idle one not at all. -/
theorem EventLoopPool.spread_grows_nearCounterEnd :
    nearCounterEnd.scanStartIndex.toNat + 1 < 2 ^ 64 ∧
      max nearCounterEnd.spread 1 < (nearCounterEnd.calls 1).spread := by
  refine ⟨by decide, ?_⟩
  have hchosen : nearCounterEnd.inFlight nearCounterEnd.chosenIndex <
      nearCounterEnd.inFlight 1 +
        Balance.spread (Balance.raise nearCounterEnd.inFlight nearCounterEnd.chosenIndex) :=
    Balance.lt_add_spread_raise (by decide)
  rw [← nearCounterEnd.schedule_inFlight] at hchosen
  have hloads : nearCounterEnd.inFlight nearCounterEnd.chosenIndex = 1 ∧
      nearCounterEnd.inFlight 1 = 0 ∧ nearCounterEnd.spread = 1 := by decide
  have hafter : (nearCounterEnd.calls 1).spread = Balance.spread nearCounterEnd.schedule.inFlight :=
    rfl
  omega

end Rayo.LoopPool
