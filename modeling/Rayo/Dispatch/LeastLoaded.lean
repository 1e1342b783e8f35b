import Rayo.Dispatch.LoopPool

/-!
# The loop that a call picks

The scan of `EventLoopPool::schedule` picks the first least loaded loop in cyclic order,
until its sum of the counter and an offset leaves the range of a `usize`. In a build with
overflow checks that sum panics. In one without, it wraps around, and the scan meets
loops a second time instead of the ones that are left.
-/

namespace Rayo.LoopPool

open Balance (FirstLeast)

variable {w n : ℕ}

/-- The loop of `EventLoopPool::schedule` over `scan_offset` in a build with overflow checks,
where nothing is picked when the sum panics. -/
def EventLoopPool.scanChecked (pool : EventLoopPool w n) (scanStart : BitVec w) :
    List ℕ → Fin n → ℕ → Option (Fin n)
  | [], chosenIndex, _ => some chosenIndex
  | scanOffset :: rest, chosenIndex, lowestLoad =>
    if lowestLoad = 0 then
      some chosenIndex
    else if 2 ^ w ≤ scanStart.toNat + scanOffset then
      none
    else
      let candidateIndex := pool.indexOf (scanStart + BitVec.ofNat w scanOffset)
      let candidateLoad := pool.inFlight candidateIndex
      if candidateLoad < lowestLoad then
        pool.scanChecked scanStart rest candidateIndex candidateLoad
      else
        pool.scanChecked scanStart rest chosenIndex lowestLoad

/-- The index that `EventLoopPool::schedule` settles on in such a build. -/
def EventLoopPool.checkedIndex (pool : EventLoopPool w n) : Option (Fin n) :=
  let scanStart := pool.scanStartIndex
  let chosenIndex := pool.indexOf scanStart
  pool.scanChecked scanStart (List.range' 1 (n - 1)) chosenIndex (pool.inFlight chosenIndex)

/-- The loop that comes `offset` places after the counter in cyclic order. -/
def EventLoopPool.turnAt (pool : EventLoopPool w n) (offset : ℕ) : Fin n :=
  ⟨(pool.scanStartIndex.toNat + offset) % n, Nat.mod_lt _ pool.size_pos⟩

/-- The load of that loop. -/
def EventLoopPool.turnLoad (pool : EventLoopPool w n) (offset : ℕ) : ℕ :=
  pool.inFlight (pool.turnAt offset)

/-- A call computes an index without overflow, and it is that of the first least loaded loop
in cyclic order from the counter. -/
structure EventLoopPool.PicksFirstLeast (pool : EventLoopPool w n) : Prop where
  inRange : pool.checkedIndex = some pool.chosenIndex
  least : Balance.Least pool.inFlight pool.chosenIndex
  first : ∃ offset < n, pool.chosenIndex = pool.turnAt offset ∧
    ∀ earlier < offset, pool.inFlight pool.chosenIndex < pool.turnLoad earlier

/-- The sums of the scan stay in range, or an idle loop comes before the first that does
not. -/
def EventLoopPool.ScanInRange (pool : EventLoopPool w n) : Prop :=
  pool.scanStartIndex.toNat + n ≤ 2 ^ w ∨
    ∃ idle < n, pool.scanStartIndex.toNat + idle < 2 ^ w ∧ pool.turnLoad idle = 0

variable {pool : EventLoopPool w n}

/-- What the scan reads as long as its sum stays in range. -/
theorem EventLoopPool.candidate_eq_turnAt {offset : ℕ} (hoffset : offset < n)
    (hlt : pool.scanStartIndex.toNat + offset < 2 ^ w) :
    pool.indexOf (pool.scanStartIndex + BitVec.ofNat w offset) = pool.turnAt offset :=
  Fin.ext (pool.candidate_val_of_lt hoffset hlt)

/-- The checks change nothing else. -/
theorem EventLoopPool.scan_of_scanChecked {scanStart : BitVec w} {offsets : List ℕ}
    {chosen index : Fin n} {lowest : ℕ}
    (hchecked : pool.scanChecked scanStart offsets chosen lowest = some index) :
    pool.scan scanStart offsets chosen lowest = index := by
  induction offsets generalizing chosen lowest with
  | nil => exact Option.some.inj hchecked
  | cons offset rest ih =>
    simp only [scanChecked] at hchecked
    simp only [scan]
    split at hchecked
    · next hzero =>
      rw [if_pos hzero]
      exact Option.some.inj hchecked
    · next hload =>
      rw [if_neg hload]
      split at hchecked
      · cases hchecked
      · split at hchecked
        · next hlower =>
          rw [if_pos hlower]
          exact ih hchecked
        · next hlower =>
          rw [if_neg hlower]
          exact ih hchecked

/-- After the first `m` loops the checked scan has picked the first least loaded of them, and
it goes on to do so for all that are left. -/
theorem EventLoopPool.firstLeast_of_scanChecked {m k i : ℕ} {index : Fin n} (hsize : m + k ≤ n)
    (hfirst : FirstLeast pool.turnLoad m i)
    (hchecked : pool.scanChecked pool.scanStartIndex (List.range' m k) (pool.turnAt i)
      (pool.turnLoad i) = some index) :
    ∃ j, index = pool.turnAt j ∧ FirstLeast pool.turnLoad (m + k) j := by
  induction k generalizing m i with
  | zero => exact ⟨i, (Option.some.inj hchecked).symm, hfirst⟩
  | succ k ih =>
    rw [List.range'_succ] at hchecked
    simp only [scanChecked] at hchecked
    have hnext : m + 1 + k = m + (k + 1) := by omega
    split at hchecked
    · next hzero => exact ⟨i, (Option.some.inj hchecked).symm, hfirst.of_zero hzero (by omega)⟩
    split at hchecked
    · cases hchecked
    · next hrange =>
      rw [candidate_eq_turnAt (by omega) (by omega)] at hchecked
      rw [← hnext]
      split at hchecked
      · next hlower => exact ih (by omega) (hfirst.replace hlower) hchecked
      · next hlower => exact ih (by omega) (hfirst.keep (Nat.le_of_not_lt hlower)) hchecked

/-- The checked scan comes to an index exactly if it stays in range, or meets an idle loop
before it leaves it. -/
theorem EventLoopPool.scanChecked_isSome {m k i : ℕ} (hsize : m + k ≤ n)
    (hfirst : FirstLeast pool.turnLoad m i) (hrange : pool.scanStartIndex.toNat + m ≤ 2 ^ w) :
    (pool.scanChecked pool.scanStartIndex (List.range' m k) (pool.turnAt i)
      (pool.turnLoad i)).isSome = true ↔
      pool.scanStartIndex.toNat + (m + k) ≤ 2 ^ w ∨
        ∃ idle < m + k, pool.scanStartIndex.toNat + idle < 2 ^ w ∧ pool.turnLoad idle = 0 := by
  have hlt := hfirst.lt
  induction k generalizing m i with
  | zero => exact iff_of_true rfl (Or.inl hrange)
  | succ k ih =>
    rw [List.range'_succ]
    simp only [scanChecked]
    have hnext : m + 1 + k = m + (k + 1) := by omega
    split
    · next hzero => exact iff_of_true rfl (Or.inr ⟨i, by omega, by omega, hzero⟩)
    split
    · next hload hover =>
      apply iff_of_false (by simp)
      rintro (hall | ⟨idle, -, hidle, hzero⟩)
      · omega
      · have hleast := hfirst.least idle (by omega)
        omega
    · next hover =>
      rw [candidate_eq_turnAt (by omega) (by omega), ← hnext]
      split
      · next hlower => exact ih (by omega) (hfirst.replace hlower) (by omega) (by omega)
      · next hlower =>
        exact ih (by omega) (hfirst.keep (Nat.le_of_not_lt hlower)) (by omega) (by omega)

/-- A call in a build with overflow checks settles on an index exactly if its scan stays in
range. -/
theorem EventLoopPool.checkedIndex_isSome (pool : EventLoopPool w n) :
    pool.checkedIndex.isSome = true ↔ pool.ScanInRange := by
  have hpos := pool.size_pos
  have hsize : 1 + (n - 1) = n := by omega
  have hrange : pool.scanStartIndex.toNat + 1 ≤ 2 ^ w := pool.scanStartIndex.isLt
  have hsome := scanChecked_isSome (by omega) (FirstLeast.one pool.turnLoad) hrange (k := n - 1)
  rw [hsize] at hsome
  exact hsome

/-- **The pick is the first least loaded loop exactly when the scan stays in range.** For every
size of the pool, every load and every value of the counter: a call computes its index
without overflow, no loop carries less, and among the least loaded loops it is the first
in cyclic order from the counter, if and only if the sums stay in range or an idle loop is met
before one that does not. -/
theorem EventLoopPool.picksFirstLeast_iff_scanInRange (pool : EventLoopPool w n) :
    pool.PicksFirstLeast ↔ pool.ScanInRange := by
  rw [← pool.checkedIndex_isSome]
  constructor
  · intro hpicks
    rw [hpicks.inRange]
    rfl
  · intro hsome
    obtain ⟨index, hindex⟩ := Option.isSome_iff_exists.mp hsome
    have hchosen : pool.chosenIndex = index := scan_of_scanChecked hindex
    have hpos := pool.size_pos
    obtain ⟨offset, hoffset, hfirst⟩ := firstLeast_of_scanChecked (by omega)
      (FirstLeast.one pool.turnLoad) hindex
    have hsize : 1 + (n - 1) = n := by omega
    rw [hsize] at hfirst
    refine ⟨hindex.trans (congrArg some hchosen.symm), fun other => ?_, offset, hfirst.lt,
      hchosen.trans hoffset, fun earlier hearlier => ?_⟩
    · obtain ⟨place, hplace, hturn⟩ := Balance.exists_turn pool.scanStartIndex.toNat other.isLt
      have hother : pool.turnAt place = other := Fin.ext hturn
      rw [hchosen, hoffset, ← hother]
      exact hfirst.least place hplace
    · rw [hchosen, hoffset]
      exact hfirst.first earlier hearlier

/-- With three loops and a counter near its end, a call panics or picks a loop that carries
a request although the second loop is idle. -/
theorem EventLoopPool.nearCounterEnd_misses_idle :
    nearCounterEnd.checkedIndex = none ∧
      nearCounterEnd.inFlight nearCounterEnd.chosenIndex = 1 ∧ nearCounterEnd.inFlight 1 = 0 ∧
      ¬ nearCounterEnd.PicksFirstLeast := by
  have hpanics : nearCounterEnd.checkedIndex = none := by decide
  refine ⟨hpanics, by decide, by decide, fun hpicks => ?_⟩
  have hinRange := hpicks.inRange
  rw [hpanics] at hinRange
  cases hinRange

end Rayo.LoopPool
