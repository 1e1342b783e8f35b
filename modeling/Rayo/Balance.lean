import Mathlib.Data.Finset.Lattice.Fold
import Mathlib.Data.Fintype.Prod
import Mathlib.Data.Nat.ModEq
import Mathlib.Order.Lattice.Nat

/-!
# Load spread over seats

Units of load are given to seats one at a time. Giving each to a least loaded seat keeps
the loads together. Giving them out in turns around a table of `n` seats is the special
case where the loads start equal, and then every load is known exactly.
-/

namespace Balance

section Spread

variable {ι : Type*} [Fintype ι] [DecidableEq ι] {load : ι → ℕ}

/-- The difference between the most and the least loaded seat. -/
def spread (load : ι → ℕ) : ℕ :=
  Finset.univ.sup fun p : ι × ι => load p.1 - load p.2

/-- The loads after one more unit at `i`. -/
def raise (load : ι → ℕ) (i : ι) : ι → ℕ :=
  Function.update load i (load i + 1)

/-- No seat is less loaded than `i`. -/
def Least (load : ι → ℕ) (i : ι) : Prop :=
  ∀ j, load i ≤ load j

omit [DecidableEq ι] in
/-- The spread bounds every difference, and is the least such bound. -/
theorem spread_le_iff {d : ℕ} : spread load ≤ d ↔ ∀ i j, load i ≤ load j + d := by
  simp only [spread, Finset.sup_le_iff, Finset.mem_univ, true_implies, Prod.forall,
    Nat.sub_le_iff_le_add']

omit [DecidableEq ι] in
/-- No load exceeds another one by more than the spread. -/
theorem le_add_spread (load : ι → ℕ) (i j : ι) : load i ≤ load j + spread load :=
  spread_le_iff.mp le_rfl i j

omit [Fintype ι] in
/-- The seat that got the unit. -/
theorem raise_self (i : ι) : raise load i i = load i + 1 :=
  Function.update_self ..

omit [Fintype ι] in
/-- The other seats. -/
theorem raise_of_ne {i j : ι} (hne : j ≠ i) : raise load i j = load j :=
  Function.update_of_ne hne ..

/-- A unit at a least loaded seat never drives the loads apart, except to a difference
of one. -/
theorem spread_raise_le {i : ι} (hleast : Least load i) :
    spread (raise load i) ≤ max (spread load) 1 := by
  rw [spread_le_iff]
  intro j k
  have hspread := le_add_spread load j k
  by_cases hk : k = i
  · subst hk
    by_cases hj : j = k
    · subst hj
      omega
    · rw [raise_self, raise_of_ne hj]
      omega
  · rw [raise_of_ne hk]
    by_cases hj : j = i
    · subst hj
      have hle := hleast k
      rw [raise_self]
      omega
    · rw [raise_of_ne hj]
      omega

/-- A unit at `i` shows in the difference to every other seat. -/
theorem lt_add_spread_raise {i j : ι} (hne : j ≠ i) :
    load i < load j + spread (raise load i) := by
  have hle := le_add_spread (raise load i) i j
  rw [raise_self, raise_of_ne hne] at hle
  omega

end Spread

section First

variable {load : ℕ → ℕ} {m i : ℕ}

/-- Among the first `m` seats met, `i` is the first that carries the least. -/
structure FirstLeast (load : ℕ → ℕ) (m i : ℕ) : Prop where
  lt : i < m
  least : ∀ j < m, load i ≤ load j
  first : ∀ j < i, load i < load j

/-- The first seat met. -/
theorem FirstLeast.one (load : ℕ → ℕ) : FirstLeast load 1 0 := by
  refine ⟨Nat.zero_lt_one, fun j hj => ?_, fun j hj => absurd hj (Nat.not_lt_zero j)⟩
  obtain rfl : j = 0 := by omega
  exact le_rfl

/-- The next seat carries less. -/
theorem FirstLeast.replace (h : FirstLeast load m i) (hlower : load m < load i) :
    FirstLeast load (m + 1) m := by
  refine ⟨Nat.lt_succ_self m, fun j hj => ?_, fun j hj => hlower.trans_le (h.least j hj)⟩
  rcases Nat.lt_succ_iff_lt_or_eq.mp hj with hlt | rfl
  · exact hlower.le.trans (h.least j hlt)
  · exact le_rfl

/-- The next seat carries no less. -/
theorem FirstLeast.keep (h : FirstLeast load m i) (hle : load i ≤ load m) :
    FirstLeast load (m + 1) i := by
  refine ⟨h.lt.trans (Nat.lt_succ_self m), fun j hj => ?_, h.first⟩
  rcases Nat.lt_succ_iff_lt_or_eq.mp hj with hlt | rfl
  · exact h.least j hlt
  · exact hle

/-- No seat carries less than nothing. -/
theorem FirstLeast.of_zero (h : FirstLeast load m i) (hzero : load i = 0) {m' : ℕ}
    (hle : m ≤ m') : FirstLeast load m' i := by
  refine ⟨h.lt.trans_le hle, fun j _ => ?_, h.first⟩
  rw [hzero]
  exact Nat.zero_le _

end First

variable {n : ℕ}

/-- Whoever comes first, a round of the table reaches every seat. -/
theorem exists_turn (s : ℕ) {i : ℕ} (hi : i < n) : ∃ r < n, (s + r) % n = i := by
  have hn : 0 < n := Nat.zero_lt_of_lt hi
  have hs := Nat.mod_lt s hn
  refine ⟨(i + (n - s % n)) % n, Nat.mod_lt _ hn, ?_⟩
  rw [Nat.add_mod, Nat.mod_mod, ← Nat.add_mod, ← Nat.mod_add_mod]
  have hround : s % n + (i + (n - s % n)) = i + n := by omega
  rw [hround, Nat.add_mod_right, Nat.mod_eq_of_lt hi]

/-- No seat has two turns in one round. -/
theorem turn_inj {s r r' : ℕ} (hr : r < n) (hr' : r' < n)
    (heq : (s + r) % n = (s + r') % n) : r = r' :=
  Nat.ModEq.eq_of_lt_of_lt (Nat.ModEq.add_left_cancel' s heq) hr hr'

/-- The number of turns among the first `k` of the seat that comes `r` seats after the
first one. -/
def turns (n k r : ℕ) : ℕ :=
  (k + (n - 1 - r)) / n

/-- Before the first turn. -/
theorem turns_zero {r : ℕ} (hr : r < n) : turns n 0 r = 0 :=
  Nat.div_eq_of_lt (by omega)

/-- One more turn goes to the seat that the count of turns names. -/
theorem turns_succ (k : ℕ) {r : ℕ} (hr : r < n) :
    turns n (k + 1) r = turns n k r + if k % n = r then 1 else 0 := by
  have hdvd : n ∣ k + (n - 1 - r) + 1 ↔ k % n = r := by
    have hsum : k + (n - 1 - r) + 1 + r = k + n := by omega
    rw [← Nat.modEq_zero_iff_dvd]
    constructor
    · intro h
      have hadd := h.add_right r
      rw [hsum, Nat.zero_add] at hadd
      have hk : (k + n) % n = r % n := hadd
      rwa [Nat.add_mod_right, Nat.mod_eq_of_lt hr] at hk
    · intro h
      apply Nat.ModEq.add_right_cancel' r
      rw [hsum, Nat.zero_add]
      show (k + n) % n = r % n
      rw [Nat.add_mod_right, h, Nat.mod_eq_of_lt hr]
  have hsucc : k + 1 + (n - 1 - r) = k + (n - 1 - r) + 1 := by omega
  simp only [turns, hsucc, Nat.succ_div, hdvd]

/-- The seat whose turn comes next has had as few turns as any. -/
theorem turns_next_le (k : ℕ) {r : ℕ} (hr : r < n) : turns n k (k % n) ≤ turns n k r := by
  have hn : 0 < n := Nat.zero_lt_of_lt hr
  have hk := Nat.mod_lt k hn
  have hdiv := Nat.div_add_mod k n
  have hnext : turns n k (k % n) = k / n := by
    have hsum : k + (n - 1 - k % n) = n - 1 + n * (k / n) := by omega
    rw [turns, hsum, Nat.add_mul_div_left _ _ hn, Nat.div_eq_of_lt (by omega), Nat.zero_add]
  rw [hnext]
  exact Nat.div_le_div_right (by omega)

/-- **Turns are even.** After `k` turns every seat has had `k / n` of them, rounded down
or up. -/
theorem turns_eq_floor_or_ceil (k : ℕ) {r : ℕ} (hr : r < n) :
    turns n k r = k / n ∨ turns n k r = (k + (n - 1)) / n := by
  have hn : 0 < n := Nat.zero_lt_of_lt hr
  have hlow : k / n ≤ turns n k r := Nat.div_le_div_right (by omega)
  have hhigh : turns n k r ≤ (k + (n - 1)) / n := Nat.div_le_div_right (by omega)
  have hgap : (k + (n - 1)) / n ≤ k / n + 1 := by
    rw [← Nat.add_div_right k hn]
    exact Nat.div_le_div_right (by omega)
  omega

end Balance
