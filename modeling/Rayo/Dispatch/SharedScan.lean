import Rayo.Dispatch.SharedPool

/-!
# What a scan of a shared pool finds

The loop that a scan settles on carries hardly more than any other one, by as much as has been
counted in and out while the scan has read the gauges.
-/

namespace Rayo

namespace SharedPool

variable {w n : ℕ} {s : SharedPool w n} {allowed : SharedPool w n → Event n → Prop}

/-- The loads as a call finds them that no other one overlaps with. -/
def snapshot (s : SharedPool w n) (scanStart : BitVec w) : LoopPool.EventLoopPool w n where
  loops := Vector.ofFn fun index => ⟨(s.inFlightCount index).toNat⟩
  scanStartIndex := scanStart
  size_pos := s.size_pos
  size_lt := s.size_lt

/-- A load of the snapshot is the gauge of the loop. -/
theorem snapshot_inFlight (scanStart : BitVec w) (index : Fin n) :
    (s.snapshot scanStart).inFlight index = (s.inFlightCount index).toNat := by
  simp [LoopPool.EventLoopPool.inFlight, snapshot]

/-- What a scan has found holds up to how far the gauges have moved since, and if they have not
moved, the rest of the scan takes it where a call that nothing overlaps with ends. -/
structure Scanned (s : SharedPool w n) (r : RequestId) (scanStart : BitVec w) (scanOffset : ℕ)
    (chosenIndex : Fin n) (lowestLoad : ℤ) : Prop where
  nonneg : 0 ≤ lowestLoad
  chosen : s.inFlightCount chosenIndex ≤ lowestLoad + s.arrivals r
  least : ∀ offset < scanOffset,
    lowestLoad ≤ s.inFlightCount (s.candidate scanStart offset) + s.departures r
  rest : s.arrivals r = 0 → s.departures r = 0 →
    (s.snapshot scanStart).scan scanStart (List.range' scanOffset (n - scanOffset)) chosenIndex
      lowestLoad.toNat = (s.snapshot scanStart).chosenIndex

/-- This holds of the scans of all calls. -/
def Scanning (s : SharedPool w n) : Prop :=
  ∀ r scanStart scanOffset chosenIndex lowestLoad,
    s.calls r = .scanning scanStart scanOffset chosenIndex lowestLoad →
      s.Scanned r scanStart scanOffset chosenIndex lowestLoad

/-- No gauge is below zero. -/
theorem inFlightCount_nonneg (hsound : ∀ index, (s.loops index).Sound) (index : Fin n) :
    0 ≤ s.inFlightCount index := (hsound index).accounted.balanced.gauge_nonneg

/-- The first gauge that is read is the lowest so far. -/
theorem Scanned.readFirst (hsound : ∀ index, (s.loops index).Sound) {r : RequestId}
    {scanStart : BitVec w} : s.Scanned r scanStart 1 (s.indexOf scanStart)
      (s.inFlightCount (s.indexOf scanStart)) := by
  refine ⟨inFlightCount_nonneg hsound _, by omega, fun offset hoffset => ?_, fun _ _ => ?_⟩
  · obtain rfl : offset = 0 := by omega
    have hfirst : s.candidate scanStart 0 = s.indexOf scanStart := by simp [candidate]
    rw [hfirst]
    omega
  · rw [← snapshot_inFlight scanStart]
    rfl

/-- What a scan has found still holds after it has read one more gauge. -/
theorem Scanned.readNext (hsound : ∀ index, (s.loops index).Sound) {r : RequestId}
    {scanStart : BitVec w} {scanOffset : ℕ} {chosenIndex : Fin n} {lowestLoad : ℤ}
    (h : s.Scanned r scanStart scanOffset chosenIndex lowestLoad) (hoffset : scanOffset < n)
    (hload : lowestLoad ≠ 0) :
    let load := s.inFlightCount (s.candidate scanStart scanOffset)
    (load < lowestLoad →
      s.Scanned r scanStart (scanOffset + 1) (s.candidate scanStart scanOffset) load) ∧
    (¬load < lowestLoad → s.Scanned r scanStart (scanOffset + 1) chosenIndex lowestLoad) := by
  intro load
  have hnonneg : 0 ≤ load := inFlightCount_nonneg hsound _
  have hlowest := h.nonneg
  have hrange : List.range' scanOffset (n - scanOffset) =
      scanOffset :: List.range' (scanOffset + 1) (n - (scanOffset + 1)) := by
    rw [show n - scanOffset = n - (scanOffset + 1) + 1 by omega, List.range'_succ]
  have hread : (s.snapshot scanStart).inFlight ((s.snapshot scanStart).indexOf
      (scanStart + BitVec.ofNat w scanOffset)) = load.toNat := snapshot_inFlight ..
  have hleast (lowest : ℤ) (hle : lowest ≤ lowestLoad) (hnext : lowest ≤ load) (offset : ℕ)
      (hlt : offset < scanOffset + 1) :
      lowest ≤ s.inFlightCount (s.candidate scanStart offset) + s.departures r := by
    rcases Nat.lt_succ_iff_lt_or_eq.mp hlt with hbefore | rfl
    · have := h.least offset hbefore
      omega
    · show lowest ≤ load + s.departures r
      omega
  have hstep (harrivals : s.arrivals r = 0) (hdepartures : s.departures r = 0) :=
    h.rest harrivals hdepartures
  simp only [hrange, LoopPool.EventLoopPool.scan, hread,
    if_neg (show ¬lowestLoad.toNat = 0 by omega)] at hstep
  constructor <;> intro hlt
  · refine ⟨hnonneg, by omega, hleast load (by omega) le_rfl, fun ha hd => ?_⟩
    have := hstep ha hd
    rwa [if_pos (by omega)] at this
  · refine ⟨hlowest, h.chosen, hleast lowestLoad le_rfl (by omega), fun ha hd => ?_⟩
    have := hstep ha hd
    rwa [if_neg (by omega)] at this

/-- Only the gauges and the histories of the call matter. -/
theorem Scanned.congr {s' : SharedPool w n} {r : RequestId} {scanStart : BitVec w}
    {scanOffset : ℕ} {chosenIndex : Fin n} {lowestLoad : ℤ}
    (h : s.Scanned r scanStart scanOffset chosenIndex lowestLoad)
    (hcount : s'.inFlightCount = s.inFlightCount) (harrivals : s'.arrivals r = s.arrivals r)
    (hdepartures : s'.departures r = s.departures r) :
    s'.Scanned r scanStart scanOffset chosenIndex lowestLoad := by
  have hsnapshot : s'.snapshot scanStart = s.snapshot scanStart := by simp [snapshot, hcount]
  refine ⟨h.nonneg, ?_, fun offset hoffset => ?_, fun ha hd => ?_⟩
  · rw [hcount, harrivals]
    exact h.chosen
  · rw [hcount, hdepartures]
    exact h.least offset hoffset
  · rw [hsnapshot]
    exact h.rest (harrivals ▸ ha) (hdepartures ▸ hd)

/-- A step of a loop moves its gauge, and the histories with it. -/
theorem Scanned.onLoop {r : RequestId} {scanStart : BitVec w} {scanOffset : ℕ}
    {chosenIndex : Fin n} {lowestLoad : ℤ}
    (h : s.Scanned r scanStart scanOffset chosenIndex lowestLoad) (index : Fin n)
    (e : EventLoop.Event) :
    (s.effect (.onLoop index e)).Scanned r scanStart scanOffset chosenIndex lowestLoad := by
  have hindex : (s.effect (.onLoop index e)).inFlightCount index =
      ((s.loops index).effect e).registry.gauge := by
    simp [inFlightCount, effect]
  have hother (index' : Fin n) (hne : index' ≠ index) :
      (s.effect (.onLoop index e)).inFlightCount index' = s.inFlightCount index' := by
    simp [inFlightCount, effect, Function.update_of_ne hne]
  have harrivals : (s.effect (.onLoop index e)).arrivals r = s.arrivals r +
      ((s.effect (.onLoop index e)).inFlightCount index - s.inFlightCount index).toNat := by
    rw [hindex]
    rfl
  have hdepartures : (s.effect (.onLoop index e)).departures r = s.departures r +
      (-((s.effect (.onLoop index e)).inFlightCount index - s.inFlightCount index)).toNat := by
    rw [hindex]
    rfl
  by_cases hmoved : (s.effect (.onLoop index e)).inFlightCount index = s.inFlightCount index
  · refine h.congr (funext fun index' => ?_) (by omega) (by omega)
    by_cases hne : index' = index
    · exact hne ▸ hmoved
    · exact hother index' hne
  · refine ⟨h.nonneg, ?_, fun offset hoffset => ?_, fun ha hd => by omega⟩
    · have hchosen := h.chosen
      by_cases hne : chosenIndex = index
      · subst hne
        omega
      · have := hother chosenIndex hne
        omega
    · have hleast := h.least offset hoffset
      show lowestLoad ≤
        (s.effect (.onLoop index e)).inFlightCount (s.candidate scanStart offset) + _
      by_cases hne : s.candidate scanStart offset = index
      · rw [hne] at hleast ⊢
        omega
      · have := hother _ hne
        omega

/-- **One step** keeps what the scans of all calls have found. -/
theorem Scanning.effect {e : Event n} (h : Scanning s) (hsound : ∀ index, (s.loops index).Sound)
    (henabled : enabled s e = true) : Scanning (s.effect e) := by
  have hset {r : RequestId} {pc : PlacePc w n}
      (hnew : ∀ scanStart scanOffset chosenIndex lowestLoad,
        pc = .scanning scanStart scanOffset chosenIndex lowestLoad →
          s.Scanned r scanStart scanOffset chosenIndex lowestLoad) : Scanning (s.setCall r pc) := by
    intro r' scanStart scanOffset chosenIndex lowestLoad hcall
    by_cases hr : r' = r
    · subst hr
      have hpc : pc = .scanning scanStart scanOffset chosenIndex lowestLoad := by
        simpa [setCall] using hcall
      exact (hnew _ _ _ _ hpc).congr rfl rfl rfl
    · exact (h r' _ _ _ _ ((Function.update_of_ne hr ..).symm.trans hcall)).congr rfl rfl rfl
  cases e with
  | fetchAdd r =>
    intro r' scanStart scanOffset chosenIndex lowestLoad hcall
    by_cases hr : r' = r
    · subst hr
      cases (Function.update_self ..).symm.trans hcall
    · refine (h r' _ _ _ _ ((Function.update_of_ne hr ..).symm.trans hcall)).congr rfl ?_ ?_
      · exact Function.update_of_ne hr ..
      · exact Function.update_of_ne hr ..
  | readFirst r =>
    simp only [SharedPool.effect]
    split
    · refine hset fun _ _ _ _ hpc => ?_
      cases hpc
      exact .readFirst hsound
    · exact h
  | readNext r =>
    simp only [SharedPool.effect]
    split
    · next scanStart scanOffset chosenIndex lowestLoad hcall =>
      simp only [enabled, hcall, decide_eq_true_eq] at henabled
      have hnext := (h r _ _ _ _ hcall).readNext hsound henabled.1 henabled.2
      split
      · next hlt =>
        refine hset fun _ _ _ _ hpc => ?_
        cases hpc
        exact hnext.1 hlt
      · next hlt =>
        refine hset fun _ _ _ _ hpc => ?_
        cases hpc
        exact hnext.2 hlt
    · exact h
  | settle r =>
    simp only [SharedPool.effect]
    split
    · exact hset (by rintro _ _ _ _ ⟨⟩)
    · exact h
  | onLoop index e =>
    exact fun r scanStart scanOffset chosenIndex lowestLoad hcall =>
      (h r _ _ _ _ hcall).onLoop index e

/-- On every run the scans of all calls have found what they are to find. -/
theorem scanning (hreach : (system w n).ReachesUnder allowed s) : Scanning s := by
  induction hreach with
  | init h =>
    intro r _ _ _ _ hcall
    cases (h.calls r).symm.trans hcall
  | step hreach _ henabled ih => exact ih.effect (sound hreach) henabled

/-- **Placement is nearly least loaded under any interleaving.** When a call settles on a loop, that
loop carries at most as many more requests than any other as were counted in and out on all loops
during the scan, unless the counter wrapped around; and a call that no such change overlaps with
settles as the sequential scan does. -/
theorem placement_nearly_least (hreach : (system w n).Reaches s) {r : RequestId}
    {scanStart : BitVec w} {scanOffset : ℕ} {chosenIndex : Fin n} {lowestLoad : ℤ}
    (hcall : s.calls r = .scanning scanStart scanOffset chosenIndex lowestLoad)
    (hsettles : enabled s (.settle r) = true) :
    (scanStart.toNat + n ≤ 2 ^ w ∨ lowestLoad = 0 → ∀ index, s.inFlightCount chosenIndex ≤
      s.inFlightCount index + s.arrivals r + s.departures r) ∧
    (s.arrivals r = 0 → s.departures r = 0 →
      chosenIndex = (s.snapshot scanStart).chosenIndex) := by
  have h := scanning hreach r _ _ _ _ hcall
  simp only [enabled, hcall, decide_eq_true_eq] at hsettles
  have hchosen := h.chosen
  constructor
  · intro hrange index
    have hnonneg := inFlightCount_nonneg (sound hreach) index
    rcases hsettles with hall | hzero
    · rcases hrange with hrange | hzero
      · obtain ⟨offset, hoffset, hturn⟩ := Balance.exists_turn scanStart.toNat index.isLt
        have hindex : s.candidate scanStart offset = index := by
          have hread := (s.snapshot scanStart).candidate_val_of_lt hoffset
            (show scanStart.toNat + offset < 2 ^ w by omega)
          exact Fin.ext (hread.trans hturn)
        have hleast := h.least offset (by omega)
        rw [hindex] at hleast
        omega
      · omega
    · omega
  · intro ha hd
    have hrest := h.rest ha hd
    rcases hsettles with hall | hzero
    · simpa [Nat.sub_eq_zero_of_le hall, LoopPool.EventLoopPool.scan] using hrest
    · subst hzero
      cases hrange : List.range' scanOffset (n - scanOffset) with
      | nil => simpa [hrange, LoopPool.EventLoopPool.scan] using hrest
      | cons offset rest => simpa [hrange, LoopPool.EventLoopPool.scan] using hrest

/-- One request on each loop, and one more while a call is between its two reads. -/
def overlappingCalls : List (Event 2) :=
  [.fetchAdd 0, .readFirst 0, .settle 0, .onLoop loopZero (.count 0),
    .fetchAdd 1, .readFirst 1, .settle 1, .onLoop loopOne (.count 1),
    .fetchAdd 2, .readFirst 2, .fetchAdd 3, .readFirst 3, .readNext 3, .settle 3,
    .onLoop loopOne (.count 3), .readNext 2]

/-- The counter does not wrap around while a call scans. -/
def scansInRange (s : SharedPool w n) (r : RequestId) : Bool :=
  match s.calls r with
  | .scanning scanStart _ _ _ => scanStart.toNat + n ≤ 2 ^ w
  | _ => false

/-- Two calls that overlap settle on a loop which carries at most one request more. -/
theorem placement_nearly_least_overlappingCalls :
    ∃ (s : SharedPool 64 2) (chosenIndex : Fin 2), (system 64 2).Reaches s ∧ s.arrivals 2 = 1 ∧
      ∀ index, s.inFlightCount chosenIndex ≤
        s.inFlightCount index + s.arrivals 2 + s.departures 2 := by
  have hexec : (((system 64 2).restrict fun _ _ => true).exec twoLoops overlappingCalls).map
      (fun s => enabled s (.settle 2) && decide (s.arrivals 2 = 1) && s.scansInRange 2) =
      some true := by decide
  obtain ⟨s, hreach, hend⟩ := Transition.System.exists_reaches_of_exec twoLoops_fresh hexec
  simp only [Bool.and_eq_true, decide_eq_true_eq] at hend
  obtain ⟨⟨hsettles, harrivals⟩, hrange⟩ := hend
  cases hcall : s.calls 2 with
  | scanning scanStart scanOffset chosenIndex lowestLoad =>
    simp only [scansInRange, hcall, decide_eq_true_eq] at hrange
    exact ⟨s, chosenIndex, hreach, harrivals,
      (placement_nearly_least hreach hcall hsettles).1 (.inl hrange)⟩
  | _ => simp [enabled, hcall] at hsettles

end SharedPool

end Rayo
