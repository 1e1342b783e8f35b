import Mathlib.Algebra.BigOperators.Group.Finset.Basic
import Mathlib.Algebra.Order.BigOperators.Group.Finset
import Mathlib.Data.Fintype.Card
import Mathlib.Data.Set.Finite.Basic
import Mathlib.Logic.Relation

/-!
# A collector of reference cycles

Reference counting with a collector for cycles. The collector starts from the counts, subtracts the
references that the tracked objects report of each other, and keeps the objects that have some left,
with everything that kept objects report. Nothing says that an object reports all the references it
has: what it does not report seems to come from outside. The other objects are cleared, which frees
them only if their types can be cleared: a cycle of objects that cannot be is found for nothing.
Finalizers that bring an object back to life are left out.
-/

namespace CycleCollector

/-- Objects with references to each other, and references from outside. -/
structure Heap (Obj : Type*) where
  /-- The objects that the collector knows. -/
  tracked : Finset Obj
  /-- How often an object refers to another one. -/
  owns : Obj → Obj → ℕ
  /-- How often an object is referred to from anywhere else. -/
  outside : Obj → ℕ

variable {Obj : Type*} (H : Heap Obj)

/-- The reference count of an object. -/
def refCount (y : Obj) : ℕ := H.outside y + ∑ x ∈ H.tracked, H.owns x y

/-- What is left of the count after the references that `visits` reports have been subtracted. -/
def gcRefs (visits : Obj → Obj → ℕ) (y : Obj) : ℕ :=
  refCount H y - ∑ x ∈ H.tracked, visits x y

/-- No object reports a reference that it does not have. -/
def Honest (visits : Obj → Obj → ℕ) : Prop := ∀ x ∈ H.tracked, ∀ y, visits x y ≤ H.owns x y

/-- The objects that the collector keeps. -/
inductive Kept (visits : Obj → Obj → ℕ) : Obj → Prop
  | root {y : Obj} : y ∈ H.tracked → 0 < gcRefs H visits y → Kept visits y
  | visited {x y : Obj} : Kept visits x → y ∈ H.tracked → 0 < visits x y → Kept visits y

/-- The objects that the collector does not keep. -/
def Found (visits : Obj → Obj → ℕ) (y : Obj) : Prop := y ∈ H.tracked ∧ ¬Kept H visits y

/-- An object keeps its reference to another one when it is cleared. -/
def ClingsTo (clears : Obj → Prop) (x y : Obj) : Prop :=
  x ∈ H.tracked ∧ 0 < H.owns x y ∧ ¬clears x

/-- The objects that a collection frees: those that no reference is left to when all objects that
were found have been cleared and those without a reference to them are gone. -/
inductive Freed (clears : Obj → Prop) (visits : Obj → Obj → ℕ) : Obj → Prop
  | released {y : Obj} : Found H visits y → (∀ x, ClingsTo H clears x y → Freed clears visits x) →
      Freed clears visits y

/-- One object refers to another one that the collector knows. -/
def RefersTo (x y : Obj) : Prop := y ∈ H.tracked ∧ 0 < H.owns x y

/-- The objects in use: those that are referred to from outside, or from objects in use. -/
inductive Live : Obj → Prop
  | root {y : Obj} : y ∈ H.tracked → 0 < H.outside y → Live y
  | owned {x y : Obj} : Live x → y ∈ H.tracked → 0 < H.owns x y → Live y

variable {H} {visits visits' : Obj → Obj → ℕ} {clears : Obj → Prop} {x y : Obj}

/-- What is kept is tracked. -/
theorem Kept.tracked (h : Kept H visits y) : y ∈ H.tracked := by
  cases h with
  | root hy _ => exact hy
  | visited _ hy _ => exact hy

/-- What is in use is tracked. -/
theorem Live.tracked (h : Live H y) : y ∈ H.tracked := by
  cases h with
  | root hy _ => exact hy
  | owned _ hy _ => exact hy

/-- What an object in use refers to, directly or not, is in use. -/
theorem Live.of_reaches (h : Live H x) (hreaches : Relation.ReflTransGen (RefersTo H) x y) :
    Live H y := by
  induction hreaches with
  | refl => exact h
  | tail _ hrefers ih => exact .owned ih hrefers.1 hrefers.2

/-- An object gets at most as many visits as it has references from tracked objects. -/
theorem sum_visits_le (hvisits : Honest H visits) (y : Obj) :
    ∑ x ∈ H.tracked, visits x y ≤ ∑ x ∈ H.tracked, H.owns x y :=
  Finset.sum_le_sum fun x hx => hvisits x hx y

/-- An object that an honest report does not account for is kept. -/
theorem Kept.of_unreported (hhonest : Honest H visits') (hle : ∀ x ∈ H.tracked, ∀ y,
    visits x y ≤ visits' x y) (hx : x ∈ H.tracked) (hy : y ∈ H.tracked)
    (hless : visits x y < visits' x y) : Kept H visits y := by
  refine .root hy ?_
  have hsum : ∑ x ∈ H.tracked, visits x y < ∑ x ∈ H.tracked, visits' x y :=
    Finset.sum_lt_sum (fun z hz => hle z hz y) ⟨x, hx, hless⟩
  have hbound := sum_visits_le hhonest y
  unfold gcRefs refCount
  omega

/-- **Reporting less keeps more.** -/
theorem Kept.mono (hhonest : Honest H visits')
    (hle : ∀ x ∈ H.tracked, ∀ y, visits x y ≤ visits' x y) (h : Kept H visits' y) :
    Kept H visits y := by
  induction h with
  | @root y hy hrefs =>
    have hsum : ∑ x ∈ H.tracked, visits x y ≤ ∑ x ∈ H.tracked, visits' x y :=
      Finset.sum_le_sum fun z hz => hle z hz y
    refine .root hy ?_
    unfold gcRefs at hrefs ⊢
    omega
  | @visited x y hx hy hvisited ih =>
    rcases Nat.eq_or_lt_of_le (hle x hx.tracked y) with heq | hless
    · exact .visited ih hy (by omega)
    · exact .of_unreported hhonest hle hx.tracked hy hless

/-- An object whose references are all reported is kept exactly if it is in use. -/
theorem kept_owns_iff_live : Kept H H.owns y ↔ Live H y := by
  have hrefs (y : Obj) : gcRefs H H.owns y = H.outside y := Nat.add_sub_cancel _ _
  constructor <;> intro h
  · induction h with
    | root hy hpos => exact .root hy (hrefs _ ▸ hpos)
    | visited _ hy hpos ih => exact .owned ih hy hpos
  · induction h with
    | root hy hpos => exact .root hy (hrefs _ ▸ hpos)
    | owned _ hy hpos ih => exact .visited ih hy hpos

/-- **Objects in use are kept**, whatever is not reported. -/
theorem Live.kept (hhonest : Honest H visits) (h : Live H y) : Kept H visits y :=
  (kept_owns_iff_live.mpr h).mono (fun _ _ _ => le_rfl) hhonest

/-- **No collection finds an object in use.** -/
theorem Live.not_found (hhonest : Honest H visits) (h : Live H y) : ¬Found H visits y :=
  fun hfound => hfound.2 (h.kept hhonest)

/-- What is found on an incomplete report is found on a complete one. -/
theorem Found.of_le (hhonest : Honest H visits')
    (hle : ∀ x ∈ H.tracked, ∀ y, visits x y ≤ visits' x y) (h : Found H visits y) :
    Found H visits' y :=
  ⟨h.1, fun hkept => h.2 (hkept.mono hhonest hle)⟩

/-- What refers to an object that is found is found, too. -/
theorem Found.of_owns (hhonest : Honest H visits) (h : Found H visits y) (hx : x ∈ H.tracked)
    (howns : 0 < H.owns x y) : Found H visits x := by
  refine ⟨hx, fun hkept => h.2 ?_⟩
  rcases Nat.eq_zero_or_pos (visits x y) with hzero | hpos
  · have hless : visits x y < H.owns x y := hzero ▸ howns
    exact .of_unreported (fun _ _ _ => le_rfl) hhonest hx h.1 hless
  · exact .visited hkept h.1 hpos

/-- Nothing in use is in a group of objects that only the group refers to. -/
theorem Live.not_mem {group : Finset Obj} (hout : ∀ y ∈ group, H.outside y = 0)
    (hclosed : ∀ y ∈ group, ∀ x ∈ H.tracked, 0 < H.owns x y → x ∈ group) (h : Live H y) :
    y ∉ group := by
  induction h with
  | root _ hpos =>
    intro hy
    rw [hout _ hy] at hpos
    exact absurd hpos (Nat.lt_irrefl 0)
  | owned hx _ hpos ih => exact fun hy => ih (hclosed _ hy _ hx.tracked hpos)

/-- **On a complete report all objects that are not in use are found.** -/
theorem found_owns_iff : Found H H.owns y ↔ y ∈ H.tracked ∧ ¬Live H y :=
  and_congr_right fun _ => not_congr kept_owns_iff_live

/-- What is freed has been found. -/
theorem Freed.found (h : Freed H clears visits y) : Found H visits y := by
  cases h with
  | released hfound _ => exact hfound

/-- What is freed on an incomplete report is freed on a complete one. -/
theorem Freed.of_le (hhonest : Honest H visits')
    (hle : ∀ x ∈ H.tracked, ∀ y, visits x y ≤ visits' x y) (h : Freed H clears visits y) :
    Freed H clears visits' y := by
  induction h with
  | released hfound _ ih => exact .released (hfound.of_le hhonest hle) ih

/-- No cycle of objects that keep their references leads to an object that is freed. -/
theorem Freed.not_cycle (h : Freed H clears visits y) :
    ∀ x, Relation.ReflTransGen (ClingsTo H clears) x y →
      ¬Relation.TransGen (ClingsTo H clears) x x := by
  induction h with
  | @released y _ _ ih =>
    intro x hreaches hcycle
    rcases hreaches.cases_tail with rfl | ⟨z, hxz, hzy⟩
    · -- the last object of the cycle is freed before the one it refers to
      obtain ⟨z, hyz, hzy⟩ := Relation.TransGen.tail'_iff.mp hcycle
      exact ih z hzy _ hyz hcycle
    · exact ih z hzy x hxz hcycle

/-- Everything that leads to an object that is found is found. -/
theorem Found.of_reaches (hhonest : Honest H visits) (h : Found H visits y)
    (hreaches : Relation.ReflTransGen (ClingsTo H clears) x y) : Found H visits x := by
  induction hreaches using Relation.ReflTransGen.head_induction_on with
  | refl => exact h
  | head hclings _ ih => exact ih.of_owns hhonest hclings.1 hclings.2.1

/-- **An object that is found is freed exactly if no cycle of objects that keep their references
leads to it.** -/
theorem freed_iff (hhonest : Honest H visits) : Freed H clears visits y ↔
    Found H visits y ∧ ∀ x, Relation.ReflTransGen (ClingsTo H clears) x y →
      ¬Relation.TransGen (ClingsTo H clears) x x := by
  refine ⟨fun h => ⟨h.found, h.not_cycle⟩, fun ⟨hfound, hacyclic⟩ => ?_⟩
  let Leads := {x // Relation.ReflTransGen (ClingsTo H clears) x y}
  have hfinite : Finite Leads :=
    H.tracked.finite_toSet.subset fun x hx => (hfound.of_reaches hhonest hx).1
  have htrans : IsTrans Leads fun x z => Relation.TransGen (ClingsTo H clears) x.1 z.1 :=
    ⟨fun _ _ _ => Relation.TransGen.trans⟩
  have hirrefl : Std.Irrefl fun x z : Leads => Relation.TransGen (ClingsTo H clears) x.1 z.1 :=
    ⟨fun x => hacyclic x.1 x.2⟩
  have hwf := Finite.wellFounded_of_trans_of_irrefl
    fun x z : Leads => Relation.TransGen (ClingsTo H clears) x.1 z.1
  have hfreed : ∀ x : Leads, Freed H clears visits x.1 := fun x => by
    induction x using hwf.induction with
    | _ x ih =>
      refine .released (hfound.of_reaches hhonest x.2) fun z hzx => ?_
      exact ih ⟨z, .head hzx x.2⟩ (.single hzx)
  exact hfreed ⟨y, .refl⟩

end CycleCollector
