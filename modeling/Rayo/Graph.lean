import Mathlib.Data.Fintype.Card
import Mathlib.Data.Finite.Prod
import Mathlib.Order.WellFounded
import Mathlib.Order.RelClasses
import Mathlib.Logic.Relation

/-!
# Graphs without reachable cycles

A search that goes down the edges of a graph ends exactly if it meets no node again below
itself. The nodes that the search does not reach may lie on cycles.
-/

open Relation

variable {α : Type*} {r : α → α → Prop} {a : α}

/-- No node that is reached from `a` is reached from itself. -/
def AcyclicFrom (r : α → α → Prop) (a : α) : Prop :=
  ∀ b, ReflTransGen r a b → ¬ TransGen r b b

/-- What holds of a node whenever it holds of the ends of its edges holds at the start of a search
without cycles. -/
theorem AcyclicFrom.induction [Finite α] (h : AcyclicFrom r a) {p : α → Prop}
    (step : ∀ x, (∀ y, r x y → p y) → p x) : p a := by
  let below (x y : {b // ReflTransGen r a b}) : Prop := TransGen r y.1 x.1
  have htrans : IsTrans _ below := ⟨fun _ _ _ hxy hyz => TransGen.trans hyz hxy⟩
  have hirrefl : Std.Irrefl below := ⟨fun x => h x.1 x.2⟩
  have hwf : WellFounded below := Finite.wellFounded_of_trans_of_irrefl below
  have hall (x : {b // ReflTransGen r a b}) : p x.1 := by
    induction x using hwf.induction with
    | _ x ih =>
      apply step
      intro y hy
      exact ih ⟨y, x.2.tail hy⟩ (.single hy)
  exact hall ⟨a, .refl⟩

/-- A bound that gets smaller along every edge is never found on a cycle. -/
theorem acyclicFrom_of_bound {bounded : ℕ → α → Prop}
    (step : ∀ n x y, bounded n x → r x y → ∃ m < n, bounded m y) {n : ℕ} (h : bounded n a) :
    AcyclicFrom r a := by
  have hpath {x y : α} (hxy : TransGen r x y) (n : ℕ) (hx : bounded n x) :
      ∃ m < n, bounded m y := by
    induction hxy with
    | single hedge => exact step _ _ _ hx hedge
    | tail _ hedge ih =>
      obtain ⟨m, hm, hy⟩ := ih
      obtain ⟨k, hk, hz⟩ := step _ _ _ hy hedge
      exact ⟨k, by omega, hz⟩
  intro b hb hcycle
  have hreached : ∃ m, bounded m b := by
    rcases reflTransGen_iff_eq_or_transGen.mp hb with rfl | hb
    · exact ⟨n, h⟩
    · obtain ⟨m, -, hm⟩ := hpath hb n h
      exact ⟨m, hm⟩
  obtain ⟨m, hm⟩ := hreached
  have hnever (m : ℕ) : ¬ bounded m b := by
    induction m using Nat.strong_induction_on with
    | _ m ih =>
      intro hm
      obtain ⟨k, hk, hb⟩ := hpath hcycle m hm
      exact ih k hk hb
  exact hnever m hm
