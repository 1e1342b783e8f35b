import Mathlib.Data.List.Infix
import Rayo.Transition

/-!
# Queues that are served in order

A system whose events either serve the oldest entry of a queue or leave the entries of the queue
where they are. New entries are only added at the end. However the events interleave, each entry is
then served after exactly those that were in front of it.
-/

namespace Transition

variable {State Event α : Type*}

/-- The events that `serves` accepts take the oldest entry from the queue. Nothing else leaves it,
and what is new stands at its end. -/
structure System.Fifo (S : System State Event) (queue : State → List α)
    (serves : Event → Bool) : Prop where
  serve : ∀ s e, S.enabled s e = true → serves e = true →
    ∃ oldest rest, queue s = oldest :: rest ∧ rest <+: queue (S.effect s e)
  keep : ∀ s e, S.enabled s e = true → serves e = false → queue s <+: queue (S.effect s e)

variable {S : System State Event} {queue : State → List α} {serves : Event → Bool}
  {s s' : State} {es : List Event}

/-- A run can be taken apart. -/
theorem System.exec_split {es' : List Event} (hexec : S.exec s (es ++ es') = some s') :
    ∃ s₁, S.exec s es = some s₁ ∧ S.exec s₁ es' = some s' := by
  induction es generalizing s with
  | nil => exact ⟨s, rfl, hexec⟩
  | cons e es ih =>
    simp only [List.cons_append, System.exec, Option.ite_none_right_eq_some] at hexec
    obtain ⟨s₁, hs₁, hrest⟩ := ih hexec.2
    exact ⟨s₁, by simp [System.exec, hexec.1, hs₁], hrest⟩

namespace System.Fifo

/-- After `n` servings the entries behind the first `n` are still there, in their order. -/
theorem drop_prefix (h : S.Fifo queue serves) (hexec : S.exec s es = some s') :
    (queue s).drop (es.countP serves) <+: queue s' := by
  induction es generalizing s with
  | nil =>
    simp only [System.exec, Option.some.injEq] at hexec
    simp [hexec]
  | cons e es ih =>
    simp only [System.exec, Option.ite_none_right_eq_some] at hexec
    obtain ⟨henabled, hexec⟩ := hexec
    have hrest := ih hexec
    cases hserves : serves e with
    | true =>
      obtain ⟨oldest, rest, hqueue, hfollow⟩ := h.serve s e henabled hserves
      rw [List.countP_cons_of_pos hserves, hqueue, List.drop_succ_cons]
      exact (hfollow.drop _).trans hrest
    | false =>
      rw [List.countP_cons_of_neg (by simp [hserves])]
      exact ((h.keep s e henabled hserves).drop _).trans hrest

private theorem exists_split_of_lt_countP {p : Event → Bool} {i : ℕ} {es : List Event}
    (hi : i < es.countP p) :
    ∃ es₁ e es₂, es = es₁ ++ e :: es₂ ∧ p e = true ∧ es₁.countP p = i := by
  induction es generalizing i with
  | nil => simp at hi
  | cons e es ih =>
    cases hp : p e with
    | true =>
      rw [List.countP_cons_of_pos hp] at hi
      cases i with
      | zero => exact ⟨[], e, es, rfl, hp, rfl⟩
      | succ i =>
        have hrest : i < es.countP p := by omega
        obtain ⟨es₁, e', es₂, rfl, hp', hcount⟩ := ih hrest
        exact ⟨e :: es₁, e', es₂, rfl, hp', by rw [List.countP_cons_of_pos hp, hcount]⟩
    | false =>
      rw [List.countP_cons_of_neg (by simp [hp])] at hi
      obtain ⟨es₁, e', es₂, rfl, hp', hcount⟩ := ih hi
      exact ⟨e :: es₁, e', es₂, rfl, hp', by rw [List.countP_cons_of_neg (by simp [hp]), hcount]⟩

/-- **Served in order.** An entry with `i` entries in front of it is what the serving after `i`
others takes. -/
theorem served (h : S.Fifo queue serves) (hexec : S.exec s es = some s') {i : ℕ} {entry : α}
    (hentry : (queue s)[i]? = some entry) (hi : i < es.countP serves) :
    ∃ es₁ e es₂ s₁, es = es₁ ++ e :: es₂ ∧ serves e = true ∧ es₁.countP serves = i ∧
      S.exec s es₁ = some s₁ ∧ S.enabled s₁ e = true ∧ (queue s₁).head? = some entry := by
  obtain ⟨es₁, e, es₂, rfl, hserves, hcount⟩ := exists_split_of_lt_countP hi
  obtain ⟨s₁, hs₁, hrest⟩ := S.exec_split hexec
  simp only [System.exec, Option.ite_none_right_eq_some] at hrest
  obtain ⟨rest, hqueue⟩ := h.drop_prefix hs₁
  rw [hcount] at hqueue
  refine ⟨es₁, e, es₂, s₁, rfl, hserves, hcount, hs₁, hrest.1, ?_⟩
  have hhead : ((queue s).drop i).head? = some entry := by rw [List.head?_drop, hentry]
  rw [← hqueue, List.head?_append, hhead]
  rfl

end System.Fifo

end Transition
