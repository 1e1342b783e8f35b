import Rayo.Task.TaskAddress

/-!
# The map of live tasks in every run

Whatever addresses new tasks get, the map has the live tasks at their addresses, no two tasks that
have not been freed share one, and a task that something holds has not been freed.
-/

namespace Rayo

open Asyncio HandlerTask

namespace Registries

variable {respond : Value → HandlerResponse} {s : Registries} {e : Lifecycle.Event} {t : TaskId}

/-- A new task gets an address of its own. -/
theorem Addressed.create (h : Addressed s) {address : ℕ}
    (henabled : Lifecycle.enabled respond s.base (.create t) = true)
    (hcounted : Counted s (.create t address)) :
    Addressed (effect respond s (.create t address)) := by
  have hnone : s.base.loop.tasks t = none := by
    simp only [Lifecycle.enabled, Bool.and_eq_true, Option.isNone_iff_eq_none] at henabled
    exact henabled.1
  have hunfreed : t ∉ s.freed := fun hmem => by simpa [hnone] using h.freed t hmem
  have htasks {t' : TaskId} (ht : t' ≠ t) :
      (effect respond s (.create t address)).base.loop.tasks t' = s.base.loop.tasks t' :=
    Function.update_of_ne ht ..
  have haddress {t' : TaskId} (ht : t' ≠ t) :
      (effect respond s (.create t address)).address t' = s.address t' :=
    Function.update_of_ne ht ..
  have hself : (effect respond s (.create t address)).address t = address :=
    Function.update_self ..
  constructor
  · exact h.sound.effect henabled
  · intro t' hheld
    rcases held_before h.sound henabled hheld with hbefore | hcreate | huses
    · exact h.held t' hbefore
    · obtain rfl : t = t' := Lifecycle.Event.create.inj hcreate
      exact hunfreed
    · cases huses
  · intro t' hfreed
    have ht : t' ≠ t := fun heq => hunfreed (heq ▸ hfreed)
    rw [htasks ht]
    exact h.freed t' hfreed
  · intro t₁ t₂ hsome₁ hfreed₁ hsome₂ hfreed₂ hsame
    by_cases h₁ : t₁ = t <;> by_cases h₂ : t₂ = t
    · rw [h₁, h₂]
    · subst h₁
      rw [hself, haddress h₂] at hsame
      rw [htasks h₂] at hsome₂
      exact absurd hsame.symm (hcounted t₂ hsome₂ hfreed₂)
    · subst h₂
      rw [hself, haddress h₁] at hsame
      rw [htasks h₁] at hsome₁
      exact absurd hsame (hcounted t₁ hsome₁ hfreed₁)
    · rw [haddress h₁, haddress h₂] at hsame
      rw [htasks h₁] at hsome₁
      rw [htasks h₂] at hsome₂
      exact h.apart t₁ t₂ hsome₁ hfreed₁ hsome₂ hfreed₂ hsame
  · intro a t'
    have hlive : t' ∈ (effect respond s (.create t address)).base.live ↔
        t' = t ∨ t' ∈ s.base.live := List.mem_insert_iff
    by_cases ht : t' = t
    · subst ht
      rw [hself, hlive]
      by_cases ha : a = address
      · subst ha
        simp [effect]
      · have hentry : (effect respond s (.create t' address)).entries a = s.entries a :=
          Function.update_of_ne ha ..
        rw [hentry, h.entries]
        refine ⟨fun hbefore => ?_, fun hnow => absurd hnow.2.symm ha⟩
        have hsome := h.sound.tidy.live_task t' hbefore.1
        simp [hnone] at hsome
    · rw [haddress ht, hlive]
      by_cases ha : a = address
      · subst ha
        have hentry : (effect respond s (.create t a)).entries a = some t :=
          Function.update_self ..
        rw [hentry]
        refine ⟨fun heq => absurd (Option.some.inj heq).symm ht, fun hnow => ?_⟩
        have hmem := hnow.1.resolve_left ht
        have hsome := h.sound.tidy.live_task t' hmem
        exact absurd hnow.2 (hcounted t' hsome (h.held t' (.inl (decide_eq_true hmem))))
      · have hentry : (effect respond s (.create t address)).entries a = s.entries a :=
          Function.update_of_ne ha ..
        rw [hentry, h.entries]
        simp [ht]

/-- A task that nothing holds gives its address back. -/
theorem Addressed.free (h : Addressed s) (henabled : enabled respond s (.free t) = true)
    (hcounted : Counted s (.free t)) : Addressed (effect respond s (.free t)) := by
  have hsome : (s.base.loop.tasks t).isSome = true := by
    simp only [enabled, Bool.and_eq_true] at henabled
    exact henabled.1
  have hbefore {t' : TaskId} (ht : t' ∉ (effect respond s (.free t)).freed) : t' ∉ s.freed :=
    fun hmem => ht (List.mem_cons_of_mem _ hmem)
  refine ⟨h.sound, fun t' hheld hfreed => ?_, fun t' hfreed => ?_, ?_, h.entries⟩
  · rcases List.mem_cons.mp hfreed with rfl | hmem
    · exact hcounted hheld
    · exact h.held t' hheld hmem
  · rcases List.mem_cons.mp hfreed with rfl | hmem
    · exact hsome
    · exact h.freed t' hmem
  · intro t₁ t₂ hsome₁ hfreed₁ hsome₂ hfreed₂
    exact h.apart t₁ t₂ hsome₁ (hbefore hfreed₁) hsome₂ (hbefore hfreed₂)

/-- An event but a creation leaves the map with the live tasks at their addresses. -/
theorem Addressed.entries_other (h : Addressed s) {e : Lifecycle.Event}
    (henabled : Lifecycle.enabled respond s.base e = true) (hcreate : ∀ t, e ≠ .create t)
    (address : ℕ) (t : TaskId) :
    s.entriesAfter e address = some t ↔
      t ∈ (Lifecycle.effect respond s.base e).live ∧ s.address t = address := by
  by_cases hdrain : ∃ c order, e = .drain c order
  · obtain ⟨c, order, rfl⟩ := hdrain
    simp [entriesAfter, Lifecycle.live, Lifecycle.effect, Lifecycle.setStop, Lifecycle.setWorld]
  · have hdrain : ∀ c order, e ≠ .drain c order := fun c order he => hdrain ⟨c, order, he⟩
    rw [live_after h.sound henabled (hcreate t) hdrain]
    have hentries : s.entriesAfter e = (removed s.base e).elim s.entries fun t =>
        Function.update s.entries (s.address t) none := by
      cases e with
      | drain c order => exact absurd rfl (hdrain c order)
      | _ =>
        simp only [entriesAfter]
        cases removed s.base _ <;> rfl
    rw [hentries]
    cases hremoved : removed s.base e with
    | none => simp [h.entries]
    | some gone =>
      have hheld := removed_held h.sound henabled hremoved
      have hsome : (s.base.loop.tasks gone).isSome = true :=
        hheld.task_isSome (h.sound.placed gone)
      by_cases haddress : address = s.address gone
      · subst haddress
        simp only [Option.elim_some, Function.update_self, reduceCtorEq, false_iff]
        rintro ⟨⟨hlive, hne⟩, hsame⟩
        have htask := h.sound.tidy.live_task t hlive
        have hunfreed := h.held t (.inl (decide_eq_true hlive))
        exact hne (congrArg some
          (h.apart _ _ hsome (h.held _ hheld) htask hunfreed hsame.symm))
      · simp only [Option.elim_some, Function.update_of_ne haddress, h.entries]
        constructor
        · rintro ⟨hlive, rfl⟩
          refine ⟨⟨hlive, ?_⟩, rfl⟩
          rintro ⟨⟩
          exact haddress rfl
        · rintro ⟨⟨hlive, -⟩, hsame⟩
          exact ⟨hlive, hsame⟩

/-- An event on tasks that are there keeps the map and the addresses in step. -/
theorem Addressed.other (h : Addressed s) {e : Lifecycle.Event}
    (henabled : Lifecycle.enabled respond s.base e = true) (hcreate : ∀ t, e ≠ .create t)
    (hcounted : Counted s (.other e)) : Addressed (effect respond s (.other e)) := by
  refine ⟨h.sound.effect henabled, fun t hheld => ?_, fun t hfreed => ?_, ?_,
    h.entries_other henabled hcreate⟩
  · rcases held_before h.sound henabled hheld with hbefore | he | huses
    · exact h.held t hbefore
    · exact absurd he (hcreate t)
    · exact hcounted t huses
  · exact (task_after h.sound henabled (hcreate t)).mpr (h.freed t hfreed)
  · intro t₁ t₂ hsome₁ hfreed₁ hsome₂ hfreed₂ hsame
    exact h.apart t₁ t₂ ((task_after h.sound henabled (hcreate t₁)).mp hsome₁) hfreed₁
      ((task_after h.sound henabled (hcreate t₂)).mp hsome₂) hfreed₂ hsame

/-- An event that is enabled as such creates no task. -/
theorem enabled_other {e : Lifecycle.Event} (henabled : enabled respond s (.other e) = true) :
    Lifecycle.enabled respond s.base e = true ∧ ∀ t, e ≠ .create t := by
  cases e with
  | create t => cases henabled
  | _ => exact ⟨henabled, by rintro _ ⟨⟩⟩

/-- **One step** keeps the map and the addresses in step with the tasks. -/
theorem Addressed.effect {e : Event} (h : Addressed s) (hcounted : Counted s e)
    (henabled : enabled respond s e = true) : Addressed (effect respond s e) := by
  cases e with
  | create t address => exact h.create henabled hcounted
  | free t => exact h.free henabled hcounted
  | other e =>
    obtain ⟨hbase, hcreate⟩ := enabled_other henabled
    exact h.other hbase hcreate hcounted

/-- Fresh registries are in step with the tasks. -/
theorem Fresh.addressed (h : Fresh respond s) : Addressed s := by
  have hnone (t : TaskId) : s.base.loop.tasks t = none := h.base.loop.tasks t
  refine ⟨h.base.sound, fun t _ => by simp [h.freed], fun t ht => by simp [h.freed] at ht, ?_, ?_⟩
  · intro t₁ t₂ hsome
    simp [hnone] at hsome
  · intro address t
    have hlive : s.base.live = [] := by
      rw [Lifecycle.live, h.base.loop.shared]
      rfl
    simp [h.entries, hlive]

end Registries

end Rayo
