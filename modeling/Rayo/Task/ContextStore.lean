import Rayo.Task.ContextBracket

/-!
# The contexts of a loop

The context variables of all requests of a loop. Each task has a context of its own, which holds
what the task has set there unless other code has set variables in it.
-/

namespace Rayo

open Asyncio

/-- A context variable. -/
abbrev ContextVar := ℕ

/-- What a variable is set to, and the request whose code has set it, if any. -/
structure Entry where
  writer : Option TaskId
  value : Value
  deriving DecidableEq

/-- The variables of one context. -/
abbrev Contents := ContextVar → Option Entry

/-- Nobody has set these variables but `t`, if anyone. -/
def Contents.OnlyBy (t : TaskId) (contents : Contents) : Prop :=
  ∀ x e, contents x = some e → e.writer = none ∨ e.writer = some t

/-- The contexts that exist, and their history. -/
structure ContextStore where
  made : List Value
  contents : Value → Contents
  /-- History: the context that was copied for a task at its start. -/
  built : TaskId → Option Value
  /-- History: what a task found at its start, and what it has set in its own context since. -/
  own : TaskId → Contents
  /-- History: the contexts in which other code has set a variable. -/
  visited : List Value

namespace ContextStore

/-- A new context, made for a handle of the loop. -/
def handle (store : ContextStore) (context : Value) (handed : Contents) : ContextStore :=
  { store with
    made := context :: store.made
    contents := Function.update store.contents context handed }

/-- `PyContext_CopyCurrent`, for a task that starts. -/
def copy (store : ContextStore) (t : TaskId) (current context : Value) : ContextStore :=
  { store with
    made := context :: store.made
    contents := Function.update store.contents context (store.contents current)
    built := Function.update store.built t (some context)
    own := Function.update store.own t (store.contents current) }

/-- `ContextVar.set`, in some context, while the code of `running` has control. -/
def set (store : ContextStore) (running : Option TaskId) (context : Value) (x : ContextVar)
    (e : Entry) : ContextStore :=
  let store' := { store with
    made := store.made.insert context
    contents := Function.update store.contents context
      (Function.update (store.contents context) x (some e)) }
  match running with
  | some t =>
    if store.built t = some context then
      { store' with own := Function.update store.own t (Function.update (store.own t) x (some e)) }
    else { store' with visited := context :: store.visited }
  | none => { store' with visited := context :: store.visited }

/-- Each task has a context of its own, which holds what the task has set there unless other
code has set variables in it. -/
structure Separate (store : ContextStore) : Prop where
  made : ∀ t context, store.built t = some context → context ∈ store.made
  distinct : ∀ t t' context, store.built t = some context → store.built t' = some context → t = t'
  faithful : ∀ t context, store.built t = some context → context ∉ store.visited →
    store.contents context = store.own t
  onlyBy : ∀ t context, store.built t = some context → (store.own t).OnlyBy t

variable {store : ContextStore} {t : TaskId} {context current : Value}

/-- A variable that is set does not change whose context is whose. -/
theorem set_built (running : Option TaskId) (x : ContextVar) (e : Entry) :
    (store.set running context x e).built = store.built := by
  cases running with
  | none => rfl
  | some t =>
    simp only [set]
    split <;> rfl

/-- The context in which a variable is set is one that has been made. -/
theorem set_made (running : Option TaskId) (x : ContextVar) (e : Entry) :
    (store.set running context x e).made = store.made.insert context := by
  cases running with
  | none => rfl
  | some t =>
    simp only [set]
    split <;> rfl

/-- A variable that is set changes one variable of one context. -/
theorem set_contents (running : Option TaskId) (x : ContextVar) (e : Entry) :
    (store.set running context x e).contents = Function.update store.contents context
      (Function.update (store.contents context) x (some e)) := by
  cases running with
  | none => rfl
  | some t =>
    simp only [set]
    split <;> rfl

/-- The context of a callback is separate if it is new. -/
theorem Separate.handle (h : store.Separate) (hnew : context ∉ store.made) (handed : Contents) :
    (store.handle context handed).Separate where
  made t c hbuilt := List.mem_cons_of_mem _ (h.made t c hbuilt)
  distinct := h.distinct
  faithful t c hbuilt hvisited := by
    have hne : c ≠ context := fun heq => hnew (heq ▸ h.made t c hbuilt)
    exact (Function.update_of_ne hne _ _).trans (h.faithful t c hbuilt hvisited)
  onlyBy := h.onlyBy

/-- The copy for a task is separate if it is new and what it copies is its own. -/
theorem Separate.copy (h : store.Separate) (hnew : context ∉ store.made)
    (hcurrent : (store.contents current).OnlyBy t) :
    (store.copy t current context).Separate := by
  have hself : (store.copy t current context).built t = some context := Function.update_self _ _ _
  have hother {t' : TaskId} (ht : t' ≠ t) :
      (store.copy t current context).built t' = store.built t' := Function.update_of_ne ht _ _
  have hold {t' : TaskId} {c : Value} (hbuilt : store.built t' = some c) : c ≠ context :=
    fun heq => hnew (heq ▸ h.made t' c hbuilt)
  refine ⟨fun t' c hbuilt => ?_, fun t₁ t₂ c h₁ h₂ => ?_, fun t' c hbuilt hvisited => ?_,
    fun t' c hbuilt => ?_⟩
  · by_cases ht : t' = t
    · rw [ht, hself, Option.some.injEq] at hbuilt
      exact hbuilt ▸ List.mem_cons_self
    · rw [hother ht] at hbuilt
      exact List.mem_cons_of_mem _ (h.made t' c hbuilt)
  · by_cases ht₁ : t₁ = t <;> by_cases ht₂ : t₂ = t
    · rw [ht₁, ht₂]
    · rw [ht₁, hself, Option.some.injEq] at h₁
      rw [hother ht₂] at h₂
      exact absurd h₁.symm (hold h₂)
    · rw [ht₂, hself, Option.some.injEq] at h₂
      rw [hother ht₁] at h₁
      exact absurd h₂.symm (hold h₁)
    · rw [hother ht₁] at h₁
      rw [hother ht₂] at h₂
      exact h.distinct t₁ t₂ c h₁ h₂
  · by_cases ht : t' = t
    · rw [ht, hself, Option.some.injEq] at hbuilt
      simp [ContextStore.copy, ht, ← hbuilt]
    · rw [hother ht] at hbuilt
      simpa [ContextStore.copy, ht, hold hbuilt] using h.faithful t' c hbuilt hvisited
  · by_cases ht : t' = t
    · subst ht
      simpa [ContextStore.copy] using hcurrent
    · rw [hother ht] at hbuilt
      simpa [ContextStore.copy, ht] using h.onlyBy t' c hbuilt

/-- Setting a variable in the context of the task that runs. -/
theorem Separate.set_own (h : store.Separate) (hbuilt : store.built t = some context)
    (x : ContextVar) (value : Value) :
    (store.set (some t) context x ⟨some t, value⟩).Separate := by
  have hset : store.set (some t) context x ⟨some t, value⟩ = { store with
      made := store.made.insert context
      contents := Function.update store.contents context
        (Function.update (store.contents context) x (some ⟨some t, value⟩))
      own := Function.update store.own t
        (Function.update (store.own t) x (some ⟨some t, value⟩)) } := by
    simp [ContextStore.set, hbuilt]
  rw [hset]
  refine ⟨fun t' c hc => ?_, h.distinct, fun t' c hc hvisited => ?_, fun t' c hc => ?_⟩
  · exact List.mem_insert_of_mem (h.made t' c hc)
  · by_cases ht : t' = t
    · subst ht
      obtain rfl : context = c := Option.some.inj (hbuilt.symm.trans hc)
      simp [h.faithful t' context hc hvisited]
    · have hne : c ≠ context := fun heq => ht (h.distinct t' t context (heq ▸ hc) hbuilt)
      simpa [hne, ht] using h.faithful t' c hc hvisited
  · by_cases ht : t' = t
    · subst ht
      intro y e he
      by_cases hy : y = x
      · simp only [Function.update_self, hy, Option.some.injEq] at he
        exact .inr (he ▸ rfl)
      · simp only [Function.update_self, Function.update_of_ne hy] at he
        exact h.onlyBy t' c hc y e he
    · simpa [ht] using h.onlyBy t' c hc

/-- Setting a variable in any other context. -/
theorem Separate.set_other (h : store.Separate) {running : Option TaskId}
    (hother : ∀ t, running = some t → store.built t ≠ some context) (x : ContextVar) (e : Entry) :
    (store.set running context x e).Separate := by
  have hset : store.set running context x e = { store with
      made := store.made.insert context
      contents := Function.update store.contents context
        (Function.update (store.contents context) x (some e))
      visited := context :: store.visited } := by
    cases running with
    | none => rfl
    | some t => simp [ContextStore.set, hother t rfl]
  rw [hset]
  refine ⟨fun t' c hc => ?_, h.distinct, fun t' c hc hvisited => ?_, h.onlyBy⟩
  · exact List.mem_insert_of_mem (h.made t' c hc)
  · simp only [List.mem_cons, not_or] at hvisited
    simpa [hvisited.1] using h.faithful t' c hc hvisited.2

end ContextStore

end Rayo
