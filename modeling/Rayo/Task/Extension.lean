import Rayo.Task.Footprint
import Rayo.Task.Undecided

/-!
# What has been said stays true

The loop goes on, and what a coroutine has been told of futures and cancellations is not taken
back: a future that is done stays as it is, and the log only grows.
-/

namespace Rayo

open Asyncio Asyncio.World HandlerTask

/-- A call of `cancel` on the task has come back. -/
def Asked {ρ : Type} (w : World ρ) (t : TaskId) : Prop :=
  ∃ reply, .cancelReturned t reply ∈ w.log

/-- Nothing that a coroutine may have been told has been taken back. -/
structure Extends {ρ : Type} (w w' : World ρ) : Prop where
  loop : w'.loop = w.loop
  futureLoop : ∀ f, (w'.futures f).loop = (w.futures f).loop
  status : ∀ f, (w.futures f).status ≠ .pending → (w'.futures f).status = (w.futures f).status
  log : w.log ⊆ w'.log
  wake : ∀ t f, .wake t f ∈ w'.ready → .wake t f ∈ w.ready ∨ (w'.futures f).status ≠ .pending

/-- The callbacks of a future are called when it is done. -/
def Fired {ρ : Type} (w : World ρ) : Prop :=
  ∀ t f, .wake t f ∈ w.ready → (w.futures f).status ≠ .pending

namespace Extends

variable {ρ : Type} {w w' w'' : World ρ}

/-- What a coroutine may have been told stays where nothing happens. -/
theorem refl (w : World ρ) : Extends w w :=
  ⟨rfl, fun _ => rfl, fun _ _ => rfl, List.Subset.refl _, fun _ _ h => .inl h⟩

/-- Two steps that take nothing back take nothing back together. -/
theorem trans (h : Extends w w') (h' : Extends w' w'') : Extends w w'' where
  loop := h'.loop.trans h.loop
  futureLoop f := (h'.futureLoop f).trans (h.futureLoop f)
  status f hdone := by
    have hsame := h.status f hdone
    rw [h'.status f (hsame ▸ hdone), hsame]
  log := List.Subset.trans h.log h'.log
  wake t f hmem := by
    rcases h'.wake t f hmem with hmem' | hdone
    · rcases h.wake t f hmem' with hold | hdone
      · exact .inl hold
      · exact .inr (by rwa [h'.status f hdone])
    · exact .inr hdone

/-- A cancellation that was asked for stays so. -/
theorem asked {t : TaskId} (h : Extends w w') (hasked : Asked w t) : Asked w' t :=
  hasked.imp fun _ hmem => h.log hmem

/-- The callbacks of a future that is done stay called. -/
theorem fired (h : Extends w w') (hfired : Fired w) : Fired w' := by
  intro t f hmem
  rcases h.wake t f hmem with hold | hdone
  · have hdone := hfired t f hold
    rwa [h.status f hdone]
  · exact hdone

/-- The futures are the same, and no new wake-up is queued. -/
theorem of_eq (hloop : w'.loop = w.loop) (hfutures : w'.futures = w.futures)
    (hlog : w.log ⊆ w'.log) (hwake : ∀ t f, .wake t f ∈ w'.ready → .wake t f ∈ w.ready) :
    Extends w w' :=
  ⟨hloop, fun f => by rw [hfutures], fun f _ => by rw [hfutures], hlog,
    fun t f hmem => .inl (hwake t f hmem)⟩

/-- An observation takes nothing back. -/
theorem note (o : Observation) : Extends w (w.note o) :=
  .of_eq rfl rfl (List.subset_cons_self _ _) fun _ _ => id

/-- A queued handle takes nothing back unless it wakes a task. -/
theorem callSoon {h : Handle} (hwake : ∀ t f, h ≠ .wake t f) : Extends w (w.callSoon h) :=
  .of_eq rfl rfl (List.Subset.refl _) fun t f hmem => by
    simpa [World.callSoon, Ne.symm (hwake t f)] using hmem

/-- A future that stays done takes nothing back. -/
theorem setFuture {f : FutureId} {future : Future} (hloop : future.loop = (w.futures f).loop)
    (hstatus : (w.futures f).status ≠ .pending → future.status = (w.futures f).status) :
    Extends w (w.setFuture f future) := by
  refine ⟨rfl, fun f' => ?_, fun f' hdone => ?_, List.Subset.refl _, fun _ _ => .inl⟩ <;>
    by_cases hf : f' = f
  · simp [World.setFuture, hf, hloop]
  · simp [World.setFuture, hf]
  · subst hf
    simpa [World.setFuture] using hstatus hdone
  · simp [World.setFuture, hf]

/-- A pending future that is done takes nothing back. -/
theorem complete {f : FutureId} {status : Status} (hpending : (w.futures f).status = .pending)
    (hstatus : status ≠ .pending) : Extends w (w.complete f status) := by
  have hset : Extends w (w.setFuture f { w.futures f with status := status, callbacks := [] }) :=
    setFuture rfl fun hdone => absurd hpending hdone
  refine ⟨rfl, hset.futureLoop, hset.status, List.Subset.refl _, fun t f' hmem => ?_⟩
  simp only [World.complete, List.mem_append, List.mem_map, Handle.wake.injEq] at hmem
  rcases hmem with hold | ⟨t', -, -, rfl⟩
  · exact .inl hold
  · exact .inr (by simpa [World.complete, World.setFuture] using hstatus)

/-- A callback on a future takes nothing back. -/
theorem addDoneCallback (f : FutureId) (t : TaskId) : Extends w (w.addDoneCallback f t) := by
  unfold World.addDoneCallback
  split
  · exact setFuture rfl fun _ => rfl
  · next hdone =>
    refine ⟨rfl, fun _ => rfl, fun _ _ => rfl, List.Subset.refl _, fun t' f' hmem => ?_⟩
    simp only [World.callSoon, List.mem_append, List.mem_singleton, Handle.wake.injEq] at hmem
    rcases hmem with hold | ⟨-, rfl⟩
    · exact .inl hold
    · exact .inr hdone

/-- A cancelled future takes nothing back. -/
theorem cancelFuture (f : FutureId) (message : Option Value) :
    Extends w (w.cancelFuture f message) := by
  unfold World.cancelFuture
  split
  · next h => exact complete h.1 (by simp)
  · exact .refl w

/-- The cancellation of an awaited future takes nothing back. -/
theorem cancelAwaited (t : TaskId) (f : FutureId) (message : Option Value) :
    Extends w (w.cancelAwaited t f message) :=
  (cancelFuture f message).trans (note _)

end Extends

/-- Nothing that a task does takes back what a coroutine has been told. -/
theorem extends_footprint : FullFootprint (Extends (ρ := LoopHandles)) where
  trans := Extends.trans
  elsewhere hloop hfutures hready hlog _ :=
    .of_eq hloop hfutures (by rw [hlog]; exact List.Subset.refl _) fun t f => by
      rw [hready]
      exact id
  note _ o _ := .note o
  step _ o _ := .note o
  callSoon _ _ := .callSoon
  setBlocking _ _ _ := .setFuture rfl fun _ => rfl
  addDoneCallback _ f t := .addDoneCallback f t
  cancelFuture _ f message := .cancelFuture f message

end Rayo
