import Rayo.Server.ResponseMeaning
import Rayo.Task.Fairness

/-!
# Client disconnects

When a client is gone, Hyper drops the response future and with it the `DispatchedRequest`, which
posts a call of `cancel` to the loop of the request. The loop runs what was posted to it in order,
so that the call is neither lost nor overtaken, whatever else goes on.
-/

namespace Rayo.Site

open Asyncio HandlerTask

variable {m : Matchit} {F Point : Type} {n : ℕ} {app : Application m F Point}
  {values : Fin n → FutureId → Value} {s s' : Site Point n} {r : TaskId}

/-- The loop `i` runs a handle. -/
def runsOn (i : Fin n) : Event n → Bool
  | .onLoop j (.run _) => j = i
  | _ => false

/-- What runs a handle on a loop is its `run`. -/
theorem eq_run_of_runsOn {i : Fin n} {e : Event n} (h : runsOn i e = true) :
    ∃ faults, e = .onLoop i (.run faults) := by
  cases e with
  | onLoop j e =>
    cases e with
    | run faults => exact ⟨faults, by rw [show j = i by simpa [runsOn] using h]⟩
    | build | execute | close | act => cases h
  | receive | syncEnds | syncPanics | respond | disconnect | stop | strand => cases h

/-- The handles of a loop. -/
def queue (i : Fin n) (s : Site Point n) : List Handle := (s.loops i).loop.world.ready

/-- A coroutine that goes on only adds handles at the end of the queue. -/
theorem queues_serving {i : Fin n} {e : Serving.Event} (hruns : ∀ faults, e ≠ .run faults) :
    Queues (s.loops i).loop.world
      ((servingSystem app values i).effect (s.loops i) e).loop.world := by
  refine Serving.effect_keeps (I := fun loop => Queues (s.loops i).loop.world loop.world)
    (fun loop e' hperforms h => queues_footprint.trans h ?_) List.prefix_rfl
  cases e' with
  | act a => exact queues_footprint.act a
  | resume faults input => exact queues_footprint.resumeRunning input
  | run faults =>
    cases e <;> simp [Serving.Event.Performs] at hperforms
    exact absurd rfl (hruns _)

/-- A loop that runs a handle takes the oldest one. -/
theorem run_loop {i : Fin n} {faults : Faults} {oldest : Handle} {rest : List Handle}
    (hready : queue i s = oldest :: rest) :
    ((effect app values s (.onLoop i (.run faults))).loops i).loop =
      Loop.runHandle (driver (respondTo app)) faults
        { (s.loops i).loop with world := { (s.loops i).loop.world with ready := rest } }
        oldest := by
  simp only [queue] at hready
  simp [effect, onLoop, Serving.effect, Loop.effect, hready]

/-- The queue of a loop is served in order, whatever the other loops and the clients do. -/
theorem queue_fifo (i : Fin n) : (system app values).Fifo (queue i) (runsOn i) where
  serve s e henabled hruns := by
    obtain ⟨faults, rfl⟩ := eq_run_of_runsOn hruns
    simp only [system, enabled, Serving.Event.probe, Loop.enabled, Bool.and_eq_true] at henabled
    cases hready : queue i s with
    | nil =>
      simp only [queue] at hready
      simp [hready] at henabled
    | cons oldest rest =>
      refine ⟨oldest, rest, rfl, ?_⟩
      simp only [system]
      rw [queue, run_loop hready]
      exact queues_footprint.runHandle oldest
        (s := { (s.loops i).loop with world := { (s.loops i).loop.world with ready := rest } })
  keep s e _ hruns := by
    simp only [system, queue]
    rw [effect_loops]
    cases hevent : loopEvent app s e with
    | none => exact List.prefix_rfl
    | some event =>
      obtain ⟨j, e'⟩ := event
      dsimp only
      rcases eq_or_ne i j with rfl | hne
      · rw [onLoop_loops_self]
        refine queues_serving fun faults => ?_
        rintro rfl
        cases e with
        | onLoop j e =>
          obtain ⟨rfl, rfl⟩ : j = i ∧ e = .run faults := by simpa [loopEvent] using hevent
          simp [runsOn] at hruns
        | receive r j fault =>
          cases fault <;> cases hdispatch : dispatch app r <;>
            simp [loopEvent, hdispatch] at hevent
        | disconnect r => cases hexchange : s.exchanges r <;> simp [loopEvent, hexchange] at hevent
        | syncEnds | syncPanics | respond | stop | strand => simp [loopEvent] at hevent
      · rw [onLoop_loops_of_ne hne]

/-- The call of `cancel` is posted behind the handles that are queued already. -/
theorem queue_disconnect {i : Fin n} (hdispatched : s.exchanges r = .dispatched i)
    (hopen : s.unfinished i r = true) (hrunning : s.stopped i = false) :
    queue i (effect app values s (.disconnect r)) = queue i s ++ [.cancel r] := by
  simp [effect, disconnect, hdispatched, hopen, hrunning, queue, onLoop, Serving.effect,
    Loop.effect, Loop.actEffect, World.callSoon]

/-- What the call of `cancel` comes to: the future that the task awaits takes the request, or the
next step of the task will. -/
structure Cancels (s s' : Site Point n) (i : Fin n) (r : TaskId) (k : HandlerTask) : Prop where
  asked : Asked (s'.loops i).loop.world r
  absorbed_or_deferred : k.state.finished = false →
    (∃ f, k.state.waitingOn = some f ∧ (s.loops i).loop.world.acceptsCancel f = true) ∨
      ((s'.loops i).loop.tasks r).any (·.state.mustCancel) = true

/-- The loop runs the call. -/
theorem cancels_run {i : Fin n} {faults : Faults} (htask : HasTask s i r)
    (hhead : (queue i s).head? = some (.cancel r)) :
    ∃ k, (s.loops i).loop.tasks r = some k ∧
      Cancels s (effect app values s (.onLoop i (.run faults))) i r k := by
  obtain ⟨k, hk⟩ := Option.isSome_iff_exists.mp htask
  obtain ⟨rest, hready⟩ : ∃ rest, queue i s = .cancel r :: rest := by
    cases hready : queue i s with
    | nil => simp [hready] at hhead
    | cons h rest =>
      obtain rfl : h = .cancel r := by simpa [hready] using hhead
      exact ⟨rest, rfl⟩
  refine ⟨k, hk, ⟨?_, fun hopen => ?_⟩⟩
  · rw [Asked, run_loop hready]
    refine ⟨(cancel r none ⟨{ (s.loops i).loop.world with ready := rest }, k⟩).2, ?_⟩
    simp [Loop.runHandle, Loop.modify, hk, Loop.put, Loop.cancelTask, driver, World.note]
  · rw [run_loop hready]
    by_cases hwaits : ∃ f, k.state.waitingOn = some f ∧
        (s.loops i).loop.world.acceptsCancel f = true
    · exact .inl hwaits
    · right
      have hmust : (cancel r none
          ⟨{ (s.loops i).loop.world with ready := rest }, k⟩).1.task.state.mustCancel = true := by
        cases hwaiting : k.state.waitingOn with
        | none => rw [cancel_of_none hopen hwaiting]; rfl
        | some f =>
          have hrefuses : (s.loops i).loop.world.acceptsCancel f = false := by
            simpa using fun haccepts => hwaits ⟨f, hwaiting, haccepts⟩
          rw [cancel_of_refuses hopen hwaiting hrefuses]
          rfl
      simpa [Loop.runHandle, Loop.modify, hk, Loop.put, Loop.cancelTask, driver] using hmust

/-- **No disconnect is lost.** If a client is gone while its request is being handled, then however
the run goes on, the loop of the request calls `cancel` on its task as soon as it has run the
handles that were queued before. -/
theorem disconnect_cancels {i : Fin n} {es : List (Event n)}
    (hreach : (system app values).Reaches s) (hdispatched : s.exchanges r = .dispatched i)
    (hopen : s.unfinished i r = true) (hrunning : s.stopped i = false)
    (hexec : (system app values).exec (effect app values s (.disconnect r)) es = some s')
    (hruns : (queue i s).length < es.countP (runsOn i)) :
    ∃ es₁ faults es₂ s₁ k, es = es₁ ++ .onLoop i (.run faults) :: es₂ ∧
      es₁.countP (runsOn i) = (queue i s).length ∧
      (system app values).exec (effect app values s (.disconnect r)) es₁ = some s₁ ∧
      (s₁.loops i).loop.tasks r = some k ∧
      Cancels s₁ (effect app values s₁ (.onLoop i (.run faults))) i r k := by
  have hposted : (queue i (effect app values s (.disconnect r)))[(queue i s).length]? =
      some (.cancel r) := by
    rw [queue_disconnect hdispatched hopen hrunning, List.getElem?_concat_length]
  have henabled : (system app values).enabled s (.disconnect r) = true := by
    simp [system, enabled, hdispatched, pending]
  have hdropped : (system app values).Reaches (effect app values s (.disconnect r)) :=
    .step hreach trivial henabled
  obtain ⟨es₁, e, es₂, s₁, rfl, hserves, hcount, hs₁, -, hhead⟩ :=
    (queue_fifo i).served hexec hposted hruns
  obtain ⟨faults, rfl⟩ := eq_run_of_runsOn hserves
  have htask : HasTask s₁ i r := by
    have hbefore := ((Tracked.of_reachesUnder hreach).dispatched r i hdispatched).1
    exact hasTask_exec (hasTask_effect.mpr (.inr hbefore)) hs₁
  obtain ⟨k, hk, hcancels⟩ := cancels_run htask hhead
  exact ⟨es₁, faults, es₂, s₁, k, rfl, hcount, hs₁, hk, hcancels⟩

/-- The item's task is cancelled when its client has gone. -/
theorem disconnect_cancels_item : ∃ s : Site ℕ 1, ∃ faults k,
    (s.loops onlyLoop).loop.tasks 0 = some k ∧
    Cancels s (effect itemApplication (fun _ _ => 9) s (.onLoop onlyLoop (.run faults)))
      onlyLoop 0 k := by
  have hexec : ((system itemApplication fun _ _ => 9).exec idleSite (itemRun.take 4)).map
      (fun s =>
        decide ((s.exchanges 0).loop = some onlyLoop ∧ s.unfinished onlyLoop 0 = true ∧
          s.stopped onlyLoop = false ∧ queue onlyLoop s = [] ∧
          ((system itemApplication fun _ _ => 9).exec
            (effect itemApplication (fun _ _ => 9) s (.disconnect 0))
            [.onLoop onlyLoop (.run .none)]).isSome = true)) = some true := by
    decide +kernel
  obtain ⟨s, hs, hend⟩ := Option.map_eq_some_iff.mp hexec
  obtain ⟨hdispatched, hopen, hrunning, hempty, hgoes⟩ := of_decide_eq_true hend
  obtain ⟨s', hs'⟩ := Option.isSome_iff_exists.mp hgoes
  have hreach : (system itemApplication fun _ _ => 9).Reaches s :=
    Transition.System.Reaches.exec (.init idleSite_fresh) hs
  obtain ⟨-, faults, -, s₁, k, -, -, -, hk, hcancels⟩ := disconnect_cancels hreach
    (Exchange.eq_dispatched hdispatched) hopen hrunning hs' (by simp [hempty, runsOn])
  exact ⟨s₁, faults, k, hk, hcancels⟩

end Rayo.Site
