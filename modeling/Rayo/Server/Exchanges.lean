import Rayo.Server.Http

/-!
# The loops under the requests of a server

Each event of the server is at most one event of one of its loops, and passes at most one exchange
on. A task is made for a request when it is received, on one loop, so that every loop runs as it
could alone.
-/

namespace Rayo

open Asyncio HandlerTask

namespace Serving

section

variable {Point : Type} {respond : Value → HandlerResponse} {P : HandlerCode Point}
  {values : FutureId → Value} {entry : TaskId → Except Asyncio.Exception Point}
  {s : Serving Point} {e : Event} {t : TaskId}

/-- The events of the loop that an event of its coroutines consists of. -/
def Event.Performs : Event → Asyncio.Event → Prop
  | .run faults, e' => e' = .run faults
  | .act a, e' => e' = .act a
  | .build .., e' | .execute _, e' | .close _, e' =>
    (∃ faults input, e' = .resume faults input) ∨ ∃ f, e' = .act (.setBlocking f true)

/-- What these events keep is kept. -/
theorem effect_keeps {I : Loop LoopHandles HandlerTask → Prop}
    (hI : ∀ loop e', e.Performs e' → I loop → I (Loop.effect (driver respond) loop e'))
    (h : I s.loop) : I (effect respond P values entry s e).loop := by
  have hcontrol {g : TaskId → Serving Point} (hg : ∀ t, I (g t).loop) : I (s.inControl g).loop := by
    unfold inControl
    split
    · exact hg _
    · exact h
  cases e with
  | act a => exact hI s.loop _ rfl h
  | run faults =>
    simp only [effect, handOver_loop]
    exact hI s.loop _ rfl h
  | build faults coroutine context =>
    refine hcontrol fun t => ?_
    unfold build
    split
    · rw [handOver_loop]
      exact hI s.loop _ (.inl ⟨_, _, rfl⟩) h
    · exact hI s.loop _ (.inl ⟨_, _, rfl⟩) h
  | execute faults =>
    have hmove (t : TaskId) (p : Point) : I (move respond P values faults s t p).loop := by
      unfold move
      split
      · exact hI s.loop _ (.inl ⟨_, _, rfl⟩) h
      · exact hI s.loop _ (.inl ⟨_, _, rfl⟩) h
      · exact hI s.loop _ (.inl ⟨_, _, rfl⟩) h
      · split
        · exact h
        · next f _ _ _ _ =>
          exact hI _ (.resume faults _) (.inl ⟨_, _, rfl⟩)
            (hI s.loop (.act (.setBlocking f true)) (.inr ⟨f, rfl⟩) h)
    refine hcontrol fun t => ?_
    unfold execute
    split
    · exact hmove _ _
    · exact hI s.loop _ (.inl ⟨_, _, rfl⟩) h
    · exact h
  | close faults => exact hcontrol fun t => hI s.loop _ (.inl ⟨_, _, rfl⟩) h

/-- Responses are not taken back. -/
def Answered (w w' : World LoopHandles) : Prop := w.shared.responses <:+ w'.shared.responses

/-- No step of a task takes a response back. -/
theorem answered_footprint : LoopFootprint Answered where
  trans h h' := List.IsSuffix.trans h h'
  elsewhere _ _ _ _ h := h
  note _ _ _ := List.suffix_rfl
  step _ _ _ := List.suffix_rfl
  callSoon _ _ _ := List.suffix_rfl
  setBlocking _ _ _ := List.suffix_rfl
  addDoneCallback w f t := by
    unfold World.addDoneCallback
    split <;> exact List.suffix_rfl
  cancelFuture w f message := by
    unfold World.cancelFuture
    split <;> exact List.suffix_rfl
  complete _ _ _ := List.suffix_rfl
  setCancelMode _ _ _ := List.suffix_rfl

/-- No event of a loop takes a response back. -/
theorem answered_effect : Answered s.loop.world (effect respond P values entry s e).loop.world := by
  refine effect_keeps (I := fun loop => Answered s.loop.world loop.world)
    (fun loop e' _ h => answered_footprint.trans h ?_) List.suffix_rfl
  cases e' with
  | act a => exact answered_footprint.act a
  | resume faults input => exact answered_footprint.resumeRunning input
  | run faults =>
    simp only [Loop.effect]
    split
    · exact List.suffix_rfl
    · next head rest _ =>
      exact answered_footprint.runHandle head
        (s := { loop with world := { loop.world with ready := rest } })

/-- The loop has this task. -/
def Holds (loop : Loop LoopHandles HandlerTask) (t : TaskId) : Prop := (loop.tasks t).isSome = true

/-- A task that is written back is one that the loop has. -/
theorem holds_put (loop : Loop LoopHandles HandlerTask) {t t' : TaskId} {l : HandlerTask.Local}
    (ht : Holds loop t) : Holds (loop.put t l) t' ↔ Holds loop t' := by
  rcases eq_or_ne t' t with rfl | hne
  · simp only [Holds, loop.put_tasks_self, Option.isSome_some, true_iff]
    exact ht
  · rw [Holds, loop.put_tasks_of_ne hne, Holds]

/-- What happens on a task adds none to the loop. -/
theorem holds_modify {loop : Loop LoopHandles HandlerTask} {t t' : TaskId}
    {g : HandlerTask.Local → HandlerTask.Local} :
    Holds (loop.modify t g) t' ↔ Holds loop t' := by
  unfold Loop.modify
  split
  · next htask => exact holds_put loop (by rw [Holds, htask]; rfl)
  · rfl

/-- A turn adds no task to the loop. -/
theorem holds_drive {loop : Loop LoopHandles HandlerTask} {t t' : TaskId}
    {g : HandlerTask.Local → HandlerTask.Local} :
    Holds (loop.drive (driver respond) t g) t' ↔ Holds loop t' := by
  unfold Loop.drive
  split
  · next htask => exact holds_put loop (by rw [Holds, htask]; rfl)
  · rfl

/-- Tasks come by `schedule` only, and none goes. -/
theorem holds_loopEffect {loop : Loop LoopHandles HandlerTask} {e' : Asyncio.Event}
    (hnew : e' ≠ .act (.schedule t)) :
    Holds (Loop.effect (driver respond) loop e') t ↔ Holds loop t := by
  cases e' with
  | run faults =>
    simp only [Loop.effect]
    split
    · rfl
    · next head rest _ =>
      cases head with
      | step t' e => exact holds_drive
      | wake t' f => exact holds_drive
      | cancel t' => exact holds_modify
      | doneCallback => rfl
  | resume faults input =>
    simp only [Loop.effect]
    split
    · exact holds_drive
    · rfl
  | act a =>
    cases a with
    | schedule t' =>
      have ht : t ≠ t' := by
        rintro rfl
        exact hnew rfl
      simp only [Loop.effect, Loop.actEffect, Holds, Function.update_of_ne ht]
    | cancel t' message => exact holds_modify
    | uncancel t' => exact holds_modify
    | cancelling t' => exact holds_modify
    | addDoneCallback t' callback context => exact holds_modify
    | removeDoneCallback t' callback => exact holds_modify
    | postCancel | complete | cancelFuture | setBlocking | setCancelMode => rfl

/-- No event but a call of `schedule` for it adds a task to the loop. -/
theorem holds_effect (hnew : e ≠ .act (.schedule t)) :
    Holds (effect respond P values entry s e).loop t ↔ Holds s.loop t := by
  refine effect_keeps (I := fun loop => Holds loop t ↔ Holds s.loop t)
    (fun _ e' hperforms h => (holds_loopEffect ?_).trans h) Iff.rfl
  rintro rfl
  cases e <;> simp [Event.Performs] at hperforms
  exact hnew (by rw [hperforms])

/-- A call of `schedule` adds one task to the loop. -/
theorem holds_schedule (t' : TaskId) :
    Holds (effect respond P values entry s (.act (.schedule t))).loop t' ↔
      t' = t ∨ Holds s.loop t' := by
  rcases eq_or_ne t' t with rfl | hne
  · simp [effect, Loop.effect, Loop.actEffect, Holds]
  · simp [effect, Loop.effect, Loop.actEffect, Holds, hne]

end

end Serving

namespace Site

section

variable {m : Matchit} {F Point : Type} {n : ℕ} {app : Application m F Point}
  {values : Fin n → FutureId → Value} {s : Site Point n} {r r' : TaskId}

/-- An exchange is on no loop. -/
@[simp] theorem setExchange_loops (s : Site Point n) (r : TaskId) (exchange : Exchange n) :
    (s.setExchange r exchange).loops = s.loops := rfl

/-- An exchange stops no loop. -/
@[simp] theorem setExchange_stopped (s : Site Point n) (r : TaskId) (exchange : Exchange n) :
    (s.setExchange r exchange).stopped = s.stopped := rfl

/-- An exchange changes no outcome of a sync handler. -/
@[simp] theorem setExchange_outcomes (s : Site Point n) (r : TaskId) (exchange : Exchange n) :
    (s.setExchange r exchange).outcomes = s.outcomes := rfl

/-- The exchange that has been set is there. -/
@[simp] theorem setExchange_exchanges_self (s : Site Point n) (r : TaskId)
    (exchange : Exchange n) : (s.setExchange r exchange).exchanges r = exchange :=
  Function.update_self _ _ _

/-- The exchanges of other requests stay. -/
theorem setExchange_exchanges_of_ne (hr : r' ≠ r) (exchange : Exchange n) :
    (s.setExchange r exchange).exchanges r' = s.exchanges r' :=
  Function.update_of_ne hr _ _

/-- An event on a loop leaves the exchanges as they are. -/
@[simp] theorem onLoop_exchanges (s : Site Point n) (i : Fin n) (e : Serving.Event) :
    (onLoop app values s i e).exchanges = s.exchanges := rfl

/-- An event on a loop leaves the outcomes of sync handlers as they are. -/
@[simp] theorem onLoop_outcomes (s : Site Point n) (i : Fin n) (e : Serving.Event) :
    (onLoop app values s i e).outcomes = s.outcomes := rfl

/-- The loop of an event takes that event. -/
theorem onLoop_loops_self (s : Site Point n) (i : Fin n) (e : Serving.Event) :
    (onLoop app values s i e).loops i = (servingSystem app values i).effect (s.loops i) e :=
  Function.update_self _ _ _

/-- The other loops stay as they are. -/
theorem onLoop_loops_of_ne {i j : Fin n} (hj : j ≠ i) (e : Serving.Event) :
    (onLoop app values s i e).loops j = s.loops j :=
  Function.update_of_ne hj _ _

/-- What an event of the server is for one of the loops. -/
def loopEvent (app : Application m F Point) (s : Site Point n) :
    Event n → Option (Fin n × Serving.Event)
  | .onLoop i e => some (i, e)
  | .receive r i none => match dispatch app r with
    | .schedule _ _ => some (i, .act (.schedule r))
    | .notFound | .respond _ | .executeSyncHandler .. | .panicked => none
  | .disconnect r => match s.exchanges r with
    | .dispatched i =>
      if s.unfinished i r && !s.stopped i then some (i, .act (.postCancel r)) else none
    | .unreceived | .ready _ | .blocking | .answered _ | .dropped => none
  | .receive _ _ (some _) | .syncEnds .. | .syncPanics _ | .respond _ | .stop _ | .strand _ => none

/-- An event of the server does to its loops what its event on a loop does. -/
theorem effect_loops (e : Event n) : (effect app values s e).loops =
    match loopEvent app s e with
    | some (i, e') => (onLoop app values s i e').loops
    | none => s.loops := by
  cases e with
  | receive r i fault =>
    cases hdispatch : dispatch app r <;> cases fault with
    | none => simp [effect, receive, loopEvent, hdispatch, schedule]
    | some fault => cases fault <;> simp [effect, receive, loopEvent, hdispatch, schedule]
  | disconnect r =>
    cases hexchange : s.exchanges r <;>
      simp only [effect, disconnect, loopEvent, hexchange, setExchange_loops]
    split <;> rfl
  | respond r =>
    simp only [effect, loopEvent]
    split <;> rfl
  | onLoop | syncEnds | syncPanics | stop | strand => rfl

/-- `handle` schedules a task for the request. -/
def Schedules (app : Application m F Point) (r : TaskId) : Prop :=
  ∃ handler kwargs, dispatch app r = .schedule handler kwargs

/-- What an event does to the exchange of a request. -/
inductive Passes (app : Application m F Point) (s : Site Point n) (r : TaskId) :
    Event n → Exchange n → Prop
  | notFound {i : Fin n} {fault : Option ScheduleFault} : s.exchanges r = .unreceived →
    dispatch app r = .notFound →
    Passes app s r (.receive r i fault) (.ready (plainResponse 404 "Not Found"))
  | invalid {i : Fin n} {fault : Option ScheduleFault} {errorResponse : HandlerResponse} :
    s.exchanges r = .unreceived → dispatch app r = .respond errorResponse →
    Passes app s r (.receive r i fault) (.ready (responseFromHandler errorResponse))
  | refused {i : Fin n} {fault : ScheduleFault} : s.exchanges r = .unreceived → Schedules app r →
    Passes app s r (.receive r i (some fault)) (.ready internalServerError)
  | dispatched {i : Fin n} {handler : Handler} {kwargs : Kwargs F} : s.exchanges r = .unreceived →
    dispatch app r = .schedule handler kwargs → Passes app s r (.receive r i none) (.dispatched i)
  | blocking {i : Fin n} {fault : Option ScheduleFault} {handler : Handler} {kwargs : Kwargs F} :
    s.exchanges r = .unreceived → dispatch app r = .executeSyncHandler handler kwargs →
    Passes app s r (.receive r i fault) .blocking
  | panicked {i : Fin n} {fault : Option ScheduleFault} : s.exchanges r = .unreceived →
    Passes app s r (.receive r i fault) .dropped
  | syncEnded {outcome : Except Asyncio.Exception Value} : s.exchanges r = .blocking →
    Passes app s r (.syncEnds r outcome)
      (.ready (responseFromHandler (executeSyncHandler app.ops app.object outcome)))
  | syncPanicked : s.exchanges r = .blocking →
    Passes app s r (.syncPanics r) (.ready internalServerError)
  | responded {response : Response} : s.resolved r = some response →
    Passes app s r (.respond r) (.answered response)
  | disconnected : pending (s.exchanges r) = true → Passes app s r (.disconnect r) .dropped
  | stranded {i : Fin n} : s.exchanges r = .dispatched i →
    Passes app s r (.strand r) (.ready internalServerError)

/-- An event changes one exchange at most. -/
theorem exchange_step {e : Event n} (henabled : enabled app s e = true) (r : TaskId) :
    (effect app values s e).exchanges r = s.exchanges r ∨
      Passes app s r e ((effect app values s e).exchanges r) := by
  have hother {r' : TaskId} {exchange : Exchange n} (h : r ≠ r') (s' : Site Point n)
      (hs' : s'.exchanges = s.exchanges) :
      (s'.setExchange r' exchange).exchanges r = s.exchanges r := by
    rw [setExchange_exchanges_of_ne h, hs']
  cases e with
  | onLoop i e => exact .inl rfl
  | stop i => exact .inl rfl
  | receive r' i fault =>
    rcases eq_or_ne r r' with rfl | hne
    · have hunreceived : s.exchanges r = .unreceived := by
        cases hexchange : s.exchanges r <;> simp [enabled, hexchange] at henabled
        rfl
      right
      cases hdispatch : dispatch app r with
      | notFound => simpa [effect, receive, hdispatch] using .notFound hunreceived hdispatch
      | respond errorResponse =>
        simpa [effect, receive, hdispatch] using .invalid hunreceived hdispatch
      | executeSyncHandler handler kwargs =>
        simpa [effect, receive, hdispatch] using .blocking hunreceived hdispatch
      | panicked => simpa [effect, receive, hdispatch] using .panicked hunreceived
      | schedule handler kwargs =>
        cases fault with
        | none =>
          simpa [effect, receive, schedule, hdispatch] using .dispatched hunreceived hdispatch
        | some fault =>
          cases fault with
          | allocation =>
            simpa [effect, receive, schedule, hdispatch] using
              .refused hunreceived ⟨_, _, hdispatch⟩
          | callSoon =>
            simpa [effect, receive, schedule, hdispatch, responseFromHandler_internalError] using
              .refused hunreceived ⟨_, _, hdispatch⟩
    · left
      simp only [effect, receive]
      split <;> try exact hother hne s rfl
      unfold schedule
      split <;> exact hother hne _ rfl
  | syncEnds r' outcome =>
    rcases eq_or_ne r r' with rfl | hne
    · right
      have hblocking : s.exchanges r = .blocking := by
        cases hexchange : s.exchanges r <;> simp [enabled, hexchange] at henabled
        rfl
      simpa [effect] using .syncEnded hblocking
    · exact .inl (hother hne s rfl)
  | syncPanics r' =>
    rcases eq_or_ne r r' with rfl | hne
    · right
      have hblocking : s.exchanges r = .blocking := by
        cases hexchange : s.exchanges r <;> simp [enabled, hexchange] at henabled
        rfl
      simpa [effect] using .syncPanicked hblocking
    · exact .inl (hother hne s rfl)
  | respond r' =>
    obtain ⟨response, hresolved⟩ := Option.isSome_iff_exists.mp henabled
    simp only [effect, hresolved]
    rcases eq_or_ne r r' with rfl | hne
    · right
      simpa using .responded hresolved
    · exact .inl (hother hne s rfl)
  | disconnect r' =>
    rcases eq_or_ne r r' with rfl | hne
    · right
      have hdropped : (effect app values s (.disconnect r)).exchanges r = .dropped := by
        simp only [effect, disconnect]
        split
        · split <;> simp
        all_goals simp
      rw [hdropped]
      exact .disconnected henabled
    · left
      simp only [effect, disconnect]
      split
      · split <;> exact hother hne _ rfl
      all_goals exact hother hne _ rfl
  | strand r' =>
    rcases eq_or_ne r r' with rfl | hne
    · right
      obtain ⟨i, hdispatched⟩ : ∃ i, s.exchanges r = .dispatched i := by
        cases hexchange : s.exchanges r <;> simp [enabled, hexchange] at henabled
        exact ⟨_, rfl⟩
      simpa [effect] using .stranded hdispatched
    · exact .inl (hother hne s rfl)

/-- A task is made when its request is received. -/
theorem loopEvent_schedule {e : Event n} {i : Fin n} (henabled : enabled app s e = true)
    (h : loopEvent app s e = some (i, .act (.schedule r))) :
    e = .receive r i none ∧ s.exchanges r = .unreceived ∧ Schedules app r := by
  cases e with
  | onLoop j e' =>
    simp only [loopEvent, Option.some.injEq, Prod.mk.injEq] at h
    obtain ⟨rfl, rfl⟩ := h
    simp [enabled] at henabled
  | receive r' j fault =>
    have hunreceived : s.exchanges r' = .unreceived := by
      cases hexchange : s.exchanges r' <;> simp [enabled, hexchange] at henabled
      rfl
    cases fault with
    | some fault => simp [loopEvent] at h
    | none =>
      cases hdispatch : dispatch app r' <;> simp [loopEvent, hdispatch] at h
      obtain ⟨rfl, rfl⟩ := h
      exact ⟨rfl, hunreceived, _, _, hdispatch⟩
  | disconnect r' =>
    cases hexchange : s.exchanges r' <;> simp [loopEvent, hexchange] at h
  | syncEnds | syncPanics | respond | stop | strand => simp [loopEvent] at h

/-- The loop `i` has the task of the request. -/
def HasTask (s : Site Point n) (i : Fin n) (r : TaskId) : Prop := Serving.Holds (s.loops i).loop r

/-- A task is on a loop once `schedule` has been called for it there. -/
theorem hasTask_effect {e : Event n} {i : Fin n} : HasTask (effect app values s e) i r ↔
    loopEvent app s e = some (i, .act (.schedule r)) ∨ HasTask s i r := by
  unfold HasTask
  rw [effect_loops]
  cases hevent : loopEvent app s e with
  | none => simp
  | some event =>
    obtain ⟨j, e'⟩ := event
    rcases eq_or_ne i j with rfl | hne
    · simp only [onLoop_loops_self, Option.some.injEq, Prod.mk.injEq, true_and]
      by_cases hnew : e' = .act (.schedule r)
      · rw [hnew]
        simp [servingSystem, Serving.system, Serving.holds_schedule]
      · simpa [hnew, servingSystem, Serving.system] using Serving.holds_effect hnew
    · simp [onLoop_loops_of_ne hne, Ne.symm hne]

/-- No task goes away. -/
theorem hasTask_exec {i : Fin n} {s' : Site Point n} {es : List (Event n)} (h : HasTask s i r)
    (hexec : (system app values).exec s es = some s') : HasTask s' i r := by
  induction es generalizing s with
  | nil =>
    simp only [Transition.System.exec, Option.some.injEq] at hexec
    exact hexec ▸ h
  | cons e es ih =>
    simp only [Transition.System.exec, Option.ite_none_right_eq_some] at hexec
    exact ih (hasTask_effect.mpr (.inr h)) hexec.2

/-- Where the tasks of the requests are. -/
structure Tracked (app : Application m F Point) (s : Site Point n) : Prop where
  unreceived : ∀ r i, s.exchanges r = .unreceived → ¬HasTask s i r
  unique : ∀ r i j, HasTask s i r → HasTask s j r → i = j
  dispatched : ∀ r i, s.exchanges r = .dispatched i → HasTask s i r ∧ Schedules app r

/-- **One step** keeps track of where the tasks of requests are. -/
theorem Tracked.effect {e : Event n} (h : Tracked app s) (henabled : enabled app s e = true) :
    Tracked app (effect app values s e) := by
  refine ⟨fun r i hunreceived htask => ?_, fun r i j hi hj => ?_, fun r i hdispatched => ?_⟩
  · rcases exchange_step henabled r with hsame | hpasses
    · rw [hsame] at hunreceived
      rcases hasTask_effect.mp htask with hnew | htask
      · obtain ⟨rfl, -, handler, kwargs, hdispatch⟩ := loopEvent_schedule henabled hnew
        simp [Site.effect, receive, hdispatch, schedule, hunreceived] at hsame
      · exact h.unreceived r i hunreceived htask
    · rw [hunreceived] at hpasses
      cases hpasses
  · rcases hasTask_effect.mp hi with hnew | hi <;> rcases hasTask_effect.mp hj with hnew' | hj
    · simpa [hnew] using hnew'
    · obtain ⟨-, hunreceived, -⟩ := loopEvent_schedule henabled hnew
      exact absurd hj (h.unreceived r j hunreceived)
    · obtain ⟨-, hunreceived, -⟩ := loopEvent_schedule henabled hnew'
      exact absurd hi (h.unreceived r i hunreceived)
    · exact h.unique r i j hi hj
  · rw [hasTask_effect]
    rcases exchange_step henabled r with hsame | hpasses
    · obtain ⟨htask, hschedules⟩ := h.dispatched r i (hsame.symm.trans hdispatched)
      exact ⟨.inr htask, hschedules⟩
    · rw [hdispatched] at hpasses
      cases hpasses with
      | dispatched _ hdispatch => exact ⟨.inl (by simp [loopEvent, hdispatch]), _, _, hdispatch⟩

section

variable {allowed : Site Point n → Event n → Prop}

/-- On every run it is tracked where the tasks of requests are. -/
theorem Tracked.of_reachesUnder (hreach : (system app values).ReachesUnder allowed s) :
    Tracked app s := by
  refine hreach.invariant (fun s hfresh => ?_) fun s e h _ henabled => h.effect henabled
  have hnone (i : Fin n) (r : TaskId) : ¬HasTask s i r := by
    simp [HasTask, Serving.Holds, (hfresh.loops i).1.tasks r]
  refine ⟨fun r i _ => hnone i r, fun r i _ hi => absurd hi (hnone i r), fun r i hdispatched => ?_⟩
  simp [hfresh.exchanges r] at hdispatched

/-- What may happen on a loop of the server. -/
def allowedOn (allowed : Site Point n → Event n → Prop) (i : Fin n) (loop : Serving Point)
    (e : Serving.Event) : Prop :=
  e.Faultless ∨ ∃ s, s.loops i = loop ∧ allowed s (.onLoop i e)

/-- What the server does on a loop can happen there. -/
theorem loopEvent_enabled {e : Event n} {i : Fin n} {e' : Serving.Event} (h : Tracked app s)
    (henabled : enabled app s e = true) (hevent : loopEvent app s e = some (i, e')) :
    (servingSystem app values i).enabled (s.loops i) e' = true ∧
      (e = .onLoop i e' ∨ e'.Faultless) := by
  cases e with
  | onLoop j e =>
    obtain ⟨rfl, rfl⟩ : j = i ∧ e = e' := by simpa [loopEvent] using hevent
    refine ⟨?_, .inl rfl⟩
    unfold enabled at henabled
    split at henabled <;> simp_all [servingSystem, Serving.system]
  | receive r j fault =>
    cases fault <;> cases hdispatch : dispatch app r <;> simp [loopEvent, hdispatch] at hevent
    obtain ⟨rfl, rfl⟩ := hevent
    have hunreceived : s.exchanges r = .unreceived := by
      cases hexchange : s.exchanges r <;> simp [enabled, hexchange] at henabled
      rfl
    have hnone : ¬((s.loops j).loop.tasks r).isSome = true := h.unreceived r j hunreceived
    exact ⟨by simpa [servingSystem, Serving.system, Serving.Event.probe, Loop.enabled] using hnone,
      .inr trivial⟩
  | disconnect r =>
    cases hexchange : s.exchanges r <;> simp [loopEvent, hexchange] at hevent
    obtain ⟨⟨hunfinished, -⟩, rfl, rfl⟩ := hevent
    have htask : ((s.loops _).loop.tasks r).isSome = true := (h.dispatched r _ hexchange).1
    exact ⟨by simpa [servingSystem, Serving.system, Serving.Event.probe, Loop.enabled,
      Action.task] using htask, .inr trivial⟩
  | syncEnds | syncPanics | respond | stop | strand => simp [loopEvent] at hevent

/-- Each loop of the server runs as it could alone. -/
theorem loop_reaches (hreach : (system app values).ReachesUnder allowed s) (i : Fin n) :
    (servingSystem app values i).ReachesUnder (allowedOn allowed i) (s.loops i) := by
  have hstrong : (system app values).ReachesUnder (fun s e => allowed s e ∧ Tracked app s) s :=
    hreach.mono fun s e hreach hallowed _ => ⟨hallowed, .of_reachesUnder hreach⟩
  refine hstrong.project (fun s : Site Point n => s.loops i) (fun s hfresh => hfresh.loops i)
    fun s e hallowed henabled => ?_
  simp only [system] at henabled ⊢
  rw [effect_loops]
  cases hevent : loopEvent app s e with
  | none => exact .inl rfl
  | some event =>
    obtain ⟨j, e'⟩ := event
    rcases eq_or_ne i j with rfl | hne
    · obtain ⟨henabled', horigin⟩ := loopEvent_enabled hallowed.2 henabled hevent
      refine .inr ⟨e', ?_, henabled', onLoop_loops_self s i e'⟩
      rcases horigin with rfl | hfaultless
      · exact .inr ⟨s, rfl, hallowed.1⟩
      · exact .inl hfaultless
    · exact .inl (onLoop_loops_of_ne hne e')

end

end

end Site

end Rayo
