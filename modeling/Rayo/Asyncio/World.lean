import Mathlib.Data.List.Count
import Mathlib.Logic.Function.Basic

/-!
# The shared data of an event loop

Futures with their done callbacks, the queue of handles, and what a driver of coroutines
leaves behind in a log. Python values that are only passed around are opaque tokens.
Completing or cancelling a future queues each of its callbacks exactly once. A driver's
own shared data rides along as a parameter.
-/

namespace Asyncio

/-- A task on the loop. -/
abbrev TaskId := ℕ

/-- A future. -/
abbrev FutureId := ℕ

/-- An event loop, as compared by identity. -/
abbrev LoopId := ℕ

/-- A Python object that is only passed around. -/
abbrev Value := ℕ

/-- Exceptions, as far as drivers of coroutines tell them apart. -/
inductive Exception
  | cancelledError (message : Option Value)
  /-- A `RuntimeError` that a driver builds itself. -/
  | protocolError (text : String)
  | other (value : Value)
  deriving DecidableEq

/-- The exception is an instance of `CancelledError`. -/
def Exception.isCancelled : Exception → Bool
  | .cancelledError _ => true
  | .protocolError _ | .other _ => false

/-- The exception without the text of a protocol error. -/
def Exception.erase : Exception → Exception
  | .protocolError _ => .protocolError ""
  | e => e

/-- How far a future is. -/
inductive Status
  | pending
  | result
  | exception (e : Exception)
  | cancelled (message : Option Value)
  deriving DecidableEq

/-- What `future.result()` raises on a future that is done. -/
def Status.error : Status → Option Exception
  | .pending | .result => none
  | .exception e => some e
  | .cancelled message => some (.cancelledError message)

/-- How a pending future answers `cancel`: a plain future completes as cancelled, a task
passes the request on and stays pending, and a future that returns `False` or raises has
not accepted it. -/
inductive CancelMode
  | completes
  | forwards
  | refuses
  deriving DecidableEq

/-- An awaitable that follows the future protocol. -/
structure Future where
  /-- `get_loop()`, if it succeeds. -/
  loop : Option LoopId
  /-- `_asyncio_future_blocking`. -/
  blocking : Bool
  status : Status
  cancelMode : CancelMode
  /-- The tasks that are registered as done callbacks. -/
  callbacks : List TaskId

/-- Callbacks in the queue of the loop. -/
inductive Handle
  /-- The next step of a task, which may be told to throw. -/
  | step (t : TaskId) (e : Option Exception)
  /-- A task as the done callback of a future. -/
  | wake (t : TaskId) (f : FutureId)
  /-- A posted `task.cancel`. -/
  | cancel (t : TaskId)
  /-- A done callback of a task, in its context. -/
  | doneCallback (t : TaskId) (callback context : Value)
  deriving DecidableEq

/-- Running the handle steps the task. -/
def Handle.wakes (t : TaskId) : Handle → Bool
  | .step t' _ | .wake t' _ => t' = t
  | .cancel _ | .doneCallback .. => false

/-- How a task answers `cancel`: it is already done, the awaited future has accepted the
request, or it is left for the task's next step. It returns `False` in the first case. -/
inductive CancelReply
  | finished
  | absorbed
  | deferred
  deriving DecidableEq

/-- What a driver does that a coroutine, an awaited future or a caller can observe. -/
inductive Observation
  | sent (t : TaskId)
  | threw (t : TaskId) (e : Exception)
  /-- An exception thrown into a coroutine that has not started, which raises it at once
  without running any of its code. -/
  | threwUnstarted (t : TaskId) (e : Exception)
  | futureCancelled (t : TaskId) (f : FutureId) (message : Option Value) (accepted : Bool)
  | cancelReturned (t : TaskId) (reply : CancelReply)
  | uncancelReturned (t : TaskId) (count : ℕ)
  | cancellingReturned (t : TaskId) (count : ℕ)
  /-- A turn of a task that is not done ended without stepping it. -/
  | turnLost (t : TaskId)
  deriving DecidableEq

/-- The observation without the text of a protocol error. -/
def Observation.erase : Observation → Observation
  | .threw t e => .threw t e.erase
  | o => o

/-- The shared data of one event loop. -/
structure World (ρ : Type) where
  loop : LoopId
  futures : FutureId → Future
  /-- The queue, oldest handle first. -/
  ready : List Handle
  /-- `asyncio.current_task()`. -/
  currentTask : Option TaskId
  /-- The contexts that have been entered, innermost first. -/
  contexts : List Value
  /-- The tasks in `asyncio.all_tasks()`. -/
  registered : List TaskId
  /-- What happened, newest first. -/
  log : List Observation
  /-- Data of the driver that its tasks share. -/
  shared : ρ

namespace World

variable {ρ : Type}

/-- `loop.call_soon`. -/
def callSoon (w : World ρ) (h : Handle) : World ρ :=
  { w with ready := w.ready ++ [h] }

/-- Note an observation. -/
def note (w : World ρ) (o : Observation) : World ρ :=
  { w with log := o :: w.log }

/-- Change one future. -/
def setFuture (w : World ρ) (f : FutureId) (future : Future) : World ρ :=
  { w with futures := Function.update w.futures f future }

/-- A future becomes done and queues its callbacks. -/
def complete (w : World ρ) (f : FutureId) (status : Status) : World ρ :=
  { w.setFuture f { w.futures f with status := status, callbacks := [] } with
    ready := w.ready ++ (w.futures f).callbacks.map (.wake · f) }

/-- `future.add_done_callback(task)`. -/
def addDoneCallback (w : World ρ) (f : FutureId) (t : TaskId) : World ρ :=
  if (w.futures f).status = .pending then
    w.setFuture f { w.futures f with callbacks := (w.futures f).callbacks ++ [t] }
  else w.callSoon (.wake t f)

/-- A future accepts a request to cancel it. -/
def acceptsCancel (w : World ρ) (f : FutureId) : Bool :=
  (w.futures f).status = .pending ∧ (w.futures f).cancelMode ≠ .refuses

/-- `future.cancel(message)`. -/
def cancelFuture (w : World ρ) (f : FutureId) (message : Option Value) : World ρ :=
  if (w.futures f).status = .pending ∧ (w.futures f).cancelMode = .completes then
    w.complete f (.cancelled message)
  else w

/-- A task calls `future.cancel(message)` on the future it awaits. -/
def cancelAwaited (w : World ρ) (t : TaskId) (f : FutureId) (message : Option Value) : World ρ :=
  (w.cancelFuture f message).note (.futureCancelled t f message (w.acceptsCancel f))

/-- Enter a task, as `asyncio.tasks._enter_task` does. -/
def enterTask (w : World ρ) (t : TaskId) : World ρ :=
  { w with currentTask := some t }

/-- Leave the current task. -/
def leaveTask (w : World ρ) : World ρ :=
  { w with currentTask := none }

/-- Enter a context. -/
def enterContext (w : World ρ) (context : Value) : World ρ :=
  { w with contexts := context :: w.contexts }

/-- Exit the context entered last. -/
def exitContext (w : World ρ) : World ρ :=
  { w with contexts := w.contexts.tail }

/-- Register a task with asyncio. -/
def registerTask (w : World ρ) (t : TaskId) : World ρ :=
  { w with registered := w.registered.insert t }

/-- Remove a task from asyncio's registry. -/
def unregisterTask (w : World ρ) (t : TaskId) : World ρ :=
  { w with registered := w.registered.filter (· ≠ t) }

end World

/-- What will step a task that is not running. -/
inductive Source
  | step (e : Option Exception)
  | wake (f : FutureId)
  | registration (f : FutureId)
  deriving DecidableEq

/-- The future that a source comes from. -/
def Source.future : Source → Option FutureId
  | .step _ => none
  | .wake f | .registration f => some f

/-- The handles of a task that has this source and no other. -/
def Source.handles (t : TaskId) : Option Source → List Handle
  | some (.step e) => [.step t e]
  | some (.wake f) => [.wake t f]
  | some (.registration _) | none => []

/-- The registrations of a task that has this source and no other. -/
def Source.registrations : Option Source → FutureId → ℕ
  | some (.registration f), f' => if f' = f then 1 else 0
  | _, _ => 0

/-- The source after a future has become done. -/
def Source.fire (f : FutureId) : Source → Source
  | .registration f' => if f' = f then .wake f else .registration f'
  | source => source

/-- A source that fires belongs to the same future. -/
@[simp] theorem Source.future_fire (f : FutureId) (source : Source) :
    (source.fire f).future = source.future := by
  cases source with
  | registration f' =>
    simp only [Source.fire]
    split <;> simp_all [Source.future]
  | _ => rfl

namespace World

variable {ρ : Type} {w w' : World ρ} {t : TaskId}

/-- The handles that step a task. -/
def handlesOf (w : World ρ) (t : TaskId) : List Handle :=
  w.ready.filter (Handle.wakes t)

/-- `source` is all that will step `t`: a single handle in the queue, or a single
registration on a single future. -/
structure SourceIs (w : World ρ) (t : TaskId) (source : Option Source) : Prop where
  handles : w.handlesOf t = Source.handles t source
  registrations : ∀ f, (w.futures f).callbacks.count t = Source.registrations source f

/-- What steps `t` stays what it is, up to a registration turning into a handle. -/
def Keeps (w w' : World ρ) (t : TaskId) : Prop :=
  ∀ source, w.SourceIs t source →
    ∃ source' : Option Source, w'.SourceIs t source' ∧
      source'.isSome = source.isSome ∧ source'.bind Source.future = source.bind Source.future

/-- What steps a task stays what it is where nothing happens. -/
theorem Keeps.refl (w : World ρ) (t : TaskId) : w.Keeps w t :=
  fun source h => ⟨source, h, rfl, rfl⟩

/-- What steps a task stays what it is over two steps that keep it. -/
theorem Keeps.trans {w'' : World ρ} (h : w.Keeps w' t) (h' : w'.Keeps w'' t) :
    w.Keeps w'' t := by
  intro source hsource
  obtain ⟨source', hsource', hsome, hfuture⟩ := h source hsource
  obtain ⟨source'', hsource'', hsome', hfuture'⟩ := h' source' hsource'
  exact ⟨source'', hsource'', hsome'.trans hsome, hfuture'.trans hfuture⟩

/-- Only the queue and the callbacks of the futures matter. -/
theorem SourceIs.congr {source : Option Source} (h : w.SourceIs t source)
    (hready : w'.handlesOf t = w.handlesOf t)
    (hcallbacks : ∀ f, (w'.futures f).callbacks = (w.futures f).callbacks) :
    w'.SourceIs t source :=
  ⟨hready.trans h.handles, fun f => by rw [hcallbacks]; exact h.registrations f⟩

/-- What steps a task stays what it is as long as its handles and all registrations stay. -/
theorem Keeps.of_eq (hready : w'.handlesOf t = w.handlesOf t)
    (hcallbacks : ∀ f, (w'.futures f).callbacks = (w.futures f).callbacks) : w.Keeps w' t :=
  fun source h => ⟨source, h.congr hready hcallbacks, rfl, rfl⟩

/-- A handle that does not step `t` makes no difference to it. -/
theorem keeps_callSoon {h : Handle} (hwakes : h.wakes t = false) : w.Keeps (w.callSoon h) t :=
  .of_eq (by simp [handlesOf, callSoon, hwakes]) fun _ => rfl

/-- An observation keeps what steps every task. -/
theorem keeps_note (o : Observation) : w.Keeps (w.note o) t := .of_eq rfl fun _ => rfl

/-- Changing a future without touching its callbacks makes no difference to any task. -/
theorem keeps_setFuture {f : FutureId} {future : Future}
    (hcallbacks : future.callbacks = (w.futures f).callbacks) :
    w.Keeps (w.setFuture f future) t := by
  refine .of_eq rfl fun f' => ?_
  by_cases hf : f' = f
  · simp [setFuture, hf, hcallbacks]
  · simp [setFuture, hf]

private theorem filter_wakes_map_wake (t : TaskId) (f : FutureId) (callbacks : List TaskId) :
    (callbacks.map (Handle.wake · f)).filter (Handle.wakes t) =
      List.replicate (callbacks.count t) (.wake t f) := by
  induction callbacks with
  | nil => rfl
  | cons t' rest ih =>
    by_cases ht : t' = t
    · simp [ht, ih, Handle.wakes, List.replicate_succ]
    · simp [ht, ih, Handle.wakes]

/-- A future that becomes done turns each registration on it into one handle. -/
theorem SourceIs.complete {source : Option Source} (h : w.SourceIs t source) (f : FutureId)
    (status : Status) : (w.complete f status).SourceIs t (source.map (Source.fire f)) := by
  have hhandles : (w.complete f status).handlesOf t =
      Source.handles t source ++ List.replicate (Source.registrations source f) (.wake t f) := by
    rw [← h.handles, ← h.registrations f, ← filter_wakes_map_wake]
    simp [handlesOf, World.complete]
  have hregistrations (f' : FutureId) : ((w.complete f status).futures f').callbacks.count t =
      if f' = f then 0 else Source.registrations source f' := by
    by_cases hf : f' = f
    · simp [World.complete, setFuture, hf]
    · simp [World.complete, setFuture, hf, ← h.registrations f']
  refine ⟨hhandles.trans ?_, fun f' => (hregistrations f').trans ?_⟩
  · rcases source with _ | ⟨_ | _ | f''⟩
    case some.registration =>
      by_cases hf : f = f'' <;> simp [Source.handles, Source.registrations, Source.fire, hf]
      simp [Ne.symm hf]
    all_goals simp [Source.handles, Source.registrations, Source.fire]
  · rcases source with _ | ⟨_ | _ | f''⟩
    case some.registration =>
      by_cases hf : f'' = f <;> by_cases hf' : f' = f <;>
        simp_all [Source.registrations, Source.fire]
      exact fun heq => hf heq.symm
    all_goals simp [Source.registrations, Source.fire]

/-- A future that completes turns its registrations into handles. -/
theorem keeps_complete (f : FutureId) (status : Status) : w.Keeps (w.complete f status) t :=
  fun source h => ⟨_, h.complete f status, by cases source <;> rfl, by
    cases source <;> simp⟩

/-- A cancelled future keeps what steps every task. -/
theorem keeps_cancelFuture (f : FutureId) (message : Option Value) :
    w.Keeps (w.cancelFuture f message) t := by
  unfold cancelFuture
  split
  · exact keeps_complete f _
  · exact .refl w t

/-- The cancellation of an awaited future keeps what steps every task. -/
theorem keeps_cancelAwaited (t' : TaskId) (f : FutureId) (message : Option Value) :
    w.Keeps (w.cancelAwaited t' f message) t :=
  (keeps_cancelFuture f message).trans (keeps_note _)

/-- A task that is not registered anywhere gets its source by registering on a future. -/
theorem SourceIs.addDoneCallback (h : w.SourceIs t none) (f : FutureId) :
    ∃ source : Source, (w.addDoneCallback f t).SourceIs t (some source) ∧
      source.future = some f := by
  have hhandles : w.ready.filter (Handle.wakes t) = [] := h.handles
  unfold World.addDoneCallback
  split
  · refine ⟨.registration f, ⟨hhandles, fun f' => ?_⟩, rfl⟩
    have hzero := h.registrations f'
    by_cases hf : f' = f
    · subst hf
      simpa [setFuture, Source.registrations] using hzero
    · simpa [setFuture, hf, Source.registrations] using hzero
  · refine ⟨.wake f, ⟨?_, h.registrations⟩, rfl⟩
    simp [handlesOf, callSoon, hhandles, Handle.wakes, Source.handles]

/-- A task that is not registered anywhere gets its source by being queued. -/
theorem SourceIs.callSoon (h : w.SourceIs t none) (e : Option Exception) :
    (w.callSoon (.step t e)).SourceIs t (some (.step e)) := by
  have hhandles : w.ready.filter (Handle.wakes t) = [] := h.handles
  exact ⟨by simp [handlesOf, World.callSoon, hhandles, Handle.wakes, Source.handles],
    h.registrations⟩

/-- A task that registers on a future keeps what steps every other one. -/
theorem keeps_addDoneCallback {t' : TaskId} (ht : t' ≠ t) (f : FutureId) :
    w.Keeps (w.addDoneCallback f t') t := by
  unfold addDoneCallback
  split
  · intro source h
    refine ⟨source, ⟨h.handles, fun f' => ?_⟩, rfl, rfl⟩
    by_cases hf : f' = f
    · subst hf
      simp [setFuture, ← h.registrations f', ht]
    · simp [setFuture, hf, ← h.registrations f']
  · exact keeps_callSoon (by simpa [Handle.wakes] using ht)

/-- Callbacks wait only on pending futures. -/
def Armed (w : World ρ) : Prop :=
  ∀ f, (w.futures f).callbacks ≠ [] → (w.futures f).status = .pending

/-- No turn of an unfinished task has been lost. -/
def NoTurnLost (w : World ρ) : Prop :=
  ∀ t, .turnLost t ∉ w.log

/-- What `t` does to the world leaves the sources of all other tasks alone. -/
structure Framed (t : TaskId) (w w' : World ρ) : Prop where
  keeps : ∀ t', t' ≠ t → w.Keeps w' t'
  armed : w.Armed → w'.Armed
  noTurnLost : w.NoTurnLost → w'.NoTurnLost

/-- The sources of all tasks are exactly the same. -/
structure Undisturbed (w w' : World ρ) : Prop where
  handles : ∀ t, w'.handlesOf t = w.handlesOf t
  callbacks : ∀ f, (w'.futures f).callbacks = (w.futures f).callbacks
  status : ∀ f, (w'.futures f).status = (w.futures f).status
  noTurnLost : w.NoTurnLost → w'.NoTurnLost

/-- A task that does nothing leaves the sources of all others alone. -/
theorem Framed.refl (t : TaskId) (w : World ρ) : Framed t w w :=
  ⟨fun t' _ => .refl w t', id, id⟩

/-- Two steps that leave the sources of all others alone do so together. -/
theorem Framed.trans {w'' : World ρ} (h : Framed t w w') (h' : Framed t w' w'') :
    Framed t w w'' :=
  ⟨fun t' ht => (h.keeps t' ht).trans (h'.keeps t' ht), h'.armed ∘ h.armed,
    h'.noTurnLost ∘ h.noTurnLost⟩

/-- Two steps that disturb no source disturb none together. -/
theorem Undisturbed.trans {w'' : World ρ} (h : Undisturbed w w') (h' : Undisturbed w' w'') :
    Undisturbed w w'' :=
  ⟨fun t => (h'.handles t).trans (h.handles t), fun f => (h'.callbacks f).trans (h.callbacks f),
    fun f => (h'.status f).trans (h.status f), h'.noTurnLost ∘ h.noTurnLost⟩

/-- Nothing that the sources depend on has changed. -/
theorem Undisturbed.of_eq (hready : w'.ready = w.ready) (hfutures : w'.futures = w.futures)
    (hlog : w'.log = w.log) : Undisturbed w w' :=
  ⟨fun t => by simp only [handlesOf, hready], fun f => by rw [hfutures],
    fun f => by rw [hfutures], fun h => by simpa only [NoTurnLost, hlog] using h⟩

/-- Where nothing happens, no source is disturbed. -/
theorem Undisturbed.refl (w : World ρ) : Undisturbed w w := .of_eq rfl rfl rfl

/-- A task has its source still where none is disturbed. -/
theorem Undisturbed.sourceIs {source : Option Source} (h : Undisturbed w w')
    (hsource : w.SourceIs t source) : w'.SourceIs t source :=
  hsource.congr (h.handles t) h.callbacks

/-- What disturbs no source leaves those of all other tasks alone. -/
theorem Undisturbed.framed (h : Undisturbed w w') (t : TaskId) : Framed t w w' :=
  ⟨fun t' _ => .of_eq (h.handles t') h.callbacks,
    fun harmed f hne => by
      rw [h.status]
      exact harmed f (by rwa [h.callbacks] at hne),
    h.noTurnLost⟩

/-- An observation but that of a lost turn disturbs no source. -/
theorem undisturbed_note {o : Observation} (ho : ∀ t, o ≠ .turnLost t) :
    Undisturbed w (w.note o) :=
  ⟨fun _ => rfl, fun _ => rfl, fun _ => rfl, fun h t hmem =>
    (List.mem_cons.mp hmem).elim (fun heq => ho t heq.symm) (h t)⟩

/-- A queued handle that wakes no task disturbs no source. -/
theorem undisturbed_callSoon {h : Handle} (hwakes : ∀ t, h.wakes t = false) :
    Undisturbed w (w.callSoon h) :=
  ⟨fun t => by simp [handlesOf, callSoon, hwakes t], fun _ => rfl, fun _ => rfl, id⟩

/-- A future that keeps its callbacks and its status disturbs no source. -/
theorem undisturbed_setFuture {f : FutureId} {future : Future}
    (hcallbacks : future.callbacks = (w.futures f).callbacks)
    (hstatus : future.status = (w.futures f).status) : Undisturbed w (w.setFuture f future) := by
  refine ⟨fun _ => rfl, fun f' => ?_, fun f' => ?_, id⟩ <;> by_cases hf : f' = f
  · simp [setFuture, hf, hcallbacks]
  · simp [setFuture, hf]
  · simp [setFuture, hf, hstatus]
  · simp [setFuture, hf]

/-- A queued handle that can only wake `t` leaves the sources of the others alone. -/
theorem framed_callSoon {h : Handle} (hwakes : ∀ t', t' ≠ t → h.wakes t' = false) :
    Framed t w (w.callSoon h) :=
  ⟨fun t' ht => keeps_callSoon (hwakes t' ht), id, id⟩

/-- Where a future completes, no finished one keeps a registration. -/
theorem Armed.complete (h : w.Armed) (f : FutureId) (status : Status) :
    (w.complete f status).Armed := by
  intro f' hne
  by_cases hf : f' = f
  · simp [World.complete, setFuture, hf] at hne
  · simp only [World.complete, setFuture, Function.update_of_ne hf] at hne ⊢
    exact h f' hne

/-- A future that completes leaves the source of every task alone. -/
theorem framed_complete (f : FutureId) (status : Status) : Framed t w (w.complete f status) :=
  ⟨fun _ _ => keeps_complete f status, fun h => h.complete f status, id⟩

/-- A cancelled future leaves the source of every task alone. -/
theorem framed_cancelFuture (f : FutureId) (message : Option Value) :
    Framed t w (w.cancelFuture f message) := by
  unfold cancelFuture
  split
  · exact framed_complete f _
  · exact .refl t w

/-- The cancellation of an awaited future leaves the source of every task alone. -/
theorem framed_cancelAwaited (t' : TaskId) (f : FutureId) (message : Option Value) :
    Framed t w (w.cancelAwaited t' f message) :=
  (framed_cancelFuture f message).trans ((undisturbed_note (by simp)).framed t)

/-- A task that registers on a future leaves the sources of the others alone. -/
theorem framed_addDoneCallback (f : FutureId) : Framed t w (w.addDoneCallback f t) := by
  refine ⟨fun t' ht => keeps_addDoneCallback (Ne.symm ht) f, fun harmed f' hne => ?_, fun h => ?_⟩
  · unfold addDoneCallback at hne ⊢
    split at hne
    · next hpending =>
      rw [if_pos hpending]
      by_cases hf : f' = f
      · simpa [setFuture, hf] using hpending
      · simp only [setFuture, Function.update_of_ne hf] at hne ⊢
        exact harmed f' hne
    · next hdone =>
      rw [if_neg hdone]
      exact harmed f' hne
  · unfold addDoneCallback
    split <;> exact h

/-- Running a handle uses up the source of its task. -/
theorem SourceIs.pop {source : Option Source} {h : Handle} {rest : List Handle}
    (hsource : w.SourceIs t source) (hready : w.ready = h :: rest) (hwakes : h.wakes t = true) :
    source.isSome = true ∧ ({ w with ready := rest } : World ρ).SourceIs t none := by
  have hhandles : Source.handles t source = h :: rest.filter (Handle.wakes t) := by
    rw [← hsource.handles, handlesOf, hready, List.filter_cons_of_pos hwakes]
  rcases source with _ | ⟨_ | _ | _⟩ <;> simp only [Source.handles, List.cons.injEq,
    List.nil_eq, reduceCtorEq] at hhandles
  all_goals exact ⟨rfl, hhandles.2, hsource.registrations⟩

/-- A handle of `t` that is taken from the queue leaves the sources of the others alone. -/
theorem framed_pop {h : Handle} {rest : List Handle} (hready : w.ready = h :: rest)
    (hwakes : ∀ t', t' ≠ t → h.wakes t' = false) : Framed t w { w with ready := rest } :=
  ⟨fun t' ht => .of_eq (by simp [handlesOf, hready, hwakes t' ht]) fun _ => rfl, id, id⟩

/-- A handle that does not wake `t` is taken from the queue without its noticing. -/
theorem keeps_pop {h : Handle} {rest : List Handle} (hready : w.ready = h :: rest)
    (hwakes : h.wakes t = false) : w.Keeps { w with ready := rest } t :=
  .of_eq (by simp [handlesOf, hready, hwakes]) fun _ => rfl

end World

end Asyncio
