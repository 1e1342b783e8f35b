import Rayo.Routing.SyncRoute
import Rayo.Task.ContextBracket
import Rayo.Task.TurnControl

/-!
# An event loop whose handlers raise

What an exception of a handler does at its event loop. One that is printed, or that is the
`CancelledError` of a step, ends its task with the opaque 500. For a `PanicException` the fetch of
the exception resumes the Rust panic, which unwinds out of the turn and leaves the task behind.
-/

namespace Rayo.Containment

open Asyncio HandlerTask

/-- What becomes of an exception of a handler. -/
inductive Fate
  /-- `PyErr::print` logs it. -/
  | printed
  /-- It is an instance of `SystemExit`, for which `PyErr::print` terminates the process. -/
  | exits
  /-- It is a `PanicException`, for which `PyErr::fetch` resumes the panic. -/
  | panics
  deriving DecidableEq

/-- An event loop and its thread. -/
structure LoopThread where
  loop : Loop LoopHandles HandlerTask
  /-- The thread has ended. -/
  ended : Bool

/-- What happens at an event loop. -/
inductive LoopEvent
  | loop (e : Asyncio.Event)
  /-- On the loop thread, `coroutine.close()` raises. -/
  | closeRaised (faults : Faults) (e : Exception)
  | endThread
  /-- `EventLoop::stop` takes a task out of the registry and disposes of it, with what
  `coroutine.close()` raises, if it does. -/
  | dispose (faults : Faults) (t : TaskId) (closeError : Option Exception)

/-- The exception of a handler that is fetched. -/
def LoopEvent.fetched : LoopEvent → Option Exception
  | .loop (.resume _ (.factoryRaised e)) | .loop (.resume _ (.raised e))
  | .closeRaised _ e => some e
  | .dispose _ _ closeError => closeError
  | .loop _ | .endThread => none

/-- The exception of a handler that is passed to `PyErr::print`. -/
def LoopEvent.printed : LoopEvent → Option Exception
  -- `step_once` finishes a cancelled request without a log
  | .loop (.resume _ (.raised e)) => if e.isCancelled then none else some e
  | e => e.fetched

/-- `HandlerTask::dispose`, after the coroutine has been closed. -/
def disposeTask (faults : Faults) (t : TaskId) (l : Local) : Local :=
  finish faults t .internalError .aborted l

namespace LoopThread

/-- `enter_task` fails while asyncio still has a current task. -/
def admits (s : LoopThread) (faults : Faults) : Bool :=
  s.loop.world.currentTask.isNone || faults.enterTask

section

variable (respond : Value → HandlerResponse)

/-- When an event can happen. Other threads can still act on the tasks of a loop that has
stopped. -/
def enabled (s : LoopThread) : LoopEvent → Bool
  | .loop (.act a) => s.loop.enabled (driver respond) (.act a)
  | .loop (.run faults) =>
    !s.ended && s.admits faults && s.loop.enabled (driver respond) (.run faults)
  | .loop (.resume faults (.factoryReturned coroutine context)) =>
    !s.ended && s.admits faults &&
      s.loop.enabled (driver respond) (.resume faults (.factoryReturned coroutine context))
  | .loop (.resume faults input) =>
    !s.ended && s.loop.enabled (driver respond) (.resume faults input)
  | .closeRaised faults _ => !s.ended && s.loop.enabled (driver respond) (.resume faults .closed)
  | .endThread => !s.ended && s.loop.running.isNone
  | .dispose _ t closeError =>
    s.ended && decide (t ∈ s.loop.world.shared.liveTasks) &&
      (closeError.isNone || (s.loop.tasks t).any (·.state.coroutine.isSome))

/-- What an event does, once its exception has been printed. -/
def effect (s : LoopThread) : LoopEvent → LoopThread
  | .loop e => { s with loop := s.loop.effect (driver respond) e }
  | .closeRaised faults _ =>
    { s with loop := s.loop.effect (driver respond) (.resume faults .closed) }
  | .endThread => { s with ended := true }
  | .dispose faults t _ => { s with loop := s.loop.modify t (disposeTask faults t) }

/-- A panic unwinds out of the turn in progress. Nothing that the turn has done is undone: the task
is not finished, and may still be entered. -/
def abandonTurn (s : Loop LoopHandles HandlerTask) : Loop LoopHandles HandlerTask :=
  match s.running with
  | some t => s.drive (driver respond) t (setPhase · .idle)
  | none => s

/-- What an event does whose exception resumes a panic. -/
def unwind (s : LoopThread) : LoopEvent → LoopThread
  | .loop _ | .closeRaised .. => { s with loop := abandonTurn respond s.loop }
  | .endThread => s
  -- `stop` has drained the registry, and does not come to the other tasks any more
  | .dispose .. =>
    { s with loop := { s.loop with world := { s.loop.world with
      shared := { s.loop.world.shared with liveTasks := [] } } } }

/-- A loop thread that has just been started. -/
structure Fresh (s : LoopThread) : Prop where
  loop : Loop.Fresh (driver respond) s.loop
  ended : s.ended = false

end

end LoopThread

/-- An unfinished task still has to send its response, and a finished one is not live any more. -/
structure Owing (t : TaskId) (l : Local) : Prop where
  sender : l.task.state.finished = false → l.task.sender = true
  responses : l.task.state.finished = false → l.world.shared.responses.filter (·.1 = t) = []
  live : t ∈ l.world.shared.liveTasks → l.task.state.finished = false

/-- A task has moved on, and the others have been left alone. -/
structure Moved (t : TaskId) (l l' : Local) : Prop where
  owing : Owing t l'
  aside : ∀ t', t' ≠ t → Aside t' l.world l'.world

section

variable {t : TaskId} {l l' l'' : Local} {faults : Faults} {respond : Value → HandlerResponse}

/-- A task that stays as it is has moved on. -/
theorem Owing.refl (h : Owing t l) : Moved t l l := ⟨h, fun t' _ => .refl t' _⟩

/-- A task that has moved on twice has moved on. -/
theorem Moved.trans (h : Moved t l l') (h' : Moved t l' l'') : Moved t l l'' :=
  ⟨h'.owing, fun t' ht => (h.aside t' ht).trans (h'.aside t' ht)⟩

/-- The task itself has been left alone. -/
theorem Owing.aside {w : World LoopHandles} (h : Owing t l) (haside : Aside t l.world w) :
    Owing t ⟨w, l.task⟩ := by
  refine ⟨h.sender, fun hopen => ?_, fun hlive => ?_⟩
  · exact haside.responses.trans (h.responses hopen)
  · exact h.live (haside.live.mp hlive)

/-- Nothing has been decided. -/
theorem Owing.undecided (h : Owing t l) (hundecided : Undecided t l l') : Moved t l l' := by
  refine ⟨⟨fun hopen => ?_, fun hopen => ?_, fun hlive => ?_⟩, hundecided.aside⟩
  · rw [hundecided.finished] at hopen
    rw [hundecided.sender]
    exact h.sender hopen
  · rw [hundecided.finished] at hopen
    rw [hundecided.shared]
    exact h.responses hopen
  · rw [hundecided.shared] at hlive
    rw [hundecided.finished]
    exact h.live hlive

/-- What the `finish` of an unfinished task does to the data of its loop. -/
theorem finish_shared (faults : Faults) (t : TaskId) (response : HandlerResponse)
    (completion : CompletionKind) (hopen : l.task.state.finished = false)
    (hsender : l.task.sender = true) :
    (finish faults t response completion l).world.shared.liveTasks =
        l.world.shared.liveTasks.filter (· ≠ t) ∧
      (finish faults t response completion l).world.shared.responses =
        (t, response) :: l.world.shared.responses := by
  constructor <;>
    simp [finish, send, hopen, hsender, setState, setWorld, fireCallbacks_eq, unregister_eq]

/-- A task that finishes sends the response it owes. -/
theorem Owing.finish (h : Owing t l) (faults : Faults) (response : HandlerResponse)
    (completion : CompletionKind) :
    Moved t l (HandlerTask.finish faults t response completion l) := by
  refine ⟨?_, fun t' ht => .finish ht faults response completion l⟩
  cases hfinished : l.task.state.finished with
  | true =>
    have hunlive : t ∉ l.world.shared.liveTasks := by
      intro hlive
      cases hfinished.symm.trans (h.live hlive)
    have hstate : (HandlerTask.finish faults t response completion l).task.state.finished =
        true := by
      simp [HandlerTask.finish, hfinished]
    refine ⟨by simp [hstate], by simp [hstate], fun hlive => absurd ?_ hunlive⟩
    simp only [HandlerTask.finish, hfinished, if_true, send] at hlive
    split at hlive <;> exact hlive
  | false =>
    obtain ⟨hstate, -⟩ := finish_task faults t response completion hfinished
    obtain ⟨hlive, -⟩ := finish_shared faults t response completion hfinished (h.sender hfinished)
    refine ⟨by simp [hstate], by simp [hstate], fun hmem => ?_⟩
    simp [hlive] at hmem

/-- A turn that ends answers its request. -/
theorem Owing.answered (h : Owing t l) (hopen : l.task.state.finished = false)
    (response : HandlerResponse) (completion : CompletionKind) :
    (HandlerTask.finish faults t response completion l).world.shared.responses.filter
      (·.1 = t) = [(t, response)] := by
  obtain ⟨-, hresponses⟩ := finish_shared faults t response completion hopen (h.sender hopen)
  rw [hresponses, List.filter_cons_of_pos (by simp), h.responses hopen]

/-- The end of a turn leaves what the task owes. -/
theorem Owing.endTurn (h : Owing t l) (faults : Faults) (entered : Bool) :
    Moved t l (HandlerTask.endTurn faults entered l) :=
  h.undecided (.endTurn faults entered l)

/-- Python code hands control back. -/
theorem Owing.resume (h : Owing t l) (faults : Faults) (input : Input) :
    Moved t l (HandlerTask.resume respond faults t input l) := by
  cases hending : endingOfInput respond l.task.phase input with
  | none => exact h.undecided (.resume hending)
  | some ending =>
    rw [resume_of_ending hending]
    have hfinish := h.finish faults ending.response ending.completion
    exact hfinish.trans (hfinish.owing.endTurn faults ending.entered)

/-- The loop runs a handle of the task. -/
theorem Owing.call (h : Owing t l) (faults : Faults) (finishedFuture : Option FutureId)
    (hphase : l.task.phase = .idle) :
    Moved t l (HandlerTask.call faults t finishedFuture l) := by
  cases hcancelled : cancelledUnstarted l.task.state with
  | false => exact h.undecided (.call hcancelled)
  | true =>
    rw [call_of_cancelledUnstarted hcancelled hphase]
    have htaken : Moved t l (setState l (turnTaken l.task.state)) :=
      h.undecided (.setState rfl rfl rfl)
    have hfinish := htaken.owing.finish faults .internalError
      (.cancelled l.task.state.cancelMessage)
    exact (htaken.trans hfinish).trans (hfinish.owing.endTurn faults false)

/-- A callback that is added leaves what the task owes. -/
theorem Owing.addDoneCallback (h : Owing t l) (callback context : Value) :
    Moved t l (HandlerTask.addDoneCallback t callback context l) := by
  unfold HandlerTask.addDoneCallback
  split
  · exact h.undecided (.callSoon _)
  · exact ⟨⟨h.sender, h.responses, h.live⟩, fun t' _ => .refl t' _⟩

/-- A callback that is removed leaves what the task owes. -/
theorem Owing.removeDoneCallback (h : Owing t l) (callback : Value) :
    Moved t l (Loop.removeDoneCallback (driver respond) callback l) :=
  ⟨⟨h.sender, h.responses, h.live⟩, fun t' _ => .refl t' _⟩

end

/-- Every task of a loop owes its response as long as it is not finished, and nothing is known of
the tasks that the loop has not accepted. -/
structure Accounted (s : Loop LoopHandles HandlerTask) : Prop where
  tasks : ∀ t k, s.tasks t = some k → Owing t ⟨s.world, k⟩
  unlive : ∀ t, s.tasks t = none → t ∉ s.world.shared.liveTasks
  unanswered : ∀ t, s.tasks t = none → s.world.shared.responses.filter (·.1 = t) = []

namespace Accounted

variable {s : Loop LoopHandles HandlerTask} {t : TaskId} {respond : Value → HandlerResponse}

/-- The world moves on without touching a task. -/
theorem world (h : Accounted s) {w : World LoopHandles} (haside : ∀ t, Aside t s.world w) :
    Accounted { s with world := w } := by
  refine ⟨fun t k htask => ?_, fun t hnone hlive => ?_, fun t hnone => ?_⟩
  · exact (h.tasks t k htask).aside (haside t)
  · exact h.unlive t hnone ((haside t).live.mp hlive)
  · exact (haside t).responses.trans (h.unanswered t hnone)

/-- One task moves on, and the world with it. -/
theorem put (h : Accounted s) {l : Local} (howing : Owing t l)
    (haside : ∀ t', t' ≠ t → Aside t' s.world l.world) : Accounted (s.put t l) := by
  have hsame {t' : TaskId} (ht : t' ≠ t) := s.put_tasks_of_ne ht l
  have hself := s.put_tasks_self t l
  refine ⟨fun t' k hk => ?_, fun t' hnone hlive => ?_, fun t' hnone => ?_⟩ <;>
    by_cases ht : t' = t
  · subst ht
    obtain rfl := Option.some.inj (hself.symm.trans hk)
    exact howing
  · rw [hsame ht] at hk
    exact (h.tasks t' k hk).aside (haside t' ht)
  · rw [ht, hself] at hnone
    cases hnone
  · rw [hsame ht] at hnone
    exact h.unlive t' hnone ((haside t' ht).live.mp hlive)
  · rw [ht, hself] at hnone
    cases hnone
  · rw [hsame ht] at hnone
    exact (haside t' ht).responses.trans (h.unanswered t' hnone)

/-- Which turn is running makes no difference to what is owed. -/
theorem running (h : Accounted s) (running : Option TaskId) :
    Accounted { s with running := running } := ⟨h.tasks, h.unlive, h.unanswered⟩

/-- A task runs until Python code has control, or the turn is over. -/
theorem drive (h : Accounted s) {g : Local → Local}
    (hmoved : ∀ k, s.tasks t = some k → Moved t ⟨s.world, k⟩ (g ⟨s.world, k⟩)) :
    Accounted (Loop.drive (driver respond) s t g) := by
  unfold Loop.drive
  split
  · next k hk => exact (h.put (hmoved k hk).owing (hmoved k hk).aside).running _
  · exact h

/-- A call on a task. -/
theorem modify (h : Accounted s) {g : Local → Local}
    (hmoved : ∀ l, Owing t l → Moved t l (g l)) : Accounted (s.modify t g) := by
  unfold Loop.modify
  split
  · next k hk =>
    have hmove := hmoved _ (h.tasks t k hk)
    exact h.put hmove.owing hmove.aside
  · exact h

/-- A cancelled task owes its response still. -/
theorem cancelTask (h : Accounted s) (message : Option Value) :
    Accounted (s.modify t (Loop.cancelTask (driver respond) t message)) :=
  h.modify fun l hl => hl.undecided (Quiet.cancelTask message l).toUndecided

/-- An action of Python code or of another thread. -/
theorem act (h : Accounted s) {a : Action}
    (henabled : Loop.enabled (driver respond) s (.act a) = true) :
    Accounted (s.actEffect (driver respond) a) := by
  cases a with
  | schedule t =>
    have habsent : s.tasks t = none := by simpa [Loop.enabled] using henabled
    refine h.put (l := ⟨(accept t s.world).callSoon (.step t none), new⟩) ?_ fun t' ht => ?_
    · exact ⟨fun _ => rfl, fun _ => h.unanswered t habsent, fun _ => rfl⟩
    · refine ⟨?_, .rfl, rfl, rfl⟩
      simp [accept, World.callSoon, ht]
  | postCancel t => exact h.world fun _ => .of_eq rfl rfl rfl
  | cancel t message => exact h.cancelTask message
  | uncancel t => exact h.modify fun l hl => hl.undecided (Quiet.uncancelTask l).toUndecided
  | cancelling t => exact h.modify fun l hl => hl.undecided (Quiet.cancellingTask l).toUndecided
  | addDoneCallback t callback context =>
    exact h.modify fun l hl => hl.addDoneCallback callback context
  | removeDoneCallback t callback => exact h.modify fun l hl => hl.removeDoneCallback callback
  | complete f status => exact h.world fun _ => .complete f status
  | cancelFuture f message => exact h.world fun _ => .cancelFuture f message
  | setBlocking f blocking => exact h.world fun _ => .of_eq rfl rfl rfl
  | setCancelMode f mode => exact h.world fun _ => .of_eq rfl rfl rfl

/-- The loop runs a handle that steps a task. -/
theorem call (h : Accounted s) (hcontrolled : Controlled s) (hrunning : s.running = none)
    (faults : Faults) (finishedFuture : Option FutureId) {w : World LoopHandles}
    (haside : ∀ t, Aside t s.world w) :
    Accounted (Loop.drive (driver respond) { s with world := w } t
      (HandlerTask.call faults t finishedFuture)) := by
  refine (h.world haside).drive fun k hk => ?_
  exact ((h.tasks t k hk).aside (haside t)).call faults finishedFuture
    (hcontrolled.idle hrunning hk)

/-- **One event of the loop.** -/
theorem effect (h : Accounted s) (hcontrolled : Controlled s) {e : Asyncio.Event}
    (henabled : Loop.enabled (driver respond) s e = true) :
    Accounted (Loop.effect (driver respond) s e) := by
  cases e with
  | act a => exact h.act henabled
  | run faults =>
    simp only [Loop.effect]
    split
    · exact h
    next head rest hready =>
    have hrunning : s.running = none := by
      simp only [Loop.enabled, Bool.and_eq_true, Option.isNone_iff_eq_none] at henabled
      exact henabled.1
    have haside (t : TaskId) : Aside t s.world { s.world with ready := rest } :=
      .of_eq rfl rfl rfl
    cases head with
    | step t e => exact h.call hcontrolled hrunning faults none haside
    | wake t f => exact h.call hcontrolled hrunning faults (some f) haside
    | cancel t => exact (h.world haside).cancelTask none
    | doneCallback => exact h.world haside
  | resume faults input =>
    simp only [Loop.effect]
    split
    · next t hrunning => exact h.drive fun k hk => (h.tasks t k hk).resume faults input
    · exact h

/-- A fresh loop owes nothing. -/
theorem of_fresh (h : Loop.Fresh (driver respond) s) : Accounted s := by
  refine ⟨fun t k htask => ?_, fun t _ => ?_, fun t _ => ?_⟩
  · simp [h.tasks t] at htask
  · simp [h.shared, driver]
  · simp [h.shared, driver]

end Accounted

/-- What happens on a task does not change which turn is running. -/
theorem modify_running {s : Loop LoopHandles HandlerTask} {t : TaskId} {g : Local → Local} :
    (s.modify t g).running = s.running := by
  unfold Loop.modify
  split <;> rfl

/-- An action does not take control. -/
theorem actEffect_running {s : Loop LoopHandles HandlerTask}
    {respond : Value → HandlerResponse} (a : Action) :
    (s.actEffect (driver respond) a).running = s.running := by
  cases a with
  | cancel | uncancel | cancelling | addDoneCallback | removeDoneCallback => exact modify_running
  | _ => rfl

/-- The end of a turn disturbs no source. -/
theorem undisturbed_endTurn (faults : Faults) (entered : Bool) (l : Local) :
    World.Undisturbed l.world (endTurn faults entered l).world := by
  unfold endTurn
  split
  · exact undisturbed_leave faults l
  · exact .refl _

namespace LoopThread

/-- What is known of a loop and its thread between events. -/
structure Sound (s : LoopThread) : Prop where
  accounted : Accounted s.loop
  controlled : Controlled s.loop
  idle : s.ended = true → s.loop.running = none

/-- A task has been answered with the opaque 500, and the loop has been left to the others. -/
structure Resolved (s s' : LoopThread) (t : TaskId) : Prop where
  answered : s'.loop.world.shared.responses.filter (·.1 = t) = [(t, .internalError)]
  running : s'.loop.running = none
  ended : s'.ended = s.ended
  tasks : ∀ t', t' ≠ t → s'.loop.tasks t' = s.loop.tasks t'
  aside : ∀ t', t' ≠ t → Aside t' s.loop.world s'.loop.world
  sources : World.Undisturbed s.loop.world s'.loop.world

variable {s : LoopThread} {respond : Value → HandlerResponse} {t : TaskId} {k : HandlerTask}

/-- A fresh loop with its thread is sound. -/
theorem Sound.of_fresh (h : Fresh respond s) : Sound s := by
  refine ⟨Accounted.of_fresh h.loop, Controlled.of_fresh h.loop, fun hended => ?_⟩
  cases h.ended.symm.trans hended

/-- Only actions of other threads come after the end of the thread. -/
theorem enabled_loop {e : Asyncio.Event} (henabled : s.enabled respond (.loop e) = true) :
    s.loop.enabled (driver respond) e = true ∧ (s.ended = false ∨ ∃ a, e = .act a) := by
  cases e with
  | act a => exact ⟨henabled, .inr ⟨a, rfl⟩⟩
  | run faults =>
    simp only [enabled, Bool.and_eq_true, Bool.not_eq_true'] at henabled
    exact ⟨henabled.2, .inl henabled.1.1⟩
  | resume faults input =>
    cases input with
    | factoryReturned coroutine context =>
      simp only [enabled, Bool.and_eq_true, Bool.not_eq_true'] at henabled
      exact ⟨henabled.2, .inl henabled.1.1⟩
    | _ =>
      simp only [enabled, Bool.and_eq_true, Bool.not_eq_true'] at henabled
      exact ⟨henabled.2, .inl henabled.1⟩

/-- The loop goes on. -/
theorem Sound.going (h : Sound s) {e : Asyncio.Event}
    (henabled : s.loop.enabled (driver respond) e = true)
    (hended : s.ended = false ∨ ∃ a, e = .act a) :
    Sound { s with loop := s.loop.effect (driver respond) e } := by
  refine ⟨h.accounted.effect h.controlled henabled, h.controlled.effect henabled,
    fun hstopped => ?_⟩
  rcases hended with hgoing | ⟨a, rfl⟩
  · cases hgoing.symm.trans hstopped
  · exact (actEffect_running a).trans (h.idle hstopped)

/-- **One event of a loop and its thread.** -/
theorem Sound.effect (h : Sound s) {e : LoopEvent} (henabled : s.enabled respond e = true) :
    Sound (s.effect respond e) := by
  cases e with
  | loop e =>
    obtain ⟨hcan, hended⟩ := enabled_loop henabled
    exact h.going hcan hended
  | closeRaised faults e =>
    simp only [enabled, Bool.and_eq_true, Bool.not_eq_true'] at henabled
    exact h.going henabled.2 (.inl henabled.1)
  | endThread =>
    simp only [enabled, Bool.and_eq_true, Option.isNone_iff_eq_none] at henabled
    exact ⟨h.accounted, h.controlled, fun _ => henabled.2⟩
  | dispose faults t closeError =>
    simp only [enabled, Bool.and_eq_true] at henabled
    have hidle := h.idle henabled.1.1
    refine ⟨?_, ?_, fun _ => modify_running.trans hidle⟩
    · exact h.accounted.modify fun l hl => hl.finish faults .internalError .aborted
    · refine h.controlled.modify (finish_phase faults t .internalError .aborted)
        fun k hk hbusy => absurd (h.controlled.idle hidle hk) hbusy

/-- **One panic.** It leaves everybody accounted for, the task that it has left behind among
them. -/
theorem Sound.unwind (h : Sound s) (e : LoopEvent) : Sound (s.unwind respond e) := by
  have habandon : Sound { s with loop := abandonTurn respond s.loop } := by
    unfold abandonTurn
    split
    · next t hrunning =>
      refine ⟨?_, ?_, fun hended => ?_⟩
      · exact h.accounted.drive (g := (setPhase · .idle)) fun k hk =>
          (h.accounted.tasks t k hk).undecided (.setPhase _)
      · exact h.controlled.drive (g := (setPhase · .idle)) (.inr hrunning) fun k _ hbusy =>
          absurd rfl hbusy
      · cases hrunning.symm.trans (h.idle hended)
    · exact h
  cases e with
  | loop | closeRaised => exact habandon
  | endThread => exact h
  | dispose faults t closeError =>
    refine ⟨⟨fun t k hk => ?_, fun t hnone => List.not_mem_nil, h.accounted.unanswered⟩,
      h.controlled.world _, h.idle⟩
    have howing := h.accounted.tasks t k hk
    exact ⟨howing.sender, howing.responses, fun hlive => absurd hlive List.not_mem_nil⟩

/-- The task that has control has not been answered. -/
theorem Sound.unanswered_of_running (h : Sound s) (hrunning : s.loop.running = some t)
    (hk : s.loop.tasks t = some k) :
    s.loop.world.shared.responses.filter (·.1 = t) = [] :=
  (h.accounted.tasks t k hk).responses
    (h.controlled.unfinished t k hk ((h.controlled.running t k hk).mpr hrunning))

/-- Neither has a task that is still registered. -/
theorem Sound.unanswered_of_live (h : Sound s) (hlive : t ∈ s.loop.world.shared.liveTasks) :
    s.loop.world.shared.responses.filter (·.1 = t) = [] := by
  cases hk : s.loop.tasks t with
  | none => exact h.accounted.unanswered t hk
  | some k =>
    have howing := h.accounted.tasks t k hk
    exact howing.responses (howing.live hlive)

/-- A panic sends no response. -/
theorem unwind_responses (e : LoopEvent) :
    (s.unwind respond e).loop.world.shared.responses = s.loop.world.shared.responses := by
  have habandon : (abandonTurn respond s.loop).world = s.loop.world := by
    unfold abandonTurn
    split
    · unfold Loop.drive
      split <;> rfl
    · rfl
  cases e with
  | loop | closeRaised => simp only [unwind, habandon]
  | endThread | dispose => rfl

/-- A turn that ends with the opaque 500. -/
theorem Sound.resolved_of_ending (h : Sound s) {faults : Faults} {input : Input}
    {completion : CompletionKind} {entered : Bool} (hrunning : s.loop.running = some t)
    (hk : s.loop.tasks t = some k)
    (hending : endingOfInput respond k.phase input = some ⟨.internalError, completion, entered⟩) :
    Resolved s { s with loop := s.loop.effect (driver respond) (.resume faults input) } t := by
  have hopen : k.state.finished = false :=
    h.controlled.unfinished t k hk ((h.controlled.running t k hk).mpr hrunning)
  have howing := h.accounted.tasks t k hk
  have hfinish := howing.finish faults .internalError completion
  have hend := hfinish.owing.endTurn faults entered
  have hresume : HandlerTask.resume respond faults t input ⟨s.loop.world, k⟩ =
      endTurn faults entered (finish faults t .internalError completion ⟨s.loop.world, k⟩) := by
    rw [resume_of_ending (l := ⟨s.loop.world, k⟩) hending]
  have heffect : s.loop.effect (driver respond) (.resume faults input) =
      { s.loop.put t (endTurn faults entered
          (finish faults t .internalError completion ⟨s.loop.world, k⟩)) with
        running := none } := by
    simp [Loop.effect, hrunning, Loop.drive, hk, driver, hresume]
  have hshared := (Undecided.endTurn (t := t) faults entered
    (finish faults t .internalError completion ⟨s.loop.world, k⟩)).shared
  rw [heffect]
  refine ⟨?_, rfl, rfl, fun t' ht => s.loop.put_tasks_of_ne ht _, fun t' ht => ?_, ?_⟩
  · simp only [Loop.put, hshared]
    exact howing.answered hopen .internalError completion
  · exact (hfinish.trans hend).aside t' ht
  · exact (undisturbed_finish faults t .internalError completion ⟨s.loop.world, k⟩).trans
      (undisturbed_endTurn faults entered _)

/-- `EventLoop::stop` disposes of a task. -/
theorem Sound.resolved_of_disposal (h : Sound s) {faults : Faults} (hended : s.ended = true)
    (hlive : t ∈ s.loop.world.shared.liveTasks) :
    Resolved s { s with loop := s.loop.modify t (disposeTask faults t) } t := by
  cases hk : s.loop.tasks t with
  | none => exact absurd hlive (h.accounted.unlive t hk)
  | some k =>
    have howing := h.accounted.tasks t k hk
    have hopen : k.state.finished = false := howing.live hlive
    have hmodify : s.loop.modify t (disposeTask faults t) =
        s.loop.put t (finish faults t .internalError .aborted ⟨s.loop.world, k⟩) := by
      simp [Loop.modify, hk, disposeTask]
    rw [hmodify]
    refine ⟨?_, h.idle hended, rfl, fun t' ht => s.loop.put_tasks_of_ne ht _,
      fun t' ht => ?_, ?_⟩
    · exact howing.answered hopen .internalError .aborted
    · exact (howing.finish faults .internalError .aborted).aside t' ht
    · exact undisturbed_finish faults t .internalError .aborted ⟨s.loop.world, k⟩

end LoopThread

end Rayo.Containment
