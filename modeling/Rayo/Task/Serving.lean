import Mathlib.Data.List.Infix
import Rayo.Coroutine
import Rayo.Task.WakeSource

/-!
# Handler coroutines on the loop

So far the Python code that a task steps could do anything. Here it is a handler: a coroutine
function with its own points, which reaches futures through `await` and may hand anything to the
loop with a bare `yield`. The task is driven as before. What is new is that each resumption
goes on from the point where the coroutine was suspended, with what the driver has sent or thrown,
and that what comes back is the next move from there. Everything else that runs on the loop, the
handler's own side effects included, is still free to act at any time.
-/

namespace Rayo

open Asyncio HandlerTask Coroutine

/-- A coroutine function as the loop sees it. -/
abbrev HandlerCode (Point : Type) := Program Point FutureId Value Asyncio.Exception Yielded

/-- Where the coroutine of a task is. -/
inductive CoroutineFrame (Point : Type)
  /-- It has not been entered yet. -/
  | created (p : Point)
  /-- It has handed control back from the move at this point. -/
  | suspended (p : Point)
  /-- It has control. -/
  | running (p : Point)
  /-- It has control, but all it does is raise what was thrown into it before it started. -/
  | raising (e : Asyncio.Exception)

/-- An event loop and the coroutines of its tasks. -/
structure Serving (Point : Type) where
  loop : Loop LoopHandles HandlerTask
  frames : TaskId → Option (CoroutineFrame Point)

/-- What `future.result()` returns or raises on a future that is done. `values` are the results of
the futures that have one. -/
def settled (values : FutureId → Value) (w : World LoopHandles) (f : FutureId) :
    Option (Except Asyncio.Exception Value) :=
  match (w.futures f).status with
  | .pending => none
  | .result => some (.ok (values f))
  | .exception e => some (.error e)
  | .cancelled message => some (.error (.cancelledError message))

/-- The error of an await that is resumed before its future is done. -/
def notAwaited : Asyncio.Exception := .protocolError "await wasn't used with future"

/-- The operation that the driver has just performed on a coroutine: what it has thrown, if it
has thrown anything. -/
def thrown (w : World LoopHandles) : Option Asyncio.Exception :=
  match w.log.head? with
  | some (.threw _ e) => some e
  | _ => none

namespace Serving

/-- The events of a loop that serves handlers. -/
inductive Event
  /-- The loop runs the oldest handle of its queue. -/
  | run (faults : Faults)
  /-- The handler is called. The coroutine object and its context are new objects. -/
  | build (faults : Faults) (coroutine context : Value)
  /-- The running coroutine goes on to its next suspension, or past an await of a future that is
  done already. -/
  | execute (faults : Faults)
  /-- `coroutine.close()` is over. -/
  | close (faults : Faults)
  | act (a : Action)

/-- What the driver does, for the events in which control comes back to it. -/
def Event.probe : Event → Asyncio.Event
  | .run faults => .run faults
  | .build faults coroutine context => .resume faults (.factoryReturned coroutine context)
  | .execute faults => .resume faults (.yielded .none)
  | .close faults => .resume faults .closed
  | .act a => .act a

/-- None of the calls that the driver makes into Python fails. -/
def Event.Faultless : Event → Prop
  | .run faults | .build faults _ _ | .execute faults | .close faults => faults = .none
  | .act _ => True

/-- A call that the driver makes in a turn of `t` fails. It is the turn of the task whose Python code
has control, or of the one whose handle is the next. -/
def Event.FailsFor {Point : Type} (t : TaskId) (s : Serving Point) (e : Event) : Prop :=
  ¬e.Faultless ∧ (s.loop.running = some t ∨
    (s.loop.running = none ∧ s.loop.world.ready.head?.any (·.wakes t) = true))

section

variable {Point : Type} (respond : Value → HandlerResponse) (P : HandlerCode Point)
  (values : FutureId → Value) (entry : TaskId → Except Asyncio.Exception Point)

/-- How the await of a future goes on when the coroutine is resumed: `Future.__await__` raises
what was thrown into it, and else asks the future again. -/
def resumeAwait (w : World LoopHandles) (f : FutureId) :
    Option Asyncio.Exception → Except Asyncio.Exception Value
  | some e => .error e
  | none => (settled values w f).getD (.error notAwaited)

/-- `coroutine.send(None)` or `coroutine.throw(e)`. -/
def resumeFrame (w : World LoopHandles) (thrown : Option Asyncio.Exception) :
    CoroutineFrame Point → CoroutineFrame Point
  | .created p => match thrown with
    | none => .running p
    | some e => .raising e
  | .suspended p => .running <| match P p with
    | .awaits f next => next (resumeAwait values w f thrown)
    | .yields _ next => next thrown
    | .returns _ | .raises _ => p
  | frame => frame

/-- Change where the coroutine of a task is. -/
def setFrame (s : Serving Point) (t : TaskId) (frame : Option (CoroutineFrame Point)) :
    Serving Point :=
  { s with frames := Function.update s.frames t frame }

/-- Let the driver perform an event. -/
def drive (s : Serving Point) (e : Asyncio.Event) : Serving Point :=
  { s with loop := Loop.effect (driver respond) s.loop e }

/-- If the driver has advanced a coroutine, the coroutine has control now. -/
def handOver (s : Serving Point) : Serving Point :=
  match s.loop.running with
  | some t =>
    if (s.loop.tasks t).any (·.phase = .stepping) then
      s.setFrame t
        ((s.frames t).map (resumeFrame P values s.loop.world (thrown s.loop.world)))
    else s
  | none => s

/-- The coroutine of `t` makes the move at the point where it is. -/
def move (faults : Faults) (s : Serving Point) (t : TaskId) (p : Point) : Serving Point :=
  match P p with
  | .returns value => (s.setFrame t none).drive respond (.resume faults (.returned value))
  | .raises e => (s.setFrame t none).drive respond (.resume faults (.raised e))
  | .yields y _ => (s.setFrame t (some (.suspended p))).drive respond (.resume faults (.yielded y))
  | .awaits f next => match settled values s.loop.world f with
    | some answer => s.setFrame t (some (.running (next answer)))
    -- `Future.__await__` sets the flag and yields the future
    | none =>
      ((s.setFrame t (some (.suspended p))).drive respond (.act (.setBlocking f true))).drive
        respond (.resume faults (.yielded (.future f)))

/-- The coroutine that has control goes on. -/
def execute (faults : Faults) (s : Serving Point) (t : TaskId) : Serving Point :=
  match s.frames t with
  | some (.running p) => move respond P values faults s t p
  | some (.raising e) => (s.setFrame t none).drive respond (.resume faults (.raised e))
  | _ => s

/-- The handler is called with the request's arguments. -/
def build (faults : Faults) (coroutine context : Value) (s : Serving Point) (t : TaskId) :
    Serving Point :=
  match entry t with
  | .ok p => handOver P values <| (s.setFrame t (some (.created p))).drive respond
      (.resume faults (.factoryReturned coroutine context))
  | .error e => s.drive respond (.resume faults (.factoryRaised e))

/-- The coroutine is closed. -/
def close (faults : Faults) (s : Serving Point) (t : TaskId) : Serving Point :=
  (s.setFrame t none).drive respond (.resume faults .closed)

/-- The task whose Python code has control is the one that goes on. -/
def inControl (s : Serving Point) (g : TaskId → Serving Point) : Serving Point :=
  match s.loop.running with
  | some t => g t
  | none => s

/-- What an event does. -/
def effect (s : Serving Point) : Event → Serving Point
  | .run faults => handOver P values (s.drive respond (.run faults))
  | .build faults coroutine context =>
    s.inControl (build respond P values entry faults coroutine context s)
  | .execute faults => s.inControl (execute respond P values faults s)
  | .close faults => s.inControl (close respond faults s)
  | .act a => s.drive respond (.act a)

/-- All runs of a loop that serves handlers. -/
def system : Transition.System (Serving Point) Event where
  init s := Loop.Fresh (driver respond) s.loop ∧ ∀ t, s.frames t = none
  enabled s e := Loop.enabled (driver respond) s.loop e.probe
  effect := effect respond P values entry

end

variable {Point : Type} {respond : Value → HandlerResponse} {P : HandlerCode Point}
  {values : FutureId → Value} {entry : TaskId → Except Asyncio.Exception Point}
  {s : Serving Point} {t : TaskId}

/-- A frame is no part of the loop. -/
@[simp] theorem setFrame_loop (s : Serving Point) (t : TaskId)
    (frame : Option (CoroutineFrame Point)) : (s.setFrame t frame).loop = s.loop := rfl

/-- The frame that has been set is there. -/
@[simp] theorem setFrame_frames_self (s : Serving Point) (t : TaskId)
    (frame : Option (CoroutineFrame Point)) : (s.setFrame t frame).frames t = frame :=
  Function.update_self _ _ _

/-- A frame that is there already changes nothing. -/
@[simp] theorem setFrame_self (s : Serving Point) (t : TaskId) :
    s.setFrame t (s.frames t) = s := by
  simp [setFrame]

/-- The frames of other tasks stay. -/
theorem setFrame_frames_of_ne {t' : TaskId} (ht : t' ≠ t) (frame : Option (CoroutineFrame Point)) :
    (s.setFrame t frame).frames t' = s.frames t' :=
  Function.update_of_ne ht _ _

/-- The driver takes the event on its loop. -/
@[simp] theorem drive_loop (s : Serving Point) (e : Asyncio.Event) :
    (s.drive respond e).loop = Loop.effect (driver respond) s.loop e := rfl

/-- The driver has no part in the frames. -/
@[simp] theorem drive_frames (s : Serving Point) (e : Asyncio.Event) :
    (s.drive respond e).frames = s.frames := rfl

/-- What the coroutine hands over leaves the loop as it is. -/
@[simp] theorem handOver_loop (s : Serving Point) : (handOver P values s).loop = s.loop := by
  unfold handOver
  split
  · split <;> rfl
  · rfl

/-- The task whose Python code has control is in the middle of a phase that accepts input. -/
theorem enabled_resume_congr {loop : Loop LoopHandles HandlerTask} {faults faults' : Faults}
    {input input' : Input} (hsame : ∀ k : HandlerTask, accepts k input = accepts k input') :
    Loop.enabled (driver respond) loop (.resume faults input) =
      Loop.enabled (driver respond) loop (.resume faults' input') := by
  simp only [Loop.enabled, driver]
  split
  · congr 1
    funext k
    exact hsame k
  · rfl

/-- A coroutine that has control may end or yield. -/
theorem accepts_stepping {k : HandlerTask} {input : Input}
    (hinput : (∃ value, input = .returned value) ∨ (∃ e, input = .raised e) ∨
      ∃ y, input = .yielded y) : accepts k input = accepts k (.yielded .none) := by
  rcases hinput with ⟨_, rfl⟩ | ⟨_, rfl⟩ | ⟨_, rfl⟩ <;> cases hphase : k.phase <;>
    simp [accepts, hphase]

section

variable {faults : Faults} {loop : Loop LoopHandles HandlerTask}

/-- Going on with a run of the loop. -/
theorem reaches_effect {e : Asyncio.Event} (h : (Loop.system (driver respond)).Reaches loop)
    (henabled : Loop.enabled (driver respond) loop e = true) :
    (Loop.system (driver respond)).Reaches (Loop.effect (driver respond) loop e) :=
  .step h trivial henabled

/-- A move of the coroutine is some events of the loop. -/
theorem reaches_move (h : (Loop.system (driver respond)).Reaches s.loop)
    (henabled : Loop.enabled (driver respond) s.loop (.resume faults (.yielded .none)) = true)
    (p : Point) :
    (Loop.system (driver respond)).Reaches (move respond P values faults s t p).loop := by
  have hends {input : Input} (hinput : (∃ value, input = .returned value) ∨
      (∃ e, input = .raised e) ∨ ∃ y, input = .yielded y) :
      Loop.enabled (driver respond) s.loop (.resume faults input) = true := by
    rw [enabled_resume_congr fun k => accepts_stepping hinput]
    exact henabled
  unfold move
  split
  · exact reaches_effect h (hends (.inl ⟨_, rfl⟩))
  · exact reaches_effect h (hends (.inr (.inl ⟨_, rfl⟩)))
  · exact reaches_effect h (hends (.inr (.inr ⟨_, rfl⟩)))
  · split
    · exact h
    · next f _ _ _ _ =>
      have hflag : Loop.enabled (driver respond) s.loop (.act (.setBlocking f true)) = true := rfl
      have hyields : Loop.enabled (driver respond)
          (Loop.effect (driver respond) s.loop (.act (.setBlocking f true)))
          (.resume faults (.yielded (.future f))) = true := hends (.inr (.inr ⟨_, rfl⟩))
      exact reaches_effect (reaches_effect h hflag) hyields

end

/-- Under each event of the coroutines there are some events of the loop. -/
theorem loop_step {e : Event} (h : (Loop.system (driver respond)).Reaches s.loop)
    (henabled : Loop.enabled (driver respond) s.loop e.probe = true) :
    (Loop.system (driver respond)).Reaches (effect respond P values entry s e).loop := by
  have hcontrol {g : TaskId → Serving Point}
      (hg : ∀ t, (Loop.system (driver respond)).Reaches (g t).loop) :
      (Loop.system (driver respond)).Reaches (s.inControl g).loop := by
    unfold inControl
    split
    · exact hg _
    · exact h
  cases e with
  | act a => exact reaches_effect h henabled
  | run faults =>
    simp only [effect, handOver_loop]
    exact reaches_effect h henabled
  | build faults coroutine context =>
    refine hcontrol fun t => ?_
    unfold build
    split
    · rw [handOver_loop]
      exact reaches_effect h henabled
    · next e _ =>
      have hbuilding (k : HandlerTask) : accepts k (.factoryRaised e) =
          accepts k (.factoryReturned coroutine context) := by
        cases hphase : k.phase <;> simp [accepts, hphase]
      exact reaches_effect h ((enabled_resume_congr hbuilding).trans henabled)
  | execute faults =>
    refine hcontrol fun t => ?_
    unfold execute
    split
    · exact reaches_move h henabled _
    · next e _ =>
      have hends (k : HandlerTask) : accepts k (.raised e) = accepts k (.yielded .none) :=
        accepts_stepping (.inr (.inl ⟨_, rfl⟩))
      exact reaches_effect h ((enabled_resume_congr hends).trans henabled)
    · exact h
  | close faults => exact hcontrol fun t => reaches_effect h henabled

end Serving

end Rayo
