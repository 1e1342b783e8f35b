import Rayo.Task.SectionTurns

/-!
# The driver made of sections

A task whose methods run section by section drives its coroutine on a loop. `__call__` stays
suspended while Python code has control, and `cancel` and the methods for callbacks run to their
end meanwhile. This driver agrees with the one whose turns are single steps, and what it does to
one task is what a thread does that uses the task alone.
-/

namespace Rayo

open Asyncio HandlerTask Guarded

namespace OwnLock

/-- A task whose methods run section by section. -/
structure SectionTask where
  state : TaskState
  sender : Bool
  /-- How far `__call__` is. -/
  turn : Paused interface Unit

namespace SectionTask

/-- A task and the data of its loop. -/
abbrev Local := Asyncio.Local LoopHandles SectionTask

/-- What the methods of the task find. -/
def view (l : Local) : TaskState × Surroundings := (l.task.state, ⟨l.world, l.task.sender⟩)

/-- The task as its methods leave it. -/
def putBack (x : TaskState × Surroundings) (turn : Paused interface Unit) : Local :=
  ⟨x.2.world, ⟨x.1, x.2.sender, turn⟩⟩

/-- Run `__call__`, or what is left of it. -/
def drive (E : Environment interface Surroundings) (code : Code Unit) (l : Local) : Local :=
  putBack (code.runIn E (view l)).1 (code.runIn E (view l)).2

/-- Run a method in the middle of `__call__`, or between its turns. -/
def within {α : Type} (E : Environment interface Surroundings) (code : Code α) (l : Local) :
    Local :=
  putBack (code.runIn E (view l)).1 l.task.turn

section

variable (respond : Value → HandlerResponse) (failures : Failures)

/-- `__call__`, until it is over or suspended. -/
def call (faults : Faults) (t : TaskId) (finishedFuture : Option FutureId) (l : Local) : Local :=
  drive (environment respond failures faults t none) (OwnLock.call finishedFuture) l

/-- The call that `__call__` waits for comes back. -/
def resume (faults : Faults) (t : TaskId) (input : Input) (l : Local) : Local :=
  match l.task.turn with
  | .done _ => l
  | .waiting c rest =>
    match replyTo failures input c with
    | some reply => drive (environment respond failures faults t (some input)) (rest reply) l
    | none => l

/-- `__call__` is suspended. -/
def busy (k : SectionTask) : Bool :=
  match k.turn with
  | .done _ => false
  | .waiting .. => true

/-- Control can come back in this way. -/
def accepts (k : SectionTask) (input : Input) : Bool :=
  match k.turn with
  | .done _ => false
  | .waiting c _ => (replyTo failures input c).isSome

/-- What `cancel` tells its caller, and whether the future that was awaited took the request. -/
def cancelReply (absorbed : Bool) : Paused interface Bool → CancelReply
  | .done true => if absorbed then .absorbed else .deferred
  | _ => .finished

/-- `cancel`. -/
def cancel (t : TaskId) (message : Option Value) (l : Local) : Local × CancelReply :=
  let E := environment respond failures .none t none
  (within E (OwnLock.cancel message) l,
    cancelReply (l.task.state.waitingOn.any l.world.acceptsCancel)
      ((OwnLock.cancel message).runIn E (view l)).2)

/-- `uncancel`, which is one section. -/
def uncancel (k : SectionTask) : SectionTask × ℕ :=
  let st := Section.effect .uncancel k.state
  ({ k with state := st }, st.cancelRequests)

/-- `add_done_callback`. -/
def addDoneCallback (t : TaskId) (callback context : Value) (l : Local) : Local :=
  within (environment respond failures .none t none)
    (OwnLock.addDoneCallback callback (some context)) l

/-- What the comparison of a callback with this one answers. -/
def sameCallback (callback existing : Value) : Option Bool := some (existing = callback)

/-- `remove_done_callback`, which is one section. -/
def removeDoneCallback (callback : Value) (k : SectionTask) : SectionTask :=
  { k with state := Section.effect (.removeDoneCallback callback (sameCallback callback)) k.state }

/-- A task whose methods run section by section, as a driver. -/
def driver : Driver LoopHandles SectionTask where
  shared := ⟨[], 0, []⟩
  fresh := ⟨.default, true, .done ()⟩
  accept := HandlerTask.accept
  busy := busy
  accepts := accepts failures
  call faults t _ finishedFuture := call respond failures faults t finishedFuture
  resume := resume respond failures
  cancel := cancel respond failures
  uncancel := uncancel
  cancelling k := k.state.cancelRequests
  addDoneCallback := addDoneCallback respond failures
  removeDoneCallback := removeDoneCallback

end

end SectionTask

section

variable {respond : Value → HandlerResponse} {failures : Failures} {faults : Faults} {t : TaskId}
  {input : Option Input} {l : HandlerTask.Local}

/-- The last part of `cancel` leaves the request for the next step. -/
theorem yields_deferCancel (l : HandlerTask.Local) (hunfinished : l.task.state.finished = false) :
    Yields (environment respond failures faults t input)
      (do let now ← locked .deferCancel; return !now.finished) l
      (setState l { l.task.state with mustCancel := true }) true := by
  have hsection : Yields (environment respond failures faults t input) (locked .deferCancel) l
      (setState l (Section.effect .deferCancel l.task.state)) l.task.state := Yields.locked rfl
  have hdeferred : Section.effect .deferCancel l.task.state =
      { l.task.state with mustCancel := true } := by simp [Section.effect, hunfinished]
  rw [hdeferred] at hsection
  refine hsection.bind ?_
  rw [hunfinished]
  exact .pure true

/-- **The sections and calls of `cancel` are `HandlerTask::cancel`.** -/
theorem yields_cancel (message : Option Value) (l : HandlerTask.Local) :
    Yields (environment respond failures faults t input) (cancel message) l
      (HandlerTask.cancel t message l).1
      (decide ((HandlerTask.cancel t message l).2 ≠ .finished)) := by
  have hsection : Yields (environment respond failures faults t input)
      (locked (.requestCancel message)) l
      (setState l (Section.effect (.requestCancel message) l.task.state)) l.task.state :=
    Yields.locked rfl
  cases hfinished : l.task.state.finished with
  | true =>
    rw [HandlerTask.cancel_of_finished hfinished]
    simp only [Section.effect, hfinished, if_true] at hsection
    refine hsection.bind ?_
    rw [hfinished]
    exact .pure false
  | false =>
    let counted : HandlerTask.Local := setState l (countRequest message l.task.state)
    simp only [Section.effect, hfinished, Bool.false_eq_true, if_false] at hsection
    refine hsection.bind ?_
    simp only [hfinished, Bool.false_eq_true, if_false]
    cases hwaiting : l.task.state.waitingOn with
    | none =>
      rw [HandlerTask.cancel_of_none hfinished hwaiting]
      exact (Yields.pure false).bind (yields_deferCancel counted hfinished)
    | some f =>
      have hanswer : Yields (environment respond failures faults t input)
          (unlocked (.cancelFuture f message)) counted
          (setWorld counted (l.world.cancelAwaited t f message))
          (if l.world.acceptsCancel f then .ok true
            else (failures.refusal f).elim (.ok false) .error) :=
        yields_cancelFuture f message counted
      cases haccepts : l.world.acceptsCancel f with
      | true =>
        rw [HandlerTask.cancel_of_accepts hfinished hwaiting haccepts]
        rw [haccepts, if_pos rfl] at hanswer
        exact hanswer.bind ((Yields.pure true).bind (.pure true))
      | false =>
        rw [HandlerTask.cancel_of_refuses hfinished hwaiting haccepts]
        rw [haccepts, if_neg Bool.false_ne_true] at hanswer
        have hdeferred : Yields (environment respond failures faults t input) _ _ _ true :=
          yields_deferCancel (setWorld counted (l.world.cancelAwaited t f message)) hfinished
        cases hrefusal : failures.refusal f with
        | none =>
          rw [hrefusal] at hanswer
          exact hanswer.bind ((Yields.pure false).bind hdeferred)
        | some e =>
          rw [hrefusal] at hanswer
          exact hanswer.bind ((yields_print e).bind ((Yields.pure false).bind hdeferred))

/-- **The sections and calls of `add_done_callback` are `HandlerTask::add_done_callback`.** -/
theorem yields_addDoneCallback (callback context : Value) (l : HandlerTask.Local) :
    Yields (environment respond failures .none t input) (addDoneCallback callback (some context)) l
      (HandlerTask.addDoneCallback t callback context l) (.ok ()) := by
  have hsection : Yields (environment respond failures .none t input)
      (locked (.addDoneCallback callback context)) l
      (setState l (Section.effect (.addDoneCallback callback context) l.task.state))
      l.task.state := Yields.locked rfl
  unfold HandlerTask.addDoneCallback
  cases hfinished : l.task.state.finished with
  | true =>
    simp only [Section.effect, hfinished, if_true] at hsection
    have hfired : Yields (environment respond failures .none t input)
        (unlocked (.fire callback context)) l
        (setWorld l (l.world.callSoon (.doneCallback t callback context))) (.ok ()) :=
      Yields.unlocked (by simp [environment, attempt, Faults.none])
    refine hsection.bind ?_
    rw [hfinished]
    exact hfired
  | false =>
    have hregistered : Section.effect (.addDoneCallback callback context) l.task.state =
        { l.task.state with
          doneCallbacks := l.task.state.doneCallbacks ++ [(callback, context)] } := by
      simp [Section.effect, hfinished]
    rw [hregistered] at hsection
    refine hsection.bind ?_
    simp only [hfinished]
    exact .pure _

end

/-- What `__call__` waits for depends on the phase and the coroutine only. -/
theorem Suspended.congr {k k₁ : HandlerTask} {turn : Paused interface Unit} (h : Suspended k turn)
    (hphase : k₁.phase = k.phase) (hcoroutine : k₁.state.coroutine = k.state.coroutine) :
    Suspended k₁ turn := by
  cases h with
  | idle hidle => exact .idle (hphase.trans hidle)
  | building hbuilding => exact .building (hphase.trans hbuilding)
  | sent hstepping h => exact .sent (hphase.trans hstepping) (hcoroutine.trans h)
  | threw hstepping h => exact .threw (hphase.trans hstepping) (hcoroutine.trans h)
  | closing hclosing => exact .closing (hphase.trans hclosing)
  | closingEntered hclosing => exact .closingEntered (hphase.trans hclosing)

/-- Code of others can call a method whenever `__call__` is suspended or over. -/
theorem frames_outside (turn : Paused interface Unit) :
    turn.frames [] = [] ∨ ∃ below, turn.frames [] = .outside :: below := by
  cases turn with
  | done _ => exact .inl rfl
  | waiting c rest => exact .inr ⟨_, rfl⟩

/-- A thread that uses a new task has come this far on its own. -/
abbrev Alone (talks : Hook → Bool) : Guarded.Thread interface → Prop :=
  Thread.Alone talks Method.code .default

/-- Every call can be answered. -/
instance (c : Call) : Nonempty (interface.Reply c) := by
  cases c with
  | send | throw => exact ⟨StepOutcome.yielded none⟩
  | _ => exact ⟨default⟩

/-- The task whose turns are single steps, and the task whose methods run section by section. -/
structure Corresponds (talks : Hook → Bool) (k : HandlerTask) (k' : SectionTask) : Prop where
  state : k'.state = k.state
  sender : k'.sender = k.sender
  suspended : Suspended k k'.turn
  paired : Paired k.state
  alone : Alone talks ⟨k.state, false, k'.turn.frames []⟩

section

variable {respond : Value → HandlerResponse} {failures : Failures} {talks : Hook → Bool}
  {t : TaskId} {l l₁ : HandlerTask.Local} {l' : SectionTask.Local}
  {E : Environment interface Surroundings}

/-- Corresponding tasks look the same to the loop. -/
theorem view_eq (h : l.Agree (Corresponds talks) l') : SectionTask.view l' = seen l := by
  simp only [SectionTask.view, seen, h.world, h.task.state, h.task.sender]

/-- A method called in the middle of `__call__` leaves the thread where it was. -/
theorem Alone.within {st : TaskState} {turn : Paused interface Unit}
    (h : Alone talks ⟨st, false, turn.frames []⟩) (m : Method) {x : TaskState × Surroundings}
    (hx : x.1 = st) {a : Unit} (hdone : (m.code.runIn E x).2 = .done a) :
    Alone talks ⟨(m.code.runIn E x).1.1, false, turn.frames []⟩ := by
  subst hx
  have hrun := (h.call (frames_outside turn) m).runIn E m.code
  rwa [hdone] at hrun

/-- A turn that becomes `l₁` does so section by section. -/
theorem Becomes.agree {code : Code Unit} (h : Becomes E code l l₁)
    (hagree : l.Agree (Corresponds talks) l')
    (halone : Alone talks ⟨l.task.state, false, [.running code]⟩) :
    l₁.Agree (Corresponds talks) (SectionTask.drive E code l') := by
  obtain ⟨hseen, hsuspended⟩ := h
  have hview := view_eq hagree
  have hrun := halone.runIn E code (x := seen l)
  have hpaired : Paired (code.runIn E (seen l)).1.1 :=
    Prog.runIn_invariant (fun sect st hst => hst.effect sect) code hagree.task.paired
  unfold SectionTask.drive
  rw [hview]
  rw [hseen] at hrun hpaired ⊢
  exact ⟨rfl, rfl, rfl, hsuspended, hpaired, hrun⟩

/-- Corresponding tasks are in a turn both or neither. -/
theorem busy_eq {k : HandlerTask} {k' : SectionTask} (h : Corresponds talks k k') :
    decide (k.phase ≠ .idle) = k'.busy := by
  have hsuspended := h.suspended
  unfold SectionTask.busy
  generalize k'.turn = turn at hsuspended ⊢
  cases hsuspended with
  | idle hphase => simp [hphase]
  | building hphase | sent hphase | threw hphase | closing hphase | closingEntered hphase =>
    simp [hphase]

/-- Corresponding tasks accept the same inputs. -/
theorem accepts_eq {k : HandlerTask} {k' : SectionTask} (h : Corresponds talks k k')
    (input : Input) : HandlerTask.accepts k input = k'.accepts failures input := by
  have hsuspended := h.suspended
  unfold SectionTask.accepts
  generalize k'.turn = turn at hsuspended ⊢
  cases hsuspended with
  | idle hphase => simp [HandlerTask.accepts, hphase]
  | building hphase => cases input <;> simp [HandlerTask.accepts, hphase, replyTo]
  | sent hphase | threw hphase =>
    cases input with
    | yielded y => cases y <;> simp [HandlerTask.accepts, hphase, replyTo, outcomeOf]
    | _ => simp [HandlerTask.accepts, hphase, replyTo, outcomeOf]
  | closing hphase | closingEntered hphase =>
    cases input <;> simp [HandlerTask.accepts, hphase, replyTo]

/-- A call of a task is its sections. -/
theorem agree_call (h : l.Agree (Corresponds talks) l') (hidle : l.task.phase = .idle)
    (faults : Faults) (finishedFuture : Option FutureId) :
    (HandlerTask.call faults t finishedFuture l).Agree (Corresponds talks)
      (SectionTask.call respond failures faults t finishedFuture l') := by
  refine (becomes_call finishedFuture hidle h.task.paired).agree h ?_
  have halone := h.task.alone
  have hsuspended := h.task.suspended
  generalize l'.task.turn = turn at halone hsuspended
  cases hsuspended with
  | idle _ => exact halone.call (.inl rfl) (.call finishedFuture)
  | building hphase | sent hphase | threw hphase | closing hphase | closingEntered hphase =>
    rw [hidle] at hphase
    cases hphase

/-- A turn that goes on is its sections. -/
theorem agree_resume (h : l.Agree (Corresponds talks) l') (faults : Faults) {i : Input}
    (haccepts : HandlerTask.accepts l.task i = true) :
    (HandlerTask.resume respond faults t i l).Agree (Corresponds talks)
      (SectionTask.resume respond failures faults t i l') := by
  have hboth : HandlerTask.accepts l.task i = l'.task.accepts failures i := accepts_eq h.task i
  rw [hboth] at haccepts
  have halone := h.task.alone
  have hsuspended := h.task.suspended
  unfold SectionTask.accepts at haccepts
  unfold SectionTask.resume
  cases hturn : l'.task.turn with
  | done a => simp [hturn] at haccepts
  | waiting c rest =>
    rw [hturn] at halone hsuspended
    simp only [hturn] at haccepts
    obtain ⟨reply, hreply⟩ := Option.isSome_iff_exists.mp haccepts
    simp only [hreply]
    exact (becomes_resume hsuspended hreply).agree h (halone.reply reply)

/-- A method that is over leaves the two tasks alike if it leaves phase and coroutine alone. -/
theorem Yields.agree {α : Type} {code : Code α} {a : α} (hyields : Yields E code l l₁ a)
    (h : l.Agree (Corresponds talks) l') {m : Method} (hm : m.code = returning code)
    (hphase : l₁.task.phase = l.task.phase)
    (hcoroutine : l₁.task.state.coroutine = l.task.state.coroutine) :
    l₁.Agree (Corresponds talks) (SectionTask.within E code l') := by
  have hmethod : m.code.runIn E (seen l) = (seen l₁, .done ()) := by
    rw [hm]
    exact Prog.runIn_bind_of_done hyields
  have hpaired : Paired (code.runIn E (seen l)).1.1 :=
    Prog.runIn_invariant (fun sect st hst => hst.effect sect) code h.task.paired
  have halone : Alone talks ⟨(m.code.runIn E (seen l)).1.1, false, l'.task.turn.frames []⟩ :=
    h.task.alone.within m rfl (a := ()) (by rw [hmethod])
  unfold SectionTask.within
  rw [view_eq h]
  rw [hmethod] at halone
  rw [hyields] at hpaired ⊢
  exact ⟨rfl, rfl, rfl, h.task.suspended.congr hphase hcoroutine, hpaired, halone⟩

/-- A cancellation keeps phase and coroutine of its task. -/
theorem cancel_keeps (message : Option Value) (l : HandlerTask.Local) :
    (HandlerTask.cancel t message l).1.task.phase = l.task.phase ∧
      (HandlerTask.cancel t message l).1.task.state.coroutine = l.task.state.coroutine := by
  let kept (l' : HandlerTask.Local) : Prop :=
    l'.task.phase = l.task.phase ∧ l'.task.state.coroutine = l.task.state.coroutine
  exact HandlerTask.cancel_cases (P := fun r => kept r.1) (fun _ => ⟨rfl, rfl⟩)
    (fun _ _ _ _ => ⟨rfl, rfl⟩) (fun _ _ _ _ => ⟨rfl, rfl⟩) fun _ _ => ⟨rfl, rfl⟩

/-- The answer of `cancel` is read off from what it returns and from the awaited future. -/
theorem cancelReply_eq (message : Option Value) (l : HandlerTask.Local) :
    SectionTask.cancelReply (l.task.state.waitingOn.any l.world.acceptsCancel)
      (.done (decide ((HandlerTask.cancel t message l).2 ≠ .finished))) =
      (HandlerTask.cancel t message l).2 := by
  let absorbed : Bool := l.task.state.waitingOn.any l.world.acceptsCancel
  refine HandlerTask.cancel_cases
    (P := fun r => SectionTask.cancelReply absorbed (.done (decide (r.2 ≠ .finished))) = r.2)
    (fun _ => rfl) (fun f _ hwaiting haccepts => ?_) (fun f _ hwaiting hrefuses => ?_)
    fun _ hnone => ?_
  · simp [SectionTask.cancelReply, absorbed, hwaiting, haccepts]
  · simp [SectionTask.cancelReply, absorbed, hwaiting, hrefuses]
  · simp [SectionTask.cancelReply, absorbed, hnone]

/-- A cancellation is its sections. -/
theorem agree_cancel (h : l.Agree (Corresponds talks) l') (message : Option Value) :
    (HandlerTask.cancel t message l).1.Agree (Corresponds talks)
      (SectionTask.cancel respond failures t message l').1 ∧
    (HandlerTask.cancel t message l).2 =
      (SectionTask.cancel respond failures t message l').2 := by
  have hyields : Yields (environment respond failures .none t none) (cancel message) l _ _ :=
    yields_cancel message l
  obtain ⟨hphase, hcoroutine⟩ := cancel_keeps (t := t) message l
  refine ⟨hyields.agree h (m := .cancel message) rfl hphase hcoroutine, ?_⟩
  rw [Yields, ← view_eq h] at hyields
  simp only [SectionTask.cancel, hyields, h.task.state, ← h.world, cancelReply_eq]

/-- A callback that is added is its sections. -/
theorem agree_addDoneCallback (h : l.Agree (Corresponds talks) l') (callback context : Value) :
    (HandlerTask.addDoneCallback t callback context l).Agree (Corresponds talks)
      (SectionTask.addDoneCallback respond failures t callback context l') := by
  have hyields : Yields (environment respond failures .none t none) _ l _ _ :=
    yields_addDoneCallback callback context l
  have hkept : (HandlerTask.addDoneCallback t callback context l).task.phase = l.task.phase ∧
      (HandlerTask.addDoneCallback t callback context l).task.state.coroutine =
        l.task.state.coroutine := by
    unfold HandlerTask.addDoneCallback
    split <;> exact ⟨rfl, rfl⟩
  exact hyields.agree h (m := .addDoneCallback callback (some context)) rfl hkept.1 hkept.2

/-- A method that is one section. -/
theorem Corresponds.section {k : HandlerTask} {k' : SectionTask} (h : Corresponds talks k k')
    (m : Method) {sect : Section} (hm : m.code = returning (locked sect)) {st : TaskState}
    (hst : sect.effect k.state = st) (hcoroutine : st.coroutine = k.state.coroutine) :
    Corresponds talks { k with state := st } { k' with state := sect.effect k'.state } where
  state := by rw [h.state, hst]
  sender := h.sender
  suspended := h.suspended.congr rfl hcoroutine
  paired := hst ▸ h.paired.effect sect
  alone := by
    have hcalled := h.alone.call (frames_outside k'.turn) m
    rw [hm] at hcalled
    rw [← hst]
    have hheld := hcalled.next .step trivial rfl
    exact hheld.holding.next .step trivial rfl

/-- The driver made of sections agrees with the one whose turns are single steps. -/
theorem drivers_agree (respond : Value → HandlerResponse) (failures : Failures)
    (talks : Hook → Bool) :
    (HandlerTask.driver respond).Agrees (SectionTask.driver respond failures)
      (Corresponds talks) where
  shared := rfl
  fresh := ⟨rfl, rfl, .idle rfl, fun h => (Bool.false_ne_true h).elim, .start⟩
  idle := rfl
  accept := rfl
  busy := busy_eq
  accepts input h := accepts_eq h input
  call faults t _ finishedFuture l l' h hbusy :=
    agree_call h (by simpa [HandlerTask.driver] using hbusy) faults finishedFuture
  resume faults t input l l' h haccepts := agree_resume h faults haccepts
  cancel t message l l' h := agree_cancel h message
  cancel_busy t message l := by simp only [HandlerTask.driver, (cancel_keeps message l).1]
  uncancel h := by
    refine ⟨h.section .uncancel rfl rfl rfl, ?_⟩
    simp only [HandlerTask.driver, HandlerTask.uncancel, SectionTask.driver, SectionTask.uncancel,
      Section.effect, h.state]
  uncancel_busy _ := rfl
  cancelling h := congrArg TaskState.cancelRequests h.state.symm
  addDoneCallback t callback context l l' h := agree_addDoneCallback h callback context
  addDoneCallback_busy t callback context l := by
    simp only [HandlerTask.driver, HandlerTask.addDoneCallback]
    split <;> rfl
  removeDoneCallback callback k k' h := by
    have hsection : Section.effect
        (.removeDoneCallback callback (SectionTask.sameCallback callback)) k.state =
        (HandlerTask.removeDoneCallback callback k).state := by
      simp [Section.effect, Section.removes, SectionTask.sameCallback,
        HandlerTask.removeDoneCallback]
    exact h.section (.removeDoneCallback callback (SectionTask.sameCallback callback)) rfl hsection
      rfl
  removeDoneCallback_busy _ _ := rfl

end

/-- The two drivers on loops that begin with the same futures. -/
def bothDrivers (respond : Value → HandlerResponse) (failures : Failures) :
    Transition.System (Loop LoopHandles HandlerTask × Loop LoopHandles SectionTask)
      Asyncio.Event :=
  (Loop.system (HandlerTask.driver respond)).lockstep
    (Loop.system (SectionTask.driver respond failures)) fun a b =>
      a.world.loop = b.world.loop ∧ a.world.futures = b.world.futures

/-- **Turns are their sections and calls.** Along every run of the two loops over the same events,
their data and the running task are the same, the same events can happen next, and each task is
in the same state. It waits in the call that its phase stands for, where a thread that uses the
task alone can be. -/
theorem turns_are_sections {respond : Value → HandlerResponse} {failures : Failures}
    (talks : Hook → Bool) {s : Loop LoopHandles HandlerTask × Loop LoopHandles SectionTask}
    (hreach : (bothDrivers respond failures).Reaches s) :
    s.1.world = s.2.world ∧ s.1.running = s.2.running ∧
      (∀ e, s.1.enabled (HandlerTask.driver respond) e =
        s.2.enabled (SectionTask.driver respond failures) e) ∧
      ∀ t, Option.Rel (Corresponds talks) (s.1.tasks t) (s.2.tasks t) := by
  have hagree := drivers_agree respond failures talks
  have hboth := hagree.lockstep hreach
  exact ⟨hboth.world, hboth.running, hboth.enabled_eq hagree, hboth.tasks⟩

/-- A task is scheduled, its handler called, and its coroutine parks on future 3. -/
theorem turns_are_sections_parkingRun :
    ∃ s : Loop LoopHandles HandlerTask × Loop LoopHandles SectionTask,
      (s.1.world = s.2.world ∧ s.1.running = s.2.running) ∧
      (s.2.tasks 0).map (fun k => (k.state.waitingOn, k.state.registeredWithAsyncio, k.busy)) =
        some (some 3, true, false) := by
  let failures : Failures := ⟨fun _ => .other 0, fun _ => .ok (), fun _ => none⟩
  have hstart : (bothDrivers (fun _ => .noContent) failures).Reaches
      (Loop.fresh (HandlerTask.driver fun _ => .noContent) 0 awaitedFutures,
        Loop.fresh (SectionTask.driver (fun _ => .noContent) failures) 0 awaitedFutures) :=
    .init ⟨Loop.Fresh.fresh _ fun _ => rfl, Loop.Fresh.fresh _ fun _ => rfl, rfl, rfl⟩
  have hscheduled := hstart.step (e := Event.act (.schedule 0)) trivial rfl
  have hcalled := hscheduled.step (e := Event.run .none) trivial rfl
  have hstepped := hcalled.step (e := Event.resume .none (.factoryReturned 7 8)) trivial rfl
  have hparked := hstepped.step (e := Event.resume .none (.yielded (.future 3))) trivial rfl
  have hsame := turns_are_sections (fun _ => false) hparked
  exact ⟨_, ⟨hsame.1, hsame.2.1⟩, rfl⟩

end OwnLock

end Rayo
