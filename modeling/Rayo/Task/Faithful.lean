import Rayo.Task.HandlerInvariant

/-!
# Every task keeps to the code of its handler

The invariant of a loop that serves requests. One task moves on while the others stay where they
are, and calls on a task leave what its handler waits for alone.
-/

namespace Rayo

open Asyncio Asyncio.World HandlerTask Coroutine TaskState

variable {Point : Type}

section

variable (respond : Value → HandlerResponse) (P : HandlerCode Point) (values : FutureId → Value)
  (entry : TaskId → Except Asyncio.Exception Point) (faulty : TaskId → Prop)

/-- Every task keeps to the code of its handler. -/
structure Faithful (s : Serving Point) : Prop where
  fired : Fired s.loop.world
  tasks : ∀ t k, s.loop.tasks t = some k →
    Follows respond P values entry (faulty t) t ⟨s.loop.world, k⟩ (s.frames t)
  absent : ∀ t, s.loop.tasks t = none →
    s.loop.world.shared.responses.filter (·.1 = t) = [] ∧ s.frames t = none

end

/-- Between callbacks no task is in the middle of anything. -/
theorem HandlerTask.Wakeful.idle {loop : Loop LoopHandles HandlerTask} (h : Wakeful loop)
    (hbetween : loop.running = none) {t : TaskId} {k : HandlerTask}
    (htask : loop.tasks t = some k) : k.phase = .idle := by
  by_contra hbusy
  simp [(h.running t k htask).mp hbusy] at hbetween

/-- An unfinished task waits for a pending future that it is registered with, or for a handle that
is queued. -/
theorem HandlerTask.Wakeful.waits {loop : Loop LoopHandles HandlerTask} (h : Wakeful loop)
    (hbetween : loop.running = none) {t : TaskId} {k : HandlerTask}
    (htask : loop.tasks t = some k) (hopen : k.state.finished = false) :
    (∃ f, k.state.waitingOn = some f ∧ (loop.world.futures f).status = .pending ∧
      (loop.world.futures f).callbacks.count t = 1) ∨
    ∃ handle ∈ loop.world.ready, handle.wakes t = true := by
  obtain ⟨source, hsource, hwaiting, hsome⟩ := (h.tasks t k htask).source
  obtain ⟨source, rfl⟩ := Option.isSome_iff_exists.mp
    (hsome.mpr ⟨h.idle hbetween htask, hopen⟩)
  have hqueued {handle : Handle} (hhandles : Source.handles t (some source) = [handle]) :
      ∃ handle ∈ loop.world.ready, handle.wakes t = true := by
    have hmem : handle ∈ loop.world.handlesOf t := by
      rw [hsource.handles, hhandles]
      exact List.mem_singleton_self handle
    obtain ⟨hready, hwakes⟩ := List.mem_filter.mp hmem
    exact ⟨handle, hready, hwakes⟩
  cases source with
  | registration f =>
    have hcount : (loop.world.futures f).callbacks.count t = 1 := by
      simpa [Source.registrations] using hsource.registrations f
    refine .inl ⟨f, hwaiting.symm, h.armed f fun hempty => ?_, hcount⟩
    simp [hempty] at hcount
  | step e => exact .inr (hqueued rfl)
  | wake f => exact .inr (hqueued rfl)

namespace Faithful

variable {respond : Value → HandlerResponse} {P : HandlerCode Point} {values : FutureId → Value}
  {entry : TaskId → Except Asyncio.Exception Point} {faulty : TaskId → Prop} {s s' : Serving Point}
  {t : TaskId} {l : HandlerTask.Local} {faults : Faults}

/-- One task moves on, and the data of the loop with it. -/
theorem put (h : Faithful respond P values entry faulty s)
    (hworld : s'.loop.world = l.world)
    (htasks : s'.loop.tasks = Function.update s.loop.tasks t (some l.task))
    (hframes : ∀ t', t' ≠ t → s'.frames t' = s.frames t')
    (hturn : Followed respond P values entry (faulty t) t s.loop.world l (s'.frames t)) :
    Faithful respond P values entry faulty s' := by
  refine ⟨hworld ▸ hturn.goes.fired h.fired, fun t' k hk => ?_, fun t' hk => ?_⟩ <;>
    rw [htasks] at hk <;> by_cases ht : t' = t
  · subst ht
    rw [Function.update_self, Option.some.injEq] at hk
    rw [hworld, ← hk]
    exact hturn.follows
  · rw [Function.update_of_ne ht] at hk
    rw [hworld, hframes t' ht]
    exact (h.tasks t' k hk).world hturn.goes (hturn.aside t' ht)
  · simp [ht] at hk
  · rw [Function.update_of_ne ht] at hk
    rw [hworld, hturn.aside t' ht, hframes t' ht]
    exact h.absent t' hk

/-- The data of the loop moves on without a task. -/
theorem world (h : Faithful respond P values entry faulty s)
    (hextends : Extends s.loop.world s'.loop.world)
    (hresponses : s'.loop.world.shared.responses = s.loop.world.shared.responses)
    (htasks : s'.loop.tasks = s.loop.tasks) (hframes : s'.frames = s.frames) :
    Faithful respond P values entry faulty s' := by
  refine ⟨hextends.fired h.fired, fun t k hk => ?_, fun t hk => ?_⟩
  · rw [hframes]
    exact (h.tasks t k (htasks ▸ hk)).world hextends (by rw [hresponses])
  · rw [hresponses, hframes]
    exact h.absent t (htasks ▸ hk)

/-- A call on a task. -/
theorem modify (h : Faithful respond P values entry faulty s) {w : World LoopHandles}
    (hextends : Extends s.loop.world w)
    (hresponses : w.shared.responses = s.loop.world.shared.responses)
    {g : HandlerTask.Local → HandlerTask.Local}
    (hturn : ∀ l frame, Follows respond P values entry (faulty t) t l frame →
      Followed respond P values entry (faulty t) t l.world (g l) frame)
    (hloop : s'.loop = ({ s.loop with world := w } : Loop LoopHandles HandlerTask).modify t g)
    (hframes : s'.frames = s.frames) : Faithful respond P values entry faulty s' := by
  cases htask : s.loop.tasks t with
  | none =>
    have hsame : s'.loop = { s.loop with world := w } := by rw [hloop, Loop.modify, htask]
    refine h.world ?_ ?_ ?_ hframes <;> rw [hsame]
    · exact hextends
    · exact hresponses
  | some k =>
    have hfollows : Follows respond P values entry (faulty t) t ⟨w, k⟩ (s.frames t) :=
      (h.tasks t k htask).world hextends (by rw [hresponses])
    have hdone := hturn _ _ hfollows
    refine h.put (t := t) (l := g ⟨w, k⟩) ?_ ?_ (fun _ _ => by rw [hframes]) ?_
    · simp [hloop, Loop.modify, htask, Loop.put]
    · simp [hloop, Loop.modify, htask, Loop.put]
    · rw [hframes]
      exact ⟨hdone.follows, hextends.trans hdone.goes, fun t' ht =>
        (hdone.aside t' ht).trans (by rw [hresponses])⟩

end Faithful

section

variable {respond : Value → HandlerResponse} {P : HandlerCode Point} {values : FutureId → Value}
  {entry : TaskId → Except Asyncio.Exception Point} {faulty : Prop} {t : TaskId}
  {l : HandlerTask.Local} {frame : Option (CoroutineFrame Point)}

/-- A call on a task that leaves what its handler is waiting for alone. -/
theorem Follows.quiet {l' : HandlerTask.Local}
    (h : Follows respond P values entry faulty t l frame) (hquiet : Quiet t l l')
    (hgoes : Goes Extends l l') (hcalls : l'.task.factoryCalls = l.task.factoryCalls)
    (hwaiting : l'.task.state.waitingOn = l.task.state.waitingOn)
    (hdeferred : l'.task.state.deferredThrow = l.task.state.deferredThrow)
    (hasked : l'.task.state.mustCancel = true → Asked l'.world t) :
    Followed respond P values entry faulty t l.world l' frame :=
  ⟨h.congr hgoes (by rw [hquiet.shared]) hquiet.sender hquiet.phase hcalls hquiet.verdict
    hquiet.coroutine hwaiting hdeferred hasked, hgoes, fun t' ht => (hquiet.aside t' ht).responses⟩

/-- A cancelled task follows the code of its handler. -/
theorem Follows.cancelTask (message : Option Value)
    (h : Follows respond P values entry faulty t l frame) :
    Followed respond P values entry faulty t l.world
      (Loop.cancelTask (driver respond) t message l) frame := by
  have hcancel (Q : HandlerTask → Prop)
      (hall : ∀ st : TaskState, st.waitingOn = l.task.state.waitingOn →
        st.deferredThrow = l.task.state.deferredThrow → Q { l.task with state := st }) :
      Q (cancel t message l).1.task :=
    cancel_cases (P := fun r => Q r.1.task) (fun _ => hall l.task.state rfl rfl)
      (fun _ _ _ _ => hall _ rfl rfl) (fun _ _ _ _ => hall _ rfl rfl) fun _ _ => hall _ rfl rfl
  have hgoes : Goes Extends l (Loop.cancelTask (driver respond) t message l) :=
    Extends.trans (extends_footprint.cancel message l) (Extends.note _)
  exact h.quiet (.cancelTask message l) hgoes
    (hcancel (·.factoryCalls = l.task.factoryCalls) fun _ _ _ => rfl)
    (hcancel (·.state.waitingOn = l.task.state.waitingOn) fun _ h _ => h)
    (hcancel (·.state.deferredThrow = l.task.state.deferredThrow) fun _ _ h => h)
    fun _ => ⟨_, List.mem_cons_self⟩

/-- A task whose cancellation is taken back follows the code of its handler. -/
theorem Follows.uncancelTask (h : Follows respond P values entry faulty t l frame) :
    Followed respond P values entry faulty t l.world
      (Loop.uncancelTask (driver respond) t l) frame := by
  refine h.quiet (.uncancelTask l) (Extends.note _) rfl rfl rfl fun hcancel => ?_
  refine (Extends.note _).asked (h.asked ?_)
  simp only [Loop.uncancelTask, driver, uncancel] at hcancel
  split at hcancel
  · cases hcancel
  · exact hcancel

/-- A task that takes a callback follows the code of its handler. -/
theorem Follows.addDoneCallback (callback context : Value)
    (h : Follows respond P values entry faulty t l frame) :
    Followed respond P values entry faulty t l.world
      (addDoneCallback t callback context l) frame := by
  unfold HandlerTask.addDoneCallback
  split
  · have hextends : Extends l.world (l.world.callSoon (.doneCallback t callback context)) :=
      .callSoon fun _ _ => by simp
    exact ⟨h.congr hextends rfl rfl rfl rfl rfl rfl rfl rfl fun hc => hextends.asked (h.asked hc),
      hextends, fun _ _ => rfl⟩
  · exact ⟨h.congr (extends_footprint.setState _) rfl rfl rfl rfl rfl rfl rfl rfl h.asked, .refl _,
      fun _ _ => rfl⟩

/-- A task that loses a callback follows the code of its handler. -/
theorem Follows.removeDoneCallback (callback : Value)
    (h : Follows respond P values entry faulty t l frame) :
    Followed respond P values entry faulty t l.world
      (Loop.removeDoneCallback (driver respond) callback l) frame :=
  ⟨h.congr (Extends.refl _) rfl rfl rfl rfl rfl rfl rfl rfl h.asked, .refl _, fun _ _ => rfl⟩

end

namespace Faithful

variable {respond : Value → HandlerResponse} {P : HandlerCode Point} {values : FutureId → Value}
  {entry : TaskId → Except Asyncio.Exception Point} {faulty : TaskId → Prop} {s : Serving Point}
  {t : TaskId} {faults : Faults}

/-- What other code does leaves every task to the code of its handler. -/
theorem act (h : Faithful respond P values entry faulty s) (a : Action)
    (henabled : Loop.enabled (driver respond) s.loop (.act a) = true) :
    Faithful respond P values entry faulty (s.drive respond (.act a)) := by
  cases a with
  | schedule t =>
    have habsent : s.loop.tasks t = none := by simpa [Loop.enabled] using henabled
    obtain ⟨hunsent, hframe⟩ := h.absent t habsent
    have haccept : Extends s.loop.world (accept t s.loop.world) :=
      .of_eq rfl rfl (List.Subset.refl _) fun _ _ => id
    have hextends : Extends s.loop.world ((accept t s.loop.world).callSoon (.step t none)) :=
      haccept.trans (.callSoon fun _ _ => by simp)
    refine h.put (t := t) (l := ⟨(accept t s.loop.world).callSoon (.step t none), new⟩) rfl rfl
      (fun _ _ => rfl) ⟨⟨fun _ => ⟨rfl, hunsent, rfl⟩, ?_, ?_, ?_, ?_⟩, hextends, fun _ _ => rfl⟩
    · simp [new, TaskState.default]
    · simp [new]
    · exact .unbuilt (.inl rfl) rfl rfl rfl hframe
    · simp [new, TaskState.default]
  | postCancel t =>
    exact h.world (.callSoon fun _ _ => by simp) rfl rfl rfl
  | cancel t message => exact h.modify (.refl _) rfl (fun _ _ hl => hl.cancelTask message) rfl rfl
  | uncancel t => exact h.modify (.refl _) rfl (fun _ _ hl => hl.uncancelTask) rfl rfl
  | cancelling t =>
    refine h.modify (.refl _) rfl (fun l _ hl => ?_) rfl rfl
    exact hl.quiet (.cancellingTask l) (Extends.note _) rfl rfl rfl
      fun hc => (Extends.note _).asked (hl.asked hc)
  | addDoneCallback t callback context =>
    exact h.modify (.refl _) rfl (fun _ _ hl => hl.addDoneCallback callback context) rfl rfl
  | removeDoneCallback t callback =>
    exact h.modify (.refl _) rfl (fun _ _ hl => hl.removeDoneCallback callback) rfl rfl
  | complete f status =>
    simp only [Loop.enabled, decide_eq_true_eq] at henabled
    exact h.world (.complete henabled.1 henabled.2) rfl rfl rfl
  | cancelFuture f message =>
    refine h.world (.cancelFuture f message) ?_ rfl rfl
    simp only [Serving.drive_loop, Loop.effect, Loop.actEffect, cancelFuture]
    split <;> rfl
  | setBlocking f blocking => exact h.world (.setFuture rfl fun _ => rfl) rfl rfl rfl
  | setCancelMode f mode => exact h.world (.setFuture rfl fun _ => rfl) rfl rfl rfl

/-- After an event in which the driver has had control, the coroutine of `t` is where that leaves
it. -/
theorem handOver_frames (P : HandlerCode Point) (values : FutureId → Value) {k : HandlerTask}
    (hwakeful : Wakeful s.loop) (htask : s.loop.tasks t = some k)
    (honly : ∀ t', t' ≠ t → s.loop.running ≠ some t') :
    (Serving.handOver P values s).frames t =
        handedTo P values ⟨s.loop.world, k⟩ (s.frames t) ∧
      ∀ t', t' ≠ t → (Serving.handOver P values s).frames t' = s.frames t' := by
  unfold Serving.handOver handedTo
  cases hrunning : s.loop.running with
  | none =>
    have hidle : k.phase = .idle := by
      by_contra hbusy
      simp [(hwakeful.running t k htask).mp hbusy] at hrunning
    simp [hidle]
  | some t' =>
    obtain rfl : t' = t := by
      by_contra ht
      exact honly t' ht hrunning
    cases hphase : decide (k.phase = .stepping) with
    | true =>
      have hstepping := of_decide_eq_true hphase
      simp only [htask, Option.any_some, hstepping, decide_true, if_true]
      exact ⟨Serving.setFrame_frames_self .., fun t'' ht => Serving.setFrame_frames_of_ne ht _⟩
    | false =>
      have hnot := of_decide_eq_false hphase
      simp [htask, hnot]

/-- The loop has driven a task, whose coroutine is where `frame` says. -/
theorem drive (h : Faithful respond P values entry faulty s) {s' : Serving Point}
    {k : HandlerTask} {w : World LoopHandles} {g : HandlerTask.Local → HandlerTask.Local}
    (htask : s.loop.tasks t = some k)
    (hloop : s'.loop = Loop.drive (driver respond) { s.loop with world := w } t g)
    (hframes : ∀ t', t' ≠ t → s'.frames t' = s.frames t')
    (hextends : Extends s.loop.world w)
    (hresponses : w.shared.responses = s.loop.world.shared.responses)
    (hturn : Followed respond P values entry (faulty t) t w (g ⟨w, k⟩) (s'.frames t)) :
    Faithful respond P values entry faulty s' := by
  refine h.put (t := t) (l := g ⟨w, k⟩) ?_ ?_ hframes ⟨hturn.follows,
    hextends.trans hturn.goes, fun t' ht => (hturn.aside t' ht).trans (by rw [hresponses])⟩
  · simp [hloop, Loop.drive, htask, Loop.put]
  · simp [hloop, Loop.drive, htask, Loop.put]

/-- The loop has driven a task, and may have handed control to its coroutine. -/
theorem handedOver (h : Faithful respond P values entry faulty s) {k : HandlerTask}
    {w : World LoopHandles} {g : HandlerTask.Local → HandlerTask.Local} {e : Asyncio.Event}
    {frame : Option (CoroutineFrame Point)} (htask : s.loop.tasks t = some k)
    (hloop : Loop.effect (driver respond) s.loop e =
      Loop.drive (driver respond) { s.loop with world := w } t g)
    (hwakeful : Wakeful (Loop.effect (driver respond) s.loop e))
    (hextends : Extends s.loop.world w)
    (hresponses : w.shared.responses = s.loop.world.shared.responses)
    (hturn : Followed respond P values entry (faulty t) t w (g ⟨w, k⟩)
      (handedTo P values (g ⟨w, k⟩) frame)) :
    Faithful respond P values entry faulty
      (Serving.handOver P values ((s.setFrame t frame).drive respond e)) := by
  have hworld : (Loop.effect (driver respond) s.loop e).world = (g ⟨w, k⟩).world := by
    simp [hloop, Loop.drive, htask, Loop.put]
  have htask' : (Loop.effect (driver respond) s.loop e).tasks t = some (g ⟨w, k⟩).task := by
    simp [hloop, Loop.drive, htask, Loop.put]
  have honly (t' : TaskId) (ht : t' ≠ t) :
      (Loop.effect (driver respond) s.loop e).running ≠ some t' := by
    simp only [hloop, Loop.drive, htask]
    split <;> simp [Ne.symm ht]
  obtain ⟨hframe, hframes⟩ := handOver_frames P values
    (s := (s.setFrame t frame).drive respond e) hwakeful htask' honly
  refine h.drive htask (by rw [Serving.handOver_loop]; exact hloop) (fun t' ht => ?_) hextends
    hresponses ?_
  · rw [hframes t' ht]
    exact Serving.setFrame_frames_of_ne ht _
  · rw [hframe]
    simpa [hworld] using hturn

end Faithful

end Rayo
