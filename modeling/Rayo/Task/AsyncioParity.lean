import Rayo.Task.CallParity
import Rayo.Task.TurnEnd

/-!
# `HandlerTask` drives a coroutine as `asyncio.Task` does

Run in lock-step over the same events the two kinds of tasks leave the same trace: the same
operations on the coroutine, the same cancellations of awaited futures, and the same values
returned by `cancel`, `uncancel` and `cancelling`. The handlers are plain coroutine functions, and
no call that the driver makes fails.
-/

namespace Rayo.HandlerTask

open Asyncio World

/-- Two loops in corresponding states. -/
structure Together (p : Loop LoopHandles HandlerTask) (r : Loop Unit Task) : Prop where
  world : WorldRel p.world r.world
  running : p.running = r.running
  tasks : ∀ t, Option.Rel (fun k m => TaskRel t ⟨p.world, k⟩ ⟨r.world, m⟩) (p.tasks t) (r.tasks t)

section

variable {respond : Value → HandlerResponse} {built : TaskId → Value × Value}
  {p : Loop LoopHandles HandlerTask} {r : Loop Unit Task} {t : TaskId}

/-- Either both loops know a task or neither does. -/
theorem Together.cases (h : Together p r) (t : TaskId) :
    (p.tasks t = none ∧ r.tasks t = none) ∨ ∃ k m, p.tasks t = some k ∧ r.tasks t = some m ∧
      TaskRel t ⟨p.world, k⟩ ⟨r.world, m⟩ := by
  have hrel := h.tasks t
  generalize p.tasks t = k at hrel
  generalize r.tasks t = m at hrel
  cases hrel with
  | none => exact Or.inl ⟨rfl, rfl⟩
  | some hrel => exact Or.inr ⟨_, _, rfl, rfl, hrel⟩

/-- The worlds move on without touching a task. -/
theorem Together.worlds (h : Together p r) {w : World LoopHandles} {v : World Unit}
    (hworld : WorldRel w v) (hsteps : ∀ t e, .step t e ∈ v.ready → .step t e ∈ r.world.ready)
    (hrefuses : ∀ f, p.world.acceptsCancel f = false → w.acceptsCancel f = false) :
    Together { p with world := w } { r with world := v } := by
  refine ⟨hworld, h.running, fun t => ?_⟩
  rcases h.cases t with ⟨hp, hr⟩ | ⟨k, m, hp, hr, hrel⟩
  · simp only [hp, hr]
    exact .none
  · simp only [hp, hr]
    exact .some (hrel.frame (hsteps t) hrefuses)

/-- One task moves on in both. -/
theorem Together.put (h : Together p r) {l : Local} {m : Task.Local}
    (hpaired : Paired t p.world r.world l m) {running running' : Option TaskId}
    (hrunning : running = running') :
    Together { p.put t l with running := running } { r.put t m with running := running' } := by
  refine ⟨hpaired.world, hrunning, fun t' => ?_⟩
  by_cases ht : t' = t
  · subst ht
    simp only [Loop.put, Function.update_self]
    exact .some hpaired.task
  · simp only [Loop.put, Function.update_of_ne ht]
    rcases h.cases t' with ⟨hp, hr⟩ | ⟨k, m', hp, hr, hrel⟩
    · simp only [hp, hr]
      exact .none
    · simp only [hp, hr]
      exact .some (hrel.frame (hpaired.apart.steps t' ht) hpaired.apart.refuses)

/-- A call on a task that both loops may know. -/
theorem Together.modify (h : Together p r) {g : Local → Local} {g' : Task.Local → Task.Local}
    (hpaired : ∀ l m, l.world = p.world → m.world = r.world → r.tasks t = some m.task →
      TaskRel t l m → Paired t p.world r.world (g l) (g' m)) :
    Together (p.modify t g) (r.modify t g') := by
  rcases h.cases t with ⟨hp, hr⟩ | ⟨k, m, hp, hr, hrel⟩
  · simpa only [Loop.modify, hp, hr] using h
  · simp only [Loop.modify, hp, hr]
    exact h.put (hpaired _ _ rfl rfl hr hrel) h.running

/-- A turn of a task that both loops know. -/
theorem Together.drive (h : Together p r) {k : HandlerTask} {m : Task} (hp : p.tasks t = some k)
    (hr : r.tasks t = some m) {g : Local → Local} {g' : Task.Local → Task.Local}
    (hpaired : Paired t p.world r.world (g ⟨p.world, k⟩) (g' ⟨r.world, m⟩)) :
    Together (p.drive (plain respond built) t g) (r.drive Task.driver t g') := by
  simp only [Loop.drive, hp, hr]
  refine h.put hpaired ?_
  have hidle := hpaired.task.idle
  cases hrunning : (g' ⟨r.world, m⟩).task.running with
  | false => simp [plain, driver, Task.driver, hidle.mpr hrunning, hrunning]
  | true =>
    have hbusy : (g ⟨p.world, k⟩).task.phase ≠ .idle := fun hphase => by
      simp [hidle.mp hphase] at hrunning
    simp [plain, driver, Task.driver, hbusy, hrunning]

/-- A task without a source has no step queued in the reference either. -/
theorem WorldRel.step_notMem {w : World LoopHandles} {v : World Unit} (h : WorldRel w v)
    (hsource : w.SourceIs t none) (e : Option Exception) : .step t e ∉ v.ready := by
  intro hmem
  have hbare : Handle.step t none ∈ w.ready.map bareHandle := by
    rw [h.ready]
    exact List.mem_map.mpr ⟨_, hmem, rfl⟩
  obtain ⟨head, hhead, heq⟩ := List.mem_map.mp hbare
  have hwakes : head.wakes t = true := by
    cases head <;> simp_all [bareHandle, Handle.wakes]
  have hin : head ∈ w.handlesOf t := List.mem_filter.mpr ⟨hhead, hwakes⟩
  rw [hsource.handles] at hin
  cases hin

/-- The loop runs the oldest handle, which steps `t`. -/
theorem Together.call (h : Together p r) (hwakeful : Wakeful p) {head : Handle}
    {rest rest' : List Handle} {f : Option FutureId} {e : Option Exception}
    (hready : p.world.ready = head :: rest)
    (hpopped : Together { p with world := { p.world with ready := rest } }
      { r with world := { r.world with ready := rest' } })
    (hwakes : head.wakes t = true)
    (hfuture : ∀ source : Source, head ∈ Source.handles t (some source) → source.future = f)
    (hqueued : f = none → .step t e ∈ r.world.ready) :
    Together (Loop.drive (plain respond built) { p with world := { p.world with ready := rest } } t
        (plainCall built .none t f))
      (Loop.drive Task.driver { r with world := { r.world with ready := rest' } } t
        (Task.call .none t e f)) := by
  rcases h.cases t with ⟨hp, hr⟩ | ⟨k, m, hp, hr, hrel⟩
  · simpa only [Loop.drive, hp, hr] using hpopped
  obtain ⟨source, hsource, hwaiting, hsome⟩ := (hwakeful.tasks t k hp).source
  obtain ⟨hpresent, hnone⟩ := hsource.pop hready hwakes
  obtain ⟨hphase, hunfinished⟩ := hsome.mp hpresent
  obtain ⟨source, rfl⟩ := Option.isSome_iff_exists.mp hpresent
  have hhead : head ∈ Source.handles t (some source) := by
    rw [← hsource.handles, handlesOf, hready]
    exact List.mem_filter.mpr ⟨List.mem_cons_self, hwakes⟩
  have houtcome : m.outcome = none := by
    have hfinished := hrel.finished
    rw [hunfinished] at hfinished
    simpa using hfinished.symm
  have hrelpopped : TaskRel t ⟨{ p.world with ready := rest }, k⟩
      ⟨{ r.world with ready := rest' }, m⟩ := by
    have hrelpopped := hpopped.tasks t
    simp only [hp, hr] at hrelpopped
    cases hrelpopped with
    | some hrelpopped => exact hrelpopped
  exact hpopped.drive hp hr (Paired.call (hrelpopped.active houtcome) hpopped.world hunfinished
    houtcome hphase hrel.count hrel.callbacks (hwaiting.symm.trans (hfuture source hhead))
    (fun hf => (hrel.active houtcome).deferred e (hqueued hf))
    (hpopped.world.step_notMem hnone))

/-- Fewer than `2 ^ 32` requests for cancellation are outstanding after another one. -/
def fewRequests (r : Loop Unit Task) (t : TaskId) : Prop :=
  ∀ m, r.tasks t = some m → m.numCancelsRequested + 1 < 2 ^ 32

/-- The conditions of the comparison: no call that a driver makes fails, awaited futures have
a loop, a future that has refused to be cancelled goes on refusing, and few requests for
cancellation are outstanding. -/
def conforming (s : Loop LoopHandles HandlerTask × Loop Unit Task) : Event → Prop
  | .run faults => faults = .none ∧ ∀ t, s.2.world.ready.head? = some (.cancel t) →
      fewRequests s.2 t
  | .resume faults input => faults = .none ∧ ∀ f, input = .yielded (.future f) →
      (s.2.world.futures f).loop.isSome = true
  | .act (.cancel t _) => fewRequests s.2 t
  | .act (.setCancelMode f mode) => (s.2.world.futures f).status = .pending →
      (s.2.world.futures f).cancelMode = .refuses → mode = .refuses
  | .act _ => True

/-- The loop runs the oldest handle. -/
theorem Together.run (h : Together p r) (hwakeful : Wakeful p)
    (hallowed : conforming (p, r) (.run .none)) :
    Together (Loop.effect (plain respond built) p (.run .none))
      (Loop.effect Task.driver r (.run .none)) := by
  have hqueues := h.world.ready
  simp only [Loop.effect]
  cases hready : p.world.ready with
  | nil =>
    have hready' : r.world.ready = [] := by simpa [hready, eq_comm] using hqueues
    simpa only [hready'] using h
  | cons head rest =>
    rw [hready, List.map_cons] at hqueues
    cases hready' : r.world.ready with
    | nil => simp [hready'] at hqueues
    | cons head' rest' =>
      simp only [hready', List.map_cons, List.cons.injEq] at hqueues
      obtain ⟨hbare, hrest⟩ := hqueues
      have hpopped : Together { p with world := { p.world with ready := rest } }
          { r with world := { r.world with ready := rest' } } :=
        h.worlds ⟨h.world.loop, h.world.futures, hrest, h.world.trace⟩
          (fun _ _ he => by rw [hready']; exact List.mem_cons_of_mem _ he) fun _ hf => hf
      dsimp only
      cases head with
      | step t e =>
        obtain ⟨e', rfl⟩ : ∃ e', head' = .step t e' := by
          cases head' <;> simp_all [bareHandle]
        refine h.call hwakeful hready hpopped (by simp [Handle.wakes]) (fun source hmem => ?_)
          fun _ => by rw [hready']; exact List.mem_cons_self
        cases source <;> simp_all [Source.handles, Source.future]
      | wake t f =>
        obtain rfl : head' = .wake t f := by
          cases head' <;> simp_all [bareHandle]
        refine h.call (e := none) hwakeful hready hpopped (by simp [Handle.wakes])
          (fun source hmem => ?_) (by rintro ⟨⟩)
        cases source <;> simp_all [Source.handles, Source.future]
      | cancel t =>
        obtain rfl : head' = .cancel t := by
          cases head' <;> simp_all [bareHandle]
        exact hpopped.modify fun l m hl hm htask hrel => by
          have hrel' := Paired.cancelTask respond built hrel
            (by rw [hl, hm]; exact hpopped.world)
            (hallowed.2 t (by rw [hready']; rfl) m.task htask) none
          rwa [hl, hm] at hrel'
      | doneCallback t callback context =>
        obtain rfl : head' = .doneCallback t callback context := by
          cases head' <;> simp_all [bareHandle]
        exact hpopped

/-- The running coroutine hands control back. -/
theorem Together.resume (h : Together p r) (hwakeful : Wakeful p) {input : Input}
    (hallowed : conforming (p, r) (.resume .none input))
    (henabled : Loop.enabled Task.driver r (.resume .none input) = true) :
    Together (Loop.effect (plain respond built) p (.resume .none input))
      (Loop.effect Task.driver r (.resume .none input)) := by
  simp only [Loop.effect, h.running]
  simp only [Loop.enabled] at henabled
  cases hrunning : r.running with
  | none => exact h
  | some t =>
    rcases h.cases t with ⟨hp, hr⟩ | ⟨k, m, hp, hr, hrel⟩
    · simp [hrunning, hr] at henabled
    have haccepts : Task.accepts m input = true := by
      simpa [hrunning, hr, Task.driver] using henabled
    have hbusy : k.phase ≠ .idle :=
      (hwakeful.running t k hp).mpr (h.running.trans hrunning)
    have hstepping : k.phase = .stepping := by
      refine hrel.stepping.mpr ?_
      by_contra hnot
      exact hbusy (hrel.idle.mpr (by simpa using hnot))
    have hsourced := hwakeful.tasks t k hp
    have hunsourced := Unsourced.of_busy hsourced hbusy
    exact h.drive hp hr (Paired.resume hrel h.world hunsourced.unfinished hstepping
      (hsourced.stepping hstepping) hunsourced.waitingOn
      (h.world.step_notMem hunsourced.source) hallowed.2 haccepts)

/-- A call on a task, or another change of the loop. -/
theorem Together.act (h : Together p r) (hwakeful : Wakeful p) {a : Action}
    (hallowed : conforming (p, r) (.act a))
    (henabled : Loop.enabled Task.driver r (.act a) = true) :
    Together (p.actEffect (plain respond built) a) (r.actEffect Task.driver a) := by
  have hat {l : Local} {m : Task.Local} (hl : l.world = p.world) (hm : m.world = r.world) :
      WorldRel l.world m.world := by
    rw [hl, hm]
    exact h.world
  cases a with
  | schedule t =>
    have habsent : r.tasks t = none := by simpa [Loop.enabled] using henabled
    have hnone : p.tasks t = none := by
      rcases h.cases t with ⟨hp, -⟩ | ⟨k, m, -, hr, -⟩
      · exact hp
      · simp [habsent] at hr
    refine h.put (l := ⟨(accept t p.world).callSoon (.step t none), new⟩)
      (m := ⟨r.world.callSoon (.step t none), Task.new⟩) ⟨?_, .new fun e he => ?_, ?_⟩ h.running
    · have hleft : WorldRel (accept t p.world) r.world := h.world.left rfl rfl rfl rfl
      exact hleft.callSoon rfl
    · have hmem : .step t e ∈ r.world.ready ∨ e = none := by simpa [callSoon] using he
      exact hmem.resolve_left (h.world.step_notMem (hwakeful.absent t hnone) e)
    · exact .of_eq (fun t' ht e he => by simpa [callSoon, ht] using he) rfl
  | postCancel t =>
    exact h.worlds (h.world.callSoon rfl) (fun _ _ he => by simpa [callSoon] using he)
      fun _ hf => hf
  | cancel t message =>
    exact h.modify fun l m hl hm htask hrel => by
      have hpaired := Paired.cancelTask respond built hrel (hat hl hm)
        (hallowed m.task htask) message
      rwa [hl, hm] at hpaired
  | uncancel t =>
    exact h.modify fun l m hl hm _ hrel => by
      have hpaired := Paired.uncancelTask respond built hrel (hat hl hm)
      rwa [hl, hm] at hpaired
  | cancelling t =>
    exact h.modify fun l m hl hm _ hrel => by
      have hpaired := Paired.cancellingTask respond built hrel (hat hl hm)
      rwa [hl, hm] at hpaired
  | addDoneCallback t callback context =>
    exact h.modify fun l m hl hm _ hrel => by
      have hpaired := Paired.addDoneCallback hrel (hat hl hm) callback context
      rwa [hl, hm] at hpaired
  | removeDoneCallback t callback =>
    exact h.modify fun l m hl hm _ hrel => by
      have hpaired := Paired.removeDoneCallback respond built hrel
        (hat hl hm) callback
      rwa [hl, hm] at hpaired
  | complete f status =>
    have hdone : status ≠ .pending := by
      simp only [Loop.enabled, decide_eq_true_eq] at henabled
      exact henabled.2
    exact h.worlds (h.world.complete f status) (fun _ _ he => by simpa [World.complete] using he)
      fun f' hf => acceptsCancel_complete hdone hf
  | cancelFuture f message =>
    exact h.worlds (h.world.cancelFuture f message)
      (fun t _ he => step_mem_cancelAwaited (t := t) (f := f) (v := message) he)
      fun _ hf => acceptsCancel_cancelAwaited (t := 0) (f := f) (v := message) hf
  | setBlocking f blocking =>
    simp only [Loop.actEffect, h.world.futures]
    refine h.worlds (h.world.setFuture f _) (fun _ _ he => he) fun f' hf => ?_
    rw [acceptsCancel_setFuture (by rw [h.world.futures]) (by rw [h.world.futures])]
    exact hf
  | setCancelMode f mode =>
    simp only [Loop.actEffect, h.world.futures]
    refine h.worlds (h.world.setFuture f _) (fun _ _ he => he) fun f' hf => ?_
    by_cases hsame : f' = f
    · subst hsame
      have hrefuses : (r.world.futures f').status = .pending →
          (r.world.futures f').cancelMode = .refuses := by
        simpa [World.acceptsCancel, h.world.futures] using hf
      have hkept : (r.world.futures f').status = .pending → mode = .refuses :=
        fun hpending => hallowed hpending (hrefuses hpending)
      simpa [World.acceptsCancel, World.setFuture] using hkept
    · simpa [World.acceptsCancel, World.setFuture, hsame] using hf

/-- The same events can happen in corresponding states. -/
theorem Together.enabled_eq (h : Together p r) (e : Event) :
    Loop.enabled (plain respond built) p e = Loop.enabled Task.driver r e := by
  have hsome (t : TaskId) : (p.tasks t).isSome = (r.tasks t).isSome := by
    rcases h.cases t with ⟨hp, hr⟩ | ⟨k, m, hp, hr, -⟩ <;> simp [hp, hr]
  cases e with
  | run faults =>
    have hempty : p.world.ready.isEmpty = r.world.ready.isEmpty := by
      have hqueues := h.world.ready
      cases hp : p.world.ready <;> cases hr : r.world.ready <;> simp_all
    simp only [Loop.enabled, h.running, hempty]
  | resume faults input =>
    simp only [Loop.enabled, h.running]
    cases r.running with
    | none => rfl
    | some t =>
      rcases h.cases t with ⟨hp, hr⟩ | ⟨k, m, hp, hr, hrel⟩
      · simp [hp, hr]
      · simp only [hp, hr, Option.any_some]
        exact hrel.accepts_eq input
  | act a =>
    cases a with
    | schedule t =>
      have hnone := hsome t
      simp only [Loop.enabled]
      cases hp : p.tasks t <;> cases hr : r.tasks t <;> simp_all
    | complete f status => simp only [Loop.enabled, h.world.futures]
    | _ => simp only [Loop.enabled, Action.task, Option.all_some, Option.all_none, hsome]

/-- The two loops start with the same futures and the same identity. -/
def sameWorld (p : Loop LoopHandles HandlerTask) (r : Loop Unit Task) : Prop :=
  p.world.loop = r.world.loop ∧ p.world.futures = r.world.futures

/-- **The same trace.** Along every run of the two loops in lock-step, over the same events,
the operations on coroutines, the requests to cancel awaited futures and the values returned
by `cancel`, `uncancel` and `cancelling` have been the same so far, and the same events can
happen next. -/
theorem driving_eq_asyncioTask {s : Loop LoopHandles HandlerTask × Loop Unit Task}
    (hreach : ((Loop.system (plain respond built)).lockstep (Loop.system Task.driver)
      sameWorld).ReachesUnder conforming s) :
    driving s.1.world.log = driving s.2.world.log ∧
      ∀ e, Loop.enabled (plain respond built) s.1 e = Loop.enabled Task.driver s.2 e := by
  have hboth : (Loop.system (plain respond built)).Reaches s.1 ∧ Together s.1 s.2 := by
    refine hreach.simulation (R := fun p r => (Loop.system (plain respond built)).Reaches p ∧
      Together p r) (fun p r hp hr hsame => ?_) (fun p r e hR _ => hR.2.enabled_eq e)
      fun p r e hR hallowed henabled henabled' => ⟨.step hR.1 trivial henabled, ?_⟩
    · refine ⟨.init hp, ⟨hsame.1, hsame.2, ?_, ?_⟩, hp.running.trans hr.running.symm, fun t => ?_⟩
      · rw [hp.ready, hr.ready]
      · rw [hp.log, hr.log]
      · rw [hp.tasks, hr.tasks]
        exact .none
    · have hwakeful := Wakeful.of_reaches (reaches_of_plain hR.1)
      cases e with
      | run faults =>
        obtain rfl : faults = .none := hallowed.1
        exact hR.2.run hwakeful hallowed
      | resume faults input =>
        obtain rfl : faults = .none := hallowed.1
        exact hR.2.resume hwakeful hallowed henabled'
      | act a => exact hR.2.act hwakeful hallowed henabled'
  exact ⟨hboth.2.world.trace, hboth.2.enabled_eq⟩

end

/-- A handler cancels its own task and parks on future 3, which is cancelled in turn: both
tasks have been sent `None`, have answered the request and have passed it on. -/
theorem driving_eq_asyncioTask_selfCancelRun :
    ∃ s : Loop LoopHandles HandlerTask × Loop Unit Task,
      driving s.1.world.log = driving s.2.world.log ∧
      driving s.2.world.log = [.futureCancelled 0 3 (some 5) true, .cancelReturned 0 .deferred,
        .sent 0] := by
  have hstart : ((Loop.system (plain (fun _ => .noContent) fun _ => (7, 8))).lockstep
      (Loop.system Task.driver) sameWorld).ReachesUnder conforming
      (Loop.fresh (plain (fun _ => .noContent) fun _ => (7, 8)) 0 awaitedFutures,
        Loop.fresh Task.driver 0 awaitedFutures) :=
    .init ⟨Loop.Fresh.fresh _ fun _ => rfl, Loop.Fresh.fresh _ fun _ => rfl, rfl, rfl⟩
  have hscheduled := hstart.step (e := Event.act (.schedule 0)) trivial (by decide)
  have hstepped := hscheduled.step (e := Event.run .none) ⟨rfl, fun t h => by cases h⟩ (by decide)
  have hcancelled := hstepped.step (e := Event.act (.cancel 0 (some 5)))
    (fun m hm => by cases hm; decide) (by decide)
  have hparked := hcancelled.step (e := Event.resume .none (.yielded (.future 3)))
    ⟨rfl, fun f _ => rfl⟩ (by decide)
  exact ⟨_, (driving_eq_asyncioTask hparked).1, by decide⟩

end Rayo.HandlerTask
