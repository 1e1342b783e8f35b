import Rayo.Task.Faithful

/-!
# Every task keeps to the code of its handler in every run

The events of the loop that give a task control, from the handle that steps it to what its
coroutine hands back.
-/

namespace Rayo

open Asyncio Asyncio.World HandlerTask Coroutine TaskState

variable {Point : Type}

/-- The future that a handle which steps a task comes from. -/
def comesFrom : Handle → Option FutureId
  | .wake _ f => some f
  | .step .. | .cancel _ | .doneCallback .. => none

/-- The task whose Python code has control is the one that is driven. -/
theorem effect_resume {respond : Value → HandlerResponse} {loop : Loop LoopHandles HandlerTask}
    {t : TaskId} {faults : Faults} {input : Input} (hrunning : loop.running = some t) :
    Loop.effect (driver respond) loop (.resume faults input) =
      Loop.drive (driver respond) loop t (HandlerTask.resume respond faults t input) := by
  simp only [Loop.effect, hrunning]
  rfl

/-- What the loop knows of the task whose handle it runs. -/
theorem HandlerTask.Wakeful.stepped {loop : Loop LoopHandles HandlerTask} (h : Wakeful loop)
    {t : TaskId} {head : Handle} {rest : List Handle} (hready : loop.world.ready = head :: rest)
    (hwakes : head.wakes t = true) :
    ∃ k, loop.tasks t = some k ∧ k.phase = .idle ∧ k.state.finished = false ∧
      k.state.waitingOn = comesFrom head := by
  obtain ⟨k, htask⟩ : ∃ k, loop.tasks t = some k := by
    refine Option.ne_none_iff_exists'.mp fun hnone => ?_
    have hsome := ((h.absent t hnone).pop hready hwakes).1
    cases hsome
  obtain ⟨source, hsource, hwaiting, hsome⟩ := (h.tasks t k htask).source
  obtain ⟨hidle, hopen⟩ := hsome.mp (hsource.pop hready hwakes).1
  refine ⟨k, htask, hidle, hopen, hwaiting.symm.trans ?_⟩
  have hhandles : Source.handles t source = head :: rest.filter (Handle.wakes t) := by
    rw [← hsource.handles, handlesOf, hready, List.filter_cons_of_pos hwakes]
  rcases source with _ | ⟨_ | _ | _⟩ <;>
    simp only [Source.handles, List.cons.injEq, List.nil_eq, reduceCtorEq] at hhandles
  · rw [← hhandles.1]
    rfl
  · rw [← hhandles.1]
    rfl

namespace Faithful

variable {respond : Value → HandlerResponse} {P : HandlerCode Point} {values : FutureId → Value}
  {entry : TaskId → Except Asyncio.Exception Point} {faulty : TaskId → Prop} {s : Serving Point}
  {t : TaskId} {faults : Faults}

/-- The loop runs a handle that steps a task. -/
theorem runStep (h : Faithful respond P values entry faulty s) (hwakeful : Wakeful s.loop)
    (hwakeful' : Wakeful (Loop.effect (driver respond) s.loop (.run faults)))
    {head : Handle} {rest : List Handle} (hready : s.loop.world.ready = head :: rest)
    (hwakes : head.wakes t = true)
    (hloop : Loop.effect (driver respond) s.loop (.run faults) =
      Loop.drive (driver respond) { s.loop with world := { s.loop.world with ready := rest } } t
        (HandlerTask.call faults t (comesFrom head)))
    (hfaulty : faults ≠ .none → faulty t) :
    Faithful respond P values entry faulty
      (Serving.handOver P values (s.drive respond (.run faults))) := by
  obtain ⟨k, htask, hphase, hopen, hwaiting⟩ := hwakeful.stepped hready hwakes
  have hsourced := hwakeful.tasks t k htask
  have hextends : Extends s.loop.world { s.loop.world with ready := rest } :=
    .of_eq rfl rfl (List.Subset.refl _) fun t' f hmem => by
      rw [hready]
      exact List.mem_cons_of_mem _ hmem
  have hfollows := (h.tasks t k htask).world hextends rfl
  have hfired (f : FutureId) (hf : k.state.waitingOn = some f) :
      (s.loop.world.futures f).status ≠ .pending := by
    rw [hwaiting] at hf
    cases head <;> simp only [comesFrom, reduceCtorEq, Option.some.injEq] at hf
    subst hf
    exact h.fired _ _ (hready ▸ List.mem_cons_self)
  have hturn := hfollows.call hphase hopen hsourced.paired (hsourced.uncalled hphase hopen) hfired
    hfaulty
  rw [hwaiting] at hturn
  have hdone := h.handedOver htask hloop hwakeful' hextends rfl hturn
  rwa [Serving.setFrame_self] at hdone

/-- The loop runs the oldest handle of its queue. -/
theorem run (h : Faithful respond P values entry faulty s) (hwakeful : Wakeful s.loop)
    (hwakeful' : Wakeful (Loop.effect (driver respond) s.loop (.run faults)))
    (hidle : s.loop.running = none) (hfaulty : ∀ t, faults ≠ .none →
      s.loop.world.ready.head?.any (·.wakes t) = true → faulty t) :
    Faithful respond P values entry faulty
      (Serving.handOver P values (s.drive respond (.run faults))) := by
  have hstill {loop : Loop LoopHandles HandlerTask}
      (hloop : Loop.effect (driver respond) s.loop (.run faults) = loop)
      (hrunning : loop.running = none) :
      Serving.handOver P values (s.drive respond (.run faults)) = { s with loop := loop } := by
    simp [Serving.handOver, Serving.drive, hloop, hrunning]
  cases hready : s.loop.world.ready with
  | nil =>
    have hloop : Loop.effect (driver respond) s.loop (.run faults) = s.loop := by
      simp [Loop.effect, hready]
    rw [hstill hloop hidle]
    exact h
  | cons head rest =>
    have hpop : Extends s.loop.world { s.loop.world with ready := rest } :=
      .of_eq rfl rfl (List.Subset.refl _) fun t' f hmem => by
        rw [hready]
        exact List.mem_cons_of_mem _ hmem
    have hrun : Loop.effect (driver respond) s.loop (.run faults) =
        Loop.runHandle (driver respond) faults
          { s.loop with world := { s.loop.world with ready := rest } } head := by
      simp [Loop.effect, hready]
    have hnext {t : TaskId} (hwakes : head.wakes t = true) (hfault : faults ≠ .none) :
        faulty t := hfaulty t hfault (by simpa [hready] using hwakes)
    cases head with
    | step t e =>
      have hwakes : (Handle.step t e).wakes t = true := by simp [Handle.wakes]
      exact h.runStep hwakeful hwakeful' hready hwakes hrun (hnext hwakes)
    | wake t f =>
      have hwakes : (Handle.wake t f).wakes t = true := by simp [Handle.wakes]
      exact h.runStep hwakeful hwakeful' hready hwakes hrun (hnext hwakes)
    | cancel t =>
      rw [hstill hrun (by simp only [Loop.runHandle, Loop.modify]; split <;> exact hidle)]
      exact h.modify hpop rfl (fun _ _ hl => hl.cancelTask none) rfl rfl
    | doneCallback t callback context =>
      rw [hstill hrun hidle]
      exact h.world hpop rfl rfl rfl

/-- The task whose Python code has control is driven on. -/
theorem resumed {k : HandlerTask} {input : Input} {frame : Option (CoroutineFrame Point)}
    (h : Faithful respond P values entry faulty s) (hrunning : s.loop.running = some t)
    (htask : s.loop.tasks t = some k)
    (hturn : Followed respond P values entry (faulty t) t s.loop.world
      (HandlerTask.resume respond faults t input ⟨s.loop.world, k⟩) frame) :
    Faithful respond P values entry faulty
      ((s.setFrame t frame).drive respond (.resume faults input)) :=
  h.drive htask (w := s.loop.world) (effect_resume hrunning)
    (fun _ ht => Serving.setFrame_frames_of_ne ht _) (.refl _) rfl (by simpa using hturn)

/-- The handler is called. -/
theorem build (h : Faithful respond P values entry faulty s) (hwakeful : Wakeful s.loop)
    {coroutine context : Value} (hwakeful' : Wakeful
      (Loop.effect (driver respond) s.loop (.resume faults (.factoryReturned coroutine context))))
    (hrunning : s.loop.running = some t) {k : HandlerTask} (htask : s.loop.tasks t = some k)
    {turn : Turn} (hphase : k.phase = .building turn) (hfaulty : faults ≠ .none → faulty t) :
    Faithful respond P values entry faulty
      (Serving.build respond P values entry faults coroutine context s t) := by
  have hopen := (hwakeful.tasks t k htask).unfinished (by simp [hphase])
  have hfollows := h.tasks t k htask
  cases hentry : entry t with
  | error e =>
    have hends : Ends P values entry (faulty t) t ⟨s.loop.world, k⟩ (.raised e) := by
      refine .meant ?_
      rw [hentry]
      exact .failedCall e
    have hending : endingOfInput respond k.phase (.factoryRaised e) =
        some ⟨.internalError, .raised e, false⟩ := by simp only [hphase, endingOfInput]
    have hturn : Followed respond P values entry (faulty t) t s.loop.world
        (HandlerTask.resume respond faults t (.factoryRaised e) ⟨s.loop.world, k⟩) (s.frames t) :=
      hfollows.ends hopen hending rfl hends
    have hdone := h.resumed hrunning htask hturn
    rw [Serving.setFrame_self] at hdone
    simpa only [Serving.build, hentry] using hdone
  | ok p =>
    have hstart : HandlerTask.resume respond faults t (.factoryReturned coroutine context)
        ⟨s.loop.world, k⟩ = start faults t turn coroutine context ⟨s.loop.world, k⟩ := by
      simp only [HandlerTask.resume, hphase]
    have hturn := hfollows.start hphase hopen hentry coroutine context hfaulty
    rw [← hstart] at hturn
    simpa only [Serving.build, hentry] using
      h.handedOver htask (effect_resume hrunning) hwakeful' (.refl _) rfl hturn

/-- The coroutine that has control makes its next move. -/
theorem move (h : Faithful respond P values entry faulty s) (hwakeful : Wakeful s.loop)
    (hrunning : s.loop.running = some t) {k : HandlerTask} (htask : s.loop.tasks t = some k)
    (hphase : k.phase = .stepping) {p : Point} (hbuilt : k.state.coroutine.isSome = true)
    (hwaiting : k.state.waitingOn = none) (hcalm : k.state.deferredThrow = none)
    (hcomes : ComesTo P values entry s.loop.world t p) (hfaulty : faults ≠ .none → faulty t) :
    Faithful respond P values entry faulty (Serving.move respond P values faults s t p) := by
  have hopen := (hwakeful.tasks t k htask).unfinished (by simp [hphase])
  have hfollows := h.tasks t k htask
  obtain ⟨p₀, hentry, hleads⟩ := hcomes
  unfold Serving.move
  split
  · next value hmove =>
    have hends : Ends P values entry (faulty t) t ⟨s.loop.world, k⟩ (.returned value) := by
      refine .meant ?_
      rw [hentry]
      exact .returned ⟨p, hleads, by simp [hmove, Move.outcome]⟩
    have hending : endingOfInput respond k.phase (.returned value) =
        some ⟨respond value, .returned value, true⟩ := by simp only [hphase, endingOfInput]
    exact h.resumed hrunning htask (hfollows.ends hopen hending rfl hends)
  · next e hmove =>
    have hends : Ends P values entry (faulty t) t ⟨s.loop.world, k⟩ (endingOfError e) := by
      refine .meant ?_
      rw [hentry]
      exact .raised ⟨p, hleads, by simp [hmove, Move.outcome]⟩
    have hending : endingOfInput respond k.phase (.raised e) =
        some ⟨.internalError, endingOfError e, true⟩ := by simp only [hphase, endingOfInput]
    have hresponse : HandlerResponse.internalError = (endingOfError e).response respond := by
      cases e <;> rfl
    exact h.resumed hrunning htask (hfollows.ends hopen hending hresponse hends)
  · next y next hmove =>
    have hstep : HandlerTask.resume respond faults t (.yielded y) ⟨s.loop.world, k⟩ =
        yieldStep faults t y ⟨s.loop.world, k⟩ := by simp only [HandlerTask.resume, hphase]
    have hturn := hfollows.yieldStep hopen hbuilt hwaiting hcalm ⟨p₀, hentry, hleads⟩
      (.inl ⟨next, hmove⟩) hfaulty
    rw [← hstep] at hturn
    exact h.resumed hrunning htask hturn
  · next f next hmove =>
    split
    · next answer hsettled =>
      have hnext : ComesTo P values entry s.loop.world t (next answer) :=
        ⟨p₀, hentry, hleads.tail (.awaits hmove (.inl hsettled))⟩
      refine ⟨h.fired, fun t' k' hk' => ?_, fun t' hk' => ?_⟩
      · by_cases ht : t' = t
        · subst ht
          obtain rfl := Option.some.inj (htask.symm.trans hk')
          rw [Serving.setFrame_frames_self]
          exact ⟨hfollows.unanswered, hfollows.asked, hfollows.building,
            .running _ hphase hbuilt hwaiting hcalm rfl hnext, hfollows.ended⟩
        · rw [Serving.setFrame_frames_of_ne ht]
          exact h.tasks t' k' hk'
      · have ht : t' ≠ t := by
          rintro rfl
          simp [htask] at hk'
        rw [Serving.setFrame_frames_of_ne ht]
        exact h.absent t' hk'
    · -- `await` sets the flag of the future before it yields it
      have hflagged : Faithful respond P values entry faulty
          (s.drive respond (.act (.setBlocking f true))) := h.act _ rfl
      have hfollows₁ := hflagged.tasks t k htask
      have hstep : HandlerTask.resume respond faults t (.yielded (.future f))
          ⟨(s.drive respond (.act (.setBlocking f true))).loop.world, k⟩ = yieldStep faults t
            (.future f) ⟨(s.drive respond (.act (.setBlocking f true))).loop.world, k⟩ := by
        simp only [HandlerTask.resume, hphase]
      have hextends : Extends s.loop.world
          (s.drive respond (.act (.setBlocking f true))).loop.world := .setFuture rfl fun _ => rfl
      have hturn := hfollows₁.yieldStep hopen hbuilt hwaiting hcalm
        (ComesTo.mono ⟨p₀, hentry, hleads⟩ hextends) (y := .future f) (.inr ⟨f, next, hmove, rfl, by
          simp [Serving.drive, Loop.effect, Loop.actEffect, setFuture]⟩) hfaulty
      rw [← hstep] at hturn
      exact hflagged.resumed hrunning htask hturn

/-- The coroutine that has control goes on. -/
theorem execute (h : Faithful respond P values entry faulty s) (hwakeful : Wakeful s.loop)
    (hrunning : s.loop.running = some t) {k : HandlerTask} (htask : s.loop.tasks t = some k)
    (hphase : k.phase = .stepping) (hfaulty : faults ≠ .none → faulty t) :
    Faithful respond P values entry faulty (Serving.execute respond P values faults s t) := by
  cases (h.tasks t k htask).placed with
  | settled hidle _ => simp [hphase] at hidle
  | unbuilt hearly _ _ _ _ => simp [hphase] at hearly
  | suspended p hidle => simp [hphase] at hidle
  | running p _ hbuilt hwaiting hcalm hframe hcomes =>
    simp only [Serving.execute, hframe]
    exact h.move hwakeful hrunning htask hphase hbuilt hwaiting hcalm hcomes hfaulty
  | closing entered hclosing _ => simp [hphase] at hclosing

/-- The coroutine is closed. -/
theorem close (h : Faithful respond P values entry faulty s) (hwakeful : Wakeful s.loop)
    (hrunning : s.loop.running = some t) {k : HandlerTask} (htask : s.loop.tasks t = some k)
    {entered : Bool} (hphase : k.phase = .closing entered) :
    Faithful respond P values entry faulty (Serving.close respond faults s t) := by
  have hopen := (hwakeful.tasks t k htask).unfinished (by simp [hphase])
  have hfollows := h.tasks t k htask
  have hfaulty : faulty t := by
    cases hfollows.placed with
    | settled hidle _ => simp [hphase] at hidle
    | unbuilt hearly _ _ _ _ => simp [hphase] at hearly
    | suspended p hidle => simp [hphase] at hidle
    | running p hstepping => simp [hphase] at hstepping
    | closing _ _ hfaulty => exact hfaulty
  have hending : endingOfInput respond k.phase .closed =
      some ⟨.internalError, .aborted, entered⟩ := by simp only [hphase, endingOfInput]
  exact h.resumed hrunning htask (hfollows.ends hopen hending rfl (.aborted hfaulty))

/-- **One event.** -/
theorem effect (h : Faithful respond P values entry faulty s) {e : Serving.Event}
    (hreach : (Loop.system (driver respond)).Reaches s.loop)
    (henabled : Loop.enabled (driver respond) s.loop e.probe = true)
    (hfaulty : ∀ t, e.FailsFor t s → faulty t) :
    Faithful respond P values entry faulty (Serving.effect respond P values entry s e) := by
  have hwakeful := Wakeful.of_reaches hreach
  -- in the events of Python code, the task that has control is in the phase of the event
  have hcontrol {faults : Faults} {input : Input}
      (henabled : Loop.enabled (driver respond) s.loop (.resume faults input) = true) :
      ∃ t k, s.loop.running = some t ∧ s.loop.tasks t = some k ∧ accepts k input = true := by
    simp only [Loop.enabled] at henabled
    split at henabled
    · next t hrunning =>
      obtain ⟨k, hk, haccepts⟩ := (Option.any_eq_true _ _).mp henabled
      exact ⟨t, k, hrunning, hk, haccepts⟩
    · cases henabled
  cases e with
  | act a => exact h.act a henabled
  | run faults =>
    have hidle : s.loop.running = none := by
      simp only [Serving.Event.probe, Loop.enabled, Bool.and_eq_true,
        Option.isNone_iff_eq_none] at henabled
      exact henabled.1
    exact h.run hwakeful (hwakeful.effect henabled) hidle fun t hfault hwakes =>
      hfaulty t ⟨hfault, .inr ⟨hidle, hwakes⟩⟩
  | build faults coroutine context =>
    obtain ⟨t, k, hrunning, htask, haccepts⟩ := hcontrol henabled
    obtain ⟨turn, hphase⟩ : ∃ turn, k.phase = .building turn := by
      cases hphase : k.phase <;> simp [accepts, hphase] at haccepts
      exact ⟨_, rfl⟩
    simp only [Serving.effect, Serving.inControl, hrunning]
    exact h.build hwakeful (hwakeful.effect henabled) hrunning htask hphase fun hfault =>
      hfaulty t ⟨hfault, .inl hrunning⟩
  | execute faults =>
    obtain ⟨t, k, hrunning, htask, haccepts⟩ := hcontrol henabled
    have hphase : k.phase = .stepping := by
      cases hphase : k.phase <;> simp [accepts, hphase] at haccepts
      rfl
    simp only [Serving.effect, Serving.inControl, hrunning]
    exact h.execute hwakeful hrunning htask hphase fun hfault =>
      hfaulty t ⟨hfault, .inl hrunning⟩
  | close faults =>
    obtain ⟨t, k, hrunning, htask, haccepts⟩ := hcontrol henabled
    obtain ⟨entered, hphase⟩ : ∃ entered, k.phase = .closing entered := by
      cases hphase : k.phase <;> simp [accepts, hphase] at haccepts
      exact ⟨_, rfl⟩
    simp only [Serving.effect, Serving.inControl, hrunning]
    exact h.close hwakeful hrunning htask hphase

/-- Every state of every run, where only calls that fail abort a task. -/
theorem of_reachesUnder (faulty : TaskId → Prop) {allowed : Serving Point → Serving.Event → Prop}
    (hreach : (Serving.system respond P values entry).ReachesUnder allowed s)
    (hfaulty : ∀ s e t, allowed s e → e.FailsFor t s → faulty t) :
    (Loop.system (driver respond)).Reaches s.loop ∧
      Faithful respond P values entry faulty s := by
  induction hreach with
  | init h =>
    obtain ⟨hfresh, hframes⟩ := h
    refine ⟨.init hfresh, fun t f hmem => ?_, fun t k hk => ?_, fun t _ => ⟨?_, hframes t⟩⟩
    · simp [hfresh.ready] at hmem
    · simp [hfresh.tasks t] at hk
    · simp [hfresh.shared, driver]
  | step _ hallowed henabled ih =>
    exact ⟨Serving.loop_step ih.1 henabled, ih.2.effect ih.1 henabled fun t => hfaulty _ _ t hallowed⟩

end Faithful

end Rayo
