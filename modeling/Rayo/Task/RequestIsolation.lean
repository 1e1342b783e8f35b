import Rayo.Task.RequestContexts

/-!
# Requests on one loop are isolated

A variable that a request reads in its own context is what the request has last set it to, or what
it was at its start, unless other code has set variables in that context.
-/

namespace Rayo

open Asyncio

namespace Requests

open HandlerTask

/-- The context of the handle in which `t` has its turn. Until the task has a context of its
own, only its own code has set variables there. -/
structure HandleOf (store : ContextStore) (t : TaskId) (k : HandlerTask) (handle : Value) :
    Prop where
  made : handle ∈ store.made
  onlyBy : k.state.context = none → (store.contents handle).OnlyBy t

/-- What is known of a loop and its contexts between events. -/
structure Isolated (root : Value) (s : Requests) : Prop where
  wakeful : Wakeful s.loop
  separate : s.store.Separate
  context : ∀ t, (s.loop.tasks t).bind (·.state.context) = s.store.built t
  between : s.loop.running = none → s.loop.world.brackets = (none, [root])
  within : ∀ t k, s.loop.running = some t → s.loop.tasks t = some k → ∃ handle,
    HandleOf s.store t k handle ∧ Bracketed t [handle, root] ⟨s.loop.world, k⟩

namespace Isolated

variable {s : Requests} {root : Value} {respond : Value → HandlerResponse}
  {threadValues : TaskId → ContextVar → Option Value}
  {loop loop' : Loop LoopHandles HandlerTask} {store : ContextStore} {t : TaskId}

/-- A task has the context that was built for it still after events that are no turns. -/
theorem context_of_aside (h : Isolated root s) (haside : Aside loop loop')
    (hsame : loop.tasks = s.loop.tasks) (t : TaskId) :
    (loop'.tasks t).bind (·.state.context) = s.store.built t := by
  rw [← h.context t, ← hsame]
  rcases haside.tasks t with hsame | ⟨k, k', hk, hk', -, hcontext⟩ | ⟨habsent, hnew⟩
  · rw [hsame]
  · rw [hk, hk', Option.bind_some, Option.bind_some, hcontext]
  · rw [habsent, hnew]
    rfl

/-- What happens aside from the turns keeps everything. -/
theorem aside (h : Isolated root s) (haside : Aside s.loop loop') (hwakeful : Wakeful loop') :
    Isolated root { s with loop := loop' } where
  wakeful := hwakeful
  separate := h.separate
  context := h.context_of_aside haside rfl
  between hrunning := haside.brackets.trans (h.between (haside.running ▸ hrunning))
  within t k' hrunning hk' := by
    have hbefore : s.loop.running = some t := haside.running ▸ hrunning
    rcases haside.tasks t with hsame | ⟨k, k'', hk, hk'', hphase, hcontext⟩ | ⟨habsent, -⟩
    · obtain ⟨handle, hhandle, hbracketed⟩ := h.within t k' hbefore (hsame ▸ hk')
      exact ⟨handle, hhandle, hbracketed.congr haside.brackets rfl rfl⟩
    · obtain rfl : k'' = k' := Option.some.inj (hk''.symm.trans hk')
      obtain ⟨handle, hhandle, hbracketed⟩ := h.within t k hbefore hk
      exact ⟨handle, ⟨hhandle.made, fun hnone => hhandle.onlyBy (hcontext ▸ hnone)⟩,
        hbracketed.congr haside.brackets hcontext hphase⟩
    · simpa [habsent] using h.wakeful.present t hbefore

/-- A handle that steps no task leaves nothing behind. -/
theorem of_handle (h : Isolated root s) (hrunning : s.loop.running = none) {context : Value}
    (hnew : context ∉ s.store.made) (handed : Contents)
    (haside : Aside (s.enterHandle context handed).loop loop') (hwakeful : Wakeful loop') :
    Isolated root (exitHandle ⟨loop', (s.enterHandle context handed).store⟩) := by
  have hnone : loop'.running = none := haside.running.trans hrunning
  have hentered : loop'.world.contexts = [context, root] := by
    have hroot : s.loop.world.contexts = [root] := congrArg Prod.snd (h.between hrunning)
    have hcontexts := congrArg Prod.snd haside.brackets
    simpa [enterHandle, World.brackets, World.enterContext, hroot] using hcontexts
  have htask : loop'.world.currentTask = none := by
    have hfree : s.loop.world.currentTask = none := congrArg Prod.fst (h.between hrunning)
    have hcurrent := congrArg Prod.fst haside.brackets
    simpa [enterHandle, World.brackets, World.enterContext, hfree] using hcurrent
  have hcontext (t : TaskId) : (loop'.tasks t).bind (·.state.context) = s.store.built t :=
    h.context_of_aside haside rfl t
  unfold exitHandle
  rw [if_pos (by simp [hnone])]
  refine ⟨?_, h.separate.handle hnew handed, ?_, fun _ => ?_, fun t k hsome => ?_⟩
  · exact hwakeful.world (fun t => .of_eq rfl fun _ => rfl) hwakeful.armed hwakeful.noTurnLost
  · exact hcontext
  · simp [World.brackets, World.exitContext, hentered, htask]
  · simp [hnone] at hsome

/-- A task has had its turn, or the turn has come to Python code. -/
theorem of_drive {k : HandlerTask} {g : HandlerTask.Local → HandlerTask.Local} {handle : Value}
    (htask : loop.tasks t = some k) (hwakeful : Wakeful (loop.drive (driver respond) t g))
    (hseparate : store.Separate)
    (hothers : ∀ t', t' ≠ t → (loop.tasks t').bind (·.state.context) = store.built t')
    (hself : (g ⟨loop.world, k⟩).task.state.context = store.built t)
    (hhandle : HandleOf store t (g ⟨loop.world, k⟩).task handle)
    (hbracketed : Bracketed t [handle, root] (g ⟨loop.world, k⟩)) :
    Isolated root (exitHandle ⟨loop.drive (driver respond) t g, store⟩) := by
  have hdrive : loop.drive (driver respond) t g = { loop.put t (g ⟨loop.world, k⟩) with
      running := if (g ⟨loop.world, k⟩).task.phase = .idle then none else some t } := by
    simp [Loop.drive, htask, driver]
  have hcontext (t' : TaskId) :
      ((loop.put t (g ⟨loop.world, k⟩)).tasks t').bind (·.state.context) = store.built t' := by
    by_cases ht : t' = t
    · subst ht
      simpa [Loop.put] using hself
    · simpa [Loop.put, ht] using hothers t' ht
  rw [hdrive] at hwakeful ⊢
  unfold exitHandle
  by_cases hphase : (g ⟨loop.world, k⟩).task.phase = .idle
  · simp only [hphase, if_true, Option.isNone_none] at hwakeful ⊢
    have houtside := hbracketed.outside (by rw [hphase]; rfl)
    have hcontexts : (g ⟨loop.world, k⟩).world.contexts = [handle, root] :=
      congrArg Prod.snd houtside
    have hcurrent : (g ⟨loop.world, k⟩).world.currentTask = none := congrArg Prod.fst houtside
    refine ⟨?_, hseparate, hcontext, fun _ => ?_, by rintro _ _ ⟨⟩⟩
    · exact hwakeful.world (fun t => .of_eq rfl fun _ => rfl) hwakeful.armed hwakeful.noTurnLost
    · simp [Loop.put, World.brackets, World.exitContext, hcontexts, hcurrent]
  · simp only [hphase, if_false, Option.isNone_some, Bool.false_eq_true] at hwakeful ⊢
    refine ⟨hwakeful, hseparate, hcontext, by rintro ⟨⟩, fun t' k' hrunning hk' => ?_⟩
    obtain rfl : t = t' := Option.some.inj hrunning
    obtain rfl : (g ⟨loop.world, k⟩).task = k' := by simpa [Loop.put] using hk'
    exact ⟨handle, hhandle, hbracketed⟩

/-- The loop runs a handle that steps a task. -/
theorem call (h : Isolated root s) {faults : Faults} (hfaults : LeavesSucceed faults)
    {context : Value} {handed : Contents} {head : Handle} {rest : List Handle} {k : HandlerTask}
    {finishedFuture : Option FutureId} (hrunning : s.loop.running = none)
    (hnew : context ∉ s.store.made) (htask : s.loop.tasks t = some k)
    (hhead : k.state.context = none → (s.handedTo threadValues handed head).OnlyBy t)
    (hwakeful : Wakeful (Loop.drive (driver respond) { s.loop with
      world := { s.loop.world.enterContext context with ready := rest } } t
        (HandlerTask.call faults t finishedFuture))) :
    Isolated root (exitHandle ⟨Loop.drive (driver respond) { s.loop with
      world := { s.loop.world.enterContext context with ready := rest } } t
        (HandlerTask.call faults t finishedFuture),
      s.store.handle context (s.handedTo threadValues handed head)⟩) := by
  have hidle : k.phase = .idle := by
    by_contra hbusy
    have hself := (h.wakeful.running t k htask).mp hbusy
    simp [hrunning] at hself
  have hbuilt := h.context t
  rw [htask, Option.bind_some] at hbuilt
  have hpaired : k.state.coroutine.isSome = k.state.context.isSome :=
    (h.wakeful.tasks t k htask).paired
  refine of_drive htask hwakeful (h.separate.handle hnew _)
    (fun t' _ => h.context t') ?_ ⟨List.mem_cons_self (a := context), fun hnone => ?_⟩ ?_
  · rw [call_context]
    exact hbuilt
  · rw [call_context] at hnone
    simpa [ContextStore.handle] using hhead hnone
  · refine Outside.call (l := ⟨_, k⟩) ?_ hidle hpaired hfaults finishedFuture
    have hbetween := h.between hrunning
    have hroot : s.loop.world.contexts = [root] := congrArg Prod.snd hbetween
    have hfree : s.loop.world.currentTask = none := congrArg Prod.fst hbetween
    simp [Outside, World.brackets, World.enterContext, hroot, hfree]

/-- What a handle finds in its context before its task has one comes from the thread that
scheduled the task. -/
theorem handedTo_onlyBy {handed : Contents} {head : Handle} {k : HandlerTask}
    (hwakes : head.wakes t = true) (htask : s.loop.tasks t = some k)
    (hnone : k.state.context = none) : (s.handedTo threadValues handed head).OnlyBy t := by
  have hthread : Contents.OnlyBy t fun x => (threadValues t x).map (Entry.mk none) := by
    intro x e he
    obtain ⟨value, -, rfl⟩ := Option.map_eq_some_iff.mp he
    exact .inl rfl
  cases head with
  | step t' e =>
    obtain rfl : t' = t := by simpa [Handle.wakes] using hwakes
    simpa [handedTo, htask, hnone] using hthread
  | wake t' f =>
    obtain rfl : t' = t := by simpa [Handle.wakes] using hwakes
    simpa [handedTo, htask, hnone] using hthread
  | cancel t' => cases hwakes
  | doneCallback t' callback context => cases hwakes

/-- The loop runs a handle of a task, whether it has accepted the task or not. -/
theorem runTask (h : Isolated root s) {faults : Faults} (hfaults : LeavesSucceed faults)
    {context : Value} {handed : Contents} {head : Handle} {rest : List Handle}
    {finishedFuture : Option FutureId} (hrunning : s.loop.running = none)
    (hnew : context ∉ s.store.made) (hwakes : head.wakes t = true)
    (hwakeful : Wakeful (Loop.drive (driver respond) { s.loop with
      world := { s.loop.world.enterContext context with ready := rest } } t
        (HandlerTask.call faults t finishedFuture))) :
    Isolated root (exitHandle ⟨Loop.drive (driver respond) { s.loop with
      world := { s.loop.world.enterContext context with ready := rest } } t
        (HandlerTask.call faults t finishedFuture),
      s.store.handle context (s.handedTo threadValues handed head)⟩) := by
  cases htask : s.loop.tasks t with
  | none =>
    refine h.of_handle hrunning hnew _ ?_ hwakeful
    simp only [Loop.drive, htask]
    exact Aside.world rfl
  | some k =>
    exact h.call hfaults hrunning hnew htask (fun hnone => handedTo_onlyBy hwakes htask hnone)
      hwakeful

/-- A handle that the loop runs keeps requests isolated. -/
theorem run (h : Isolated root s) {faults : Faults} (hfaults : LeavesSucceed faults)
    {context : Value} {handed : Contents}
    (henabled : enabled respond s (.run faults context handed) = true) :
    Isolated root (effect respond threadValues s (.run faults context handed)) := by
  simp only [enabled, Bool.and_eq_true, decide_eq_true_eq] at henabled
  obtain ⟨hloop, hnew⟩ := henabled
  have hrunning : s.loop.running = none := by
    simp only [Loop.enabled, Bool.and_eq_true, Option.isNone_iff_eq_none] at hloop
    exact hloop.1
  have hentered : Wakeful (s.enterHandle context handed).loop :=
    h.wakeful.world (fun t => .of_eq rfl fun _ => rfl) h.wakeful.armed h.wakeful.noTurnLost
  have hwakeful : Wakeful (Loop.effect (driver respond) (s.enterHandle context handed).loop
      (.run faults)) := hentered.effect hloop
  cases hready : s.loop.world.ready with
  | nil => simp [Loop.enabled, hready] at hloop
  | cons head rest =>
    have hhandle : Loop.effect (driver respond) (s.enterHandle context handed).loop (.run faults) =
        Loop.runHandle (driver respond) faults { s.loop with
          world := { s.loop.world.enterContext context with ready := rest } } head := by
      simp [Loop.effect, enterHandle, World.enterContext, hready]
    have heffect : effect respond threadValues s (.run faults context handed) =
        exitHandle ⟨Loop.runHandle (driver respond) faults { s.loop with
          world := { s.loop.world.enterContext context with ready := rest } } head,
          s.store.handle context (s.handedTo threadValues handed head)⟩ := by
      simp [effect, hready, enterHandle, Loop.effect, World.enterContext]
    rw [hhandle] at hwakeful
    rw [heffect]
    cases head with
    | step t e => exact h.runTask hfaults hrunning hnew (by simp [Handle.wakes]) hwakeful
    | wake t f => exact h.runTask hfaults hrunning hnew (by simp [Handle.wakes]) hwakeful
    | cancel t =>
      refine h.of_handle hrunning hnew _ ?_ hwakeful
      exact Aside.cancelTask (w := { s.loop.world.enterContext context with ready := rest })
        rfl t none
    | doneCallback => exact h.of_handle hrunning hnew _ (Aside.world rfl) hwakeful

/-- A context is copied when the handler has returned a coroutine. -/
theorem of_copiedContext {faults : Faults} {k : HandlerTask} {input : Input} {context : Value}
    (h : copiedContext faults k input = some context) :
    ∃ turn coroutine, k.phase = .building turn ∧ input = .factoryReturned coroutine context := by
  unfold copiedContext at h
  split at h
  · next turn coroutine context' hphase =>
    simp only [Option.ite_none_left_eq_some, Option.some.injEq] at h
    exact ⟨turn, coroutine, hphase, by rw [h.2]⟩
  · cases h

/-- Python code that a task has called hands control back. -/
theorem resume (h : Isolated root s) {faults : Faults} (hfaults : LeavesSucceed faults)
    {input : Input} (henabled : enabled respond s (.resume faults input) = true) :
    Isolated root (effect respond threadValues s (.resume faults input)) := by
  simp only [enabled, Bool.and_eq_true] at henabled
  obtain ⟨hloop, hnew⟩ := henabled
  have hwakeful : Wakeful (Loop.effect (driver respond) s.loop (.resume faults input)) :=
    h.wakeful.effect hloop
  cases hrunning : s.loop.running with
  | none => simp [Loop.enabled, hrunning] at hloop
  | some t =>
    obtain ⟨k, htask⟩ := Option.isSome_iff_exists.mp (h.wakeful.present t hrunning)
    obtain ⟨handle, hhandle, hbracketed⟩ := h.within t k hrunning htask
    have hbuilt := h.context t
    rw [htask, Option.bind_some] at hbuilt
    have hresumed := hbracketed.resume hfaults respond input
    have hdrive : Loop.effect (driver respond) s.loop (.resume faults input) =
        s.loop.drive (driver respond) t (HandlerTask.resume respond faults t input) := by
      simp [Loop.effect, hrunning, driver]
    have hcontext := resume_context respond faults t input ⟨s.loop.world, k⟩
    rw [hdrive] at hwakeful
    simp only [effect, hdrive]
    cases hcopied : copiedContext faults k input with
    | none =>
      have hsame : s.copyContext faults input = s := by
        simp [copyContext, runningTask, hrunning, htask, hcopied]
      rw [hcopied, Option.none_or] at hcontext
      rw [hsame]
      refine of_drive htask hwakeful h.separate (fun t' _ => h.context t') ?_
        ⟨hhandle.made, fun hnone => ?_⟩ hresumed
      · exact hcontext.trans hbuilt
      · exact hhandle.onlyBy (hcontext ▸ hnone)
    | some context =>
      obtain ⟨turn, coroutine, hphase, rfl⟩ := of_copiedContext hcopied
      have hunbuilt : k.state.context = none := hbracketed.unbuilt turn hphase
      have hcontexts : s.loop.world.contexts = [handle, root] :=
        congrArg Prod.snd (hbracketed.outside (by rw [hphase]; rfl))
      have hcopy : s.copyContext faults (.factoryReturned coroutine context) =
          { s with store := s.store.copy t handle context } := by
        simp [copyContext, runningTask, current, hrunning, htask, hcopied, hcontexts]
      have hfresh : context ∉ s.store.made := by simpa [isNew] using hnew
      rw [hcopied, Option.some_or] at hcontext
      rw [hcopy]
      refine of_drive htask hwakeful (h.separate.copy hfresh (hhandle.onlyBy hunbuilt))
        (fun t' ht => ?_) ?_ ⟨List.mem_cons_of_mem _ hhandle.made, fun hnone => ?_⟩ hresumed
      · exact (h.context t').trans (Function.update_of_ne ht _ _).symm
      · exact hcontext.trans (by simp [ContextStore.copy])
      · rw [hcontext] at hnone
        cases hnone

/-- The running code sets a variable. -/
theorem set (h : Isolated root s) {writer : Option TaskId} {context : Value} {x : ContextVar}
    {value : Value} (henabled : enabled respond s (.set writer context x value) = true) :
    Isolated root (effect respond threadValues s (.set writer context x value)) := by
  refine ⟨h.wakeful, ?_, fun t => (h.context t).trans (by rw [effect, ContextStore.set_built]),
    h.between, fun t k hrunning htask => ?_⟩
  · cases hrunning : s.loop.running with
    | none =>
      simp only [effect, hrunning]
      exact h.separate.set_other (by rintro _ ⟨⟩) x _
    | some t =>
      simp only [enabled, hrunning, decide_eq_true_eq] at henabled
      obtain ⟨rfl, -⟩ := henabled
      simp only [effect, hrunning]
      by_cases hown : s.store.built t = some context
      · exact h.separate.set_own hown x value
      · exact h.separate.set_other (fun t' ht => by
          obtain rfl : t = t' := Option.some.inj ht
          exact hown) x _
  · obtain ⟨handle, hhandle, hbracketed⟩ := h.within t k hrunning htask
    have hrunning' : s.loop.running = some t := hrunning
    simp only [enabled, hrunning', decide_eq_true_eq] at henabled
    obtain ⟨rfl, -⟩ := henabled
    refine ⟨handle, ⟨?_, fun hnone y e he => ?_⟩, hbracketed⟩
    · rw [effect, ContextStore.set_made]
      exact List.mem_insert_of_mem hhandle.made
    · rw [effect, ContextStore.set_contents] at he
      by_cases hcontext : handle = context
      · by_cases hy : y = x
        · simp only [hcontext, hy, Function.update_self, Option.some.injEq] at he
          exact .inr (he ▸ rfl)
        · simp only [← hcontext, Function.update_self, Function.update_of_ne hy] at he
          exact hhandle.onlyBy hnone y e he
      · rw [Function.update_of_ne hcontext] at he
        exact hhandle.onlyBy hnone y e he

/-- **One event.** -/
theorem effect (h : Isolated root s) {e : Event} (hfaults : leavesSucceed s e = true)
    (henabled : enabled respond s e = true) :
    Isolated root (Requests.effect respond threadValues s e) := by
  cases e with
  | run faults context handed => exact h.run (of_decide_eq_true hfaults) henabled
  | resume faults input => exact h.resume (of_decide_eq_true hfaults) henabled
  | act a => exact h.aside (Aside.act a henabled) (h.wakeful.act a henabled)
  | set writer context x value => exact h.set henabled

/-- A fresh loop has its requests isolated. -/
theorem of_fresh (h : Fresh respond root s) : Isolated root s where
  wakeful := (Wakeful.of_fresh h.loop).world (w := s.loop.world)
    (fun t => .of_eq rfl fun _ => rfl) (Wakeful.of_fresh h.loop).armed
    (Wakeful.of_fresh h.loop).noTurnLost
  separate := by
    refine ⟨fun t c hc => ?_, fun t t' c hc => ?_, fun t c hc => ?_, fun t c hc => ?_⟩ <;>
      simp [h.built t] at hc
  context t := by
    have habsent : s.loop.tasks t = none := h.loop.tasks t
    rw [habsent, h.built t, Option.bind_none]
  between _ := by
    have htask : s.loop.world.currentTask = none := h.loop.currentTask
    simp [World.brackets, h.contexts, htask]
  within t k hrunning _ := by
    have hnone : s.loop.running = none := h.loop.running
    simp [hnone] at hrunning

/-- On every run requests are isolated. -/
theorem of_reaches (hreach : (system respond threadValues root).ReachesUnder
    (fun s e => leavesSucceed s e = true) s) : Isolated root s :=
  hreach.invariant (fun _ => of_fresh) fun _ _ h hfaults henabled => h.effect hfaults henabled

end Isolated

/-- **Requests are isolated.** Between the callbacks of the loop no task is current and only the
context of the thread is entered, and so are the handle's context and nothing else while a turn
has not entered its task. While a coroutine is stepped, its task is the current one and the
current context is the one that was copied for it at its start. Unless other code has set
variables in that context, a variable read there is what the task has last set it to, or what it
was at its start, and neither is the work of another request. -/
theorem requests_isolated {s : Requests} {root : Value} {respond : Value → HandlerResponse}
    {threadValues : TaskId → ContextVar → Option Value}
    (hreach : (system respond threadValues root).ReachesUnder
      (fun s e => leavesSucceed s e = true) s) :
    (s.loop.running = none → s.loop.world.currentTask = none ∧
      s.loop.world.contexts = [root]) ∧
    (∀ t t' context, s.store.built t = some context → s.store.built t' = some context → t = t') ∧
    ∀ t k, s.loop.running = some t → s.loop.tasks t = some k → ∃ handle,
      (k.phase.entered = false → s.loop.world.currentTask = none ∧
        s.loop.world.contexts = [handle, root]) ∧
      (k.phase.entered = true → ∃ context, s.store.built t = some context ∧
        s.loop.world.currentTask = some t ∧ s.loop.world.contexts = [context, handle, root] ∧
        (context ∉ s.store.visited → ∀ x, s.get x = s.store.own t x ∧
          ∀ e, s.get x = some e → e.writer = none ∨ e.writer = some t)) := by
  have h := Isolated.of_reaches hreach
  refine ⟨fun hrunning => ?_, h.separate.distinct, fun t k hrunning htask => ?_⟩
  · have hbetween := h.between hrunning
    exact ⟨congrArg Prod.fst hbetween, congrArg Prod.snd hbetween⟩
  · obtain ⟨handle, -, hbracketed⟩ := h.within t k hrunning htask
    refine ⟨handle, fun hphase => ?_, fun hphase => ?_⟩
    · have houtside := hbracketed.outside hphase
      exact ⟨congrArg Prod.fst houtside, congrArg Prod.snd houtside⟩
    · obtain ⟨context, hcontext, hinside⟩ := hbracketed.inside hphase
      have hcontexts : s.loop.world.contexts = [context, handle, root] :=
        congrArg Prod.snd hinside
      have hbuilt : s.store.built t = some context := by
        rw [← h.context t, htask]
        exact hcontext
      refine ⟨context, hbuilt, congrArg Prod.fst hinside, hcontexts, fun hvisited x => ?_⟩
      have hget : s.get x = s.store.own t x := by
        simp [get, current, hcontexts, h.separate.faithful t context hbuilt hvisited]
      exact ⟨hget, fun e he => h.separate.onlyBy t context hbuilt x e (hget ▸ he)⟩

/-- A loop that has not run yet, on a thread in context 0. -/
def fresh : Requests where
  loop :=
    { Loop.fresh (driver fun _ => .noContent) 0 awaitedFutures with
      world := (Loop.fresh (driver fun _ => .noContent) 0 awaitedFutures).world.enterContext 0 }
  store := ⟨[0], fun _ _ => none, fun _ => none, fun _ _ => none, []⟩

/-- A loop that has just been started is fresh. -/
theorem Fresh.fresh : Fresh (fun _ => .noContent) 0 fresh :=
  ⟨Loop.Fresh.fresh _ fun _ => rfl, rfl, rfl, fun _ => rfl⟩

/-- Task 0 sets variable 5 to 41 and yields, and reads the variable in its second step. -/
def rereadingRun : List Event :=
  [.act (.schedule 0), .run .none 1 fun _ => none, .resume .none (.factoryReturned 7 10),
    .set (some 0) 10 5 41, .resume .none (.yielded .none), .run .none 2 fun _ => none]

/-- A request reads the value it has set after another one has set its own. -/
theorem requests_isolated_rereadingRun :
    ∃ s : Requests, s.loop.running = some 0 ∧ s.loop.world.currentTask = some 0 ∧
      s.get 5 = some ⟨some 0, 41⟩ ∧ s.get 5 = s.store.own 0 5 := by
  have hexec : (((system (fun _ => .noContent) (fun _ _ => none) 0).restrict leavesSucceed).exec
      fresh rereadingRun).map (fun s => decide (s.loop.running = some 0 ∧
        (s.loop.tasks 0).any (·.phase.entered) = true ∧ s.store.visited = [] ∧
        s.get 5 = some ⟨some 0, 41⟩)) = some true := by decide
  obtain ⟨s, hs, hend⟩ := Transition.System.exists_reachesUnder_of_exec Fresh.fresh hexec
  obtain ⟨hrunning, htask, hvisited, hget⟩ := of_decide_eq_true hend
  obtain ⟨k, hk, hphase⟩ := (Option.any_eq_true _ _).mp htask
  obtain ⟨-, -, hwithin⟩ := requests_isolated hs
  obtain ⟨handle, -, hinside⟩ := hwithin 0 k hrunning hk
  obtain ⟨context, -, hcurrent, -, hread⟩ := hinside hphase
  exact ⟨s, hrunning, hcurrent, hget, (hread (by simp [hvisited]) 5).1⟩

/-- While task 0 waits for its second step, task 1 sets variable 5 in the context that task 0's
`get_context` returns. -/
def visitingRun : List Event :=
  [.act (.schedule 0), .act (.schedule 1), .run .none 1 fun _ => none,
    .resume .none (.factoryReturned 7 10), .resume .none (.yielded .none),
    .run .none 2 fun _ => none, .resume .none (.factoryReturned 8 11),
    .set (some 1) 10 5 42, .resume .none (.yielded .none), .run .none 3 fun _ => none]

/-- Task 0 reads what another request has written. -/
theorem reads_value_of_other_request : ∃ s : Requests,
    (system (fun _ => .noContent) (fun _ _ => none) 0).ReachesUnder
      (fun s e => leavesSucceed s e = true) s ∧
    s.loop.running = some 0 ∧ (s.loop.tasks 0).any (·.phase = .stepping) = true ∧
    s.get 5 = some ⟨some 1, 42⟩ ∧ s.store.own 0 5 = none := by
  have hexec : (((system (fun _ => .noContent) (fun _ _ => none) 0).restrict leavesSucceed).exec
      fresh visitingRun).map (fun s => decide (s.loop.running = some 0 ∧
        (s.loop.tasks 0).any (·.phase = .stepping) = true ∧
        s.get 5 = some ⟨some 1, 42⟩ ∧ s.store.own 0 5 = none)) = some true := by decide
  obtain ⟨s, hs, hend⟩ := Transition.System.exists_reachesUnder_of_exec Fresh.fresh hexec
  exact ⟨s, hs, of_decide_eq_true hend⟩

end Requests

end Rayo
