import Rayo.Task.Sourced

/-!
# Turns and wake sources

A task in the middle of a turn has no source at all: the turn ends by giving it one, or by
finishing it, and keeps the sources of the other tasks.
-/

namespace Rayo.HandlerTask

open Asyncio World

/-- A turn ends well: the task is sourced again, and the other tasks' sources are kept. -/
structure Turned (t : TaskId) (w : World LoopHandles) (l : Local) : Prop where
  sourced : Sourced t l
  framed : Framed t w l.world

/-- A turn that ends well does so also after a step that leaves the other tasks alone. -/
theorem Turned.after {t : TaskId} {w w' : World LoopHandles} {l : Local} (h : Turned t w' l)
    (hframed : Framed t w w') : Turned t w l :=
  ⟨h.sourced, hframed.trans h.framed⟩

/-- A turn that finishes its task outside its context ends well. -/
theorem Unsourced.finish_turn {t : TaskId} {l : Local} (h : Unsourced t l) (faults : Faults)
    (response : HandlerResponse) (completion : CompletionKind) (hphase : l.task.phase = .idle) :
    Turned t l.world (HandlerTask.finish faults t response completion l) :=
  ⟨(h.finish faults response completion).sourced
      ((finish_task faults t response completion h.unfinished).2.1.trans hphase),
    (undisturbed_finish faults t response completion l).framed t⟩

/-- A turn that finishes its task and leaves its context ends well. -/
theorem Unsourced.finish_leave {t : TaskId} {l : Local} (h : Unsourced t l) (faults : Faults)
    (response : HandlerResponse) (completion : CompletionKind) :
    Turned t l.world (leave faults (HandlerTask.finish faults t response completion l)) :=
  ⟨(h.finish faults response completion).leave faults,
    ((undisturbed_finish faults t response completion l).trans
      (undisturbed_leave faults _)).framed t⟩

/-- A turn that goes on to close its coroutine ends well. -/
theorem Unsourced.closing {t : TaskId} {l : Local} (h : Unsourced t l) (entered : Bool) :
    Turned t l.world (closeCoroutineQuietly entered l) :=
  ⟨(h.congr (k := closeCoroutineQuietly entered l) (.refl _) rfl rfl rfl rfl rfl).sourced
    (by simp [closeCoroutineQuietly, setPhase]) (by simp [closeCoroutineQuietly, setPhase]),
    .refl t _⟩

/-- A task in a turn has no source in another world that disturbs none. -/
theorem Unsourced.setWorld {t : TaskId} {l : Local} {w : World LoopHandles} (h : Unsourced t l)
    (hworld : Undisturbed l.world w) : Unsourced t (setWorld l w) :=
  h.congr hworld rfl rfl rfl rfl rfl

/-- A turn that goes on in the advance of its coroutine ends well. -/
theorem Unsourced.stepCoroutine {t : TaskId} {l : Local} (h : Unsourced t l)
    (pending : Option Exception) (hstarted : l.task.state.coroutine.isSome = true) :
    Turned t l.world (stepCoroutine t pending l) := by
  have hworld : Undisturbed l.world (HandlerTask.stepCoroutine t pending l).world :=
    undisturbed_note fun t' => by split <;> simp
  exact ⟨(h.congr hworld rfl rfl rfl rfl rfl).sourced
    (by simp [HandlerTask.stepCoroutine, setPhase]) fun _ => hstarted, hworld.framed t⟩

/-- A turn that has entered its context to advance its coroutine ends well. -/
theorem Unsourced.advance {t : TaskId} {l : Local} (h : Unsourced t l) (faults : Faults)
    (turn : Turn) (hstarted : l.task.state.coroutine.isSome = true) :
    Turned t l.world (advance faults t turn l) := by
  obtain ⟨coroutine, hcoroutine⟩ := Option.isSome_iff_exists.mp hstarted
  obtain ⟨context, hcontext⟩ := Option.isSome_iff_exists.mp (h.paired ▸ hstarted)
  simp only [HandlerTask.advance, hcoroutine, hcontext]
  have hentered : Undisturbed l.world (l.world.enterTask t) := .of_eq rfl rfl rfl
  split
  · exact h.closing false
  split
  · split
    · exact ((h.setWorld hentered).closing false).after (hentered.framed t)
    · have hleft : Undisturbed l.world (l.world.enterTask t).leaveTask := .of_eq rfl rfl rfl
      exact ((h.setWorld hleft).closing false).after (hleft.framed t)
  · have hcontext : Undisturbed l.world ((l.world.enterTask t).enterContext context) :=
      .of_eq rfl rfl rfl
    exact ((h.setWorld hcontext).stepCoroutine _ hstarted).after (hcontext.framed t)

/-- A first turn whose handler has returned its coroutine ends well. -/
theorem Unsourced.start {t : TaskId} {l : Local} (h : Unsourced t l) (faults : Faults)
    (turn : Turn) (coroutine context : Value) :
    Turned t l.world (start faults t turn coroutine context l) := by
  have hbuilt : Unsourced t (setState l { l.task.state with
      coroutine := some coroutine, context := some context }) :=
    ⟨h.source, h.waitingOn, h.unfinished, rfl, h.calledOnce⟩
  unfold HandlerTask.start
  split
  · exact h.closing false
  dsimp only
  split
  · exact hbuilt.advance faults turn rfl
  · have hworld : Undisturbed l.world (l.world.registerTask t) := .of_eq rfl rfl rfl
    have hregistered := (hbuilt.setWorld hworld).congr
      (k := setState (HandlerTask.setWorld (setState l { l.task.state with
        coroutine := some coroutine, context := some context }) (l.world.registerTask t))
        { l.task.state with
          coroutine := some coroutine, context := some context, registeredWithAsyncio := true })
      (.refl _) rfl rfl rfl rfl rfl
    exact (hregistered.advance faults turn rfl).after (hworld.framed t)

/-- What the loop knows of a task when it runs a handle of it. -/
theorem Turned.call {t : TaskId} {l : Local} (faults : Faults) (f : Option FutureId)
    (hsource : l.world.SourceIs t none) (hphase : l.task.phase = .idle)
    (hunfinished : l.task.state.finished = false)
    (hpaired : l.task.state.coroutine.isSome = l.task.state.context.isSome)
    (huncalled : l.task.state.coroutine = none → l.task.factoryCalls = 0)
    (hcalls : l.task.factoryCalls ≤ 1) : Turned t l.world (call faults t f l) := by
  have htaken : Unsourced t (setState l (turnTaken l.task.state)) :=
    ⟨hsource, rfl, hunfinished, hpaired, hcalls⟩
  simp only [HandlerTask.call, hunfinished, Bool.false_eq_true, if_false]
  split
  · next hbuilt =>
    split
    · exact htaken.finish_turn faults _ _ hphase
    · have hnone : l.task.state.coroutine = none := by simpa using hbuilt
      have hbuilding : Unsourced t { setState l (turnTaken l.task.state) with
          task := { (setState l (turnTaken l.task.state)).task with
            phase := .building (takeTurn f l.task.state)
            factoryCalls := l.task.factoryCalls + 1 } } :=
        ⟨hsource, rfl, hunfinished, hpaired, by simp [huncalled hnone]⟩
      exact ⟨hbuilding.sourced (by simp) (by simp), .refl t _⟩
  · next hbuilt =>
    exact htaken.advance faults _ (by simpa [setState, turnTaken, ← Option.isSome_iff_ne_none]
      using hbuilt)

/-- A turn that reschedules or aborts its task ends well. -/
theorem Unsourced.rescheduleOrAbort {t : TaskId} {l : Local} (h : Unsourced t l)
    (faults : Faults) (hstarted : l.task.state.coroutine.isSome = true) :
    Turned t l.world (rescheduleOrAbort faults t l) := by
  unfold HandlerTask.rescheduleOrAbort
  split
  · exact h.closing true
  · have hqueued := h.source.callSoon none
    have hleft := undisturbed_leave faults
      (HandlerTask.setWorld l (l.world.callSoon (.step t none)))
    have hframed : Framed t l.world (l.world.callSoon (.step t none)) :=
      framed_callSoon fun t' ht => by simpa [Handle.wakes] using Ne.symm ht
    exact ⟨h.sourced_of_some (hleft.sourceIs hqueued) (by simpa using! h.waitingOn) (by simp)
      (by simp) (by simp) (by simp) (by simp) hstarted,
      hframed.trans (hleft.framed t)⟩

/-- A task that has registered on a future, before its turn is over. -/
structure Parked (t : TaskId) (f : FutureId) (l : Local) : Prop where
  source : ∃ source : Source, l.world.SourceIs t (some source) ∧ source.future = some f
  waitingOn : l.task.state.waitingOn = some f
  unfinished : l.task.state.finished = false
  paired : l.task.state.coroutine.isSome = l.task.state.context.isSome
  started : l.task.state.coroutine.isSome = true
  calledOnce : l.task.factoryCalls ≤ 1

/-- A turn that has parked its task ends well once it has left its context. -/
theorem Parked.leave {t : TaskId} {f : FutureId} {l : Local} (h : Parked t f l)
    (faults : Faults) : Turned t l.world (leave faults l) := by
  have hleft := undisturbed_leave faults l
  obtain ⟨source, hsource, hfuture⟩ := h.source
  refine ⟨⟨⟨some source, hleft.sourceIs hsource, ?_, ?_⟩, ?_, ?_, ?_, ?_, ?_⟩, hleft.framed t⟩
  · simpa [hfuture] using h.waitingOn.symm
  · simpa using h.unfinished
  · simp
  · simpa using h.paired
  · simp
  · simpa using h.calledOnce
  · simp [Option.isSome_iff_ne_none.mp h.started]

/-- `park_on_future` leaves the task as it was, or registers it on the future. -/
theorem Unsourced.parkOnFuture {t : TaskId} {l : Local} (h : Unsourced t l) (faults : Faults)
    (f : FutureId) (hstarted : l.task.state.coroutine.isSome = true) :
    (∃ e, parkOnFuture faults t f l = (l, .badYield e)) ∨
      (∃ l', parkOnFuture faults t f l = (l', .failed) ∧ Unsourced t l' ∧
        Undisturbed l.world l'.world) ∨
      ∃ l', parkOnFuture faults t f l = (l', .parked) ∧ Parked t f l' ∧
        Framed t l.world l'.world := by
  have hcleared : Undisturbed l.world
      (l.world.setFuture f { l.world.futures f with blocking := false }) :=
    undisturbed_setFuture rfl rfl
  unfold HandlerTask.parkOnFuture
  dsimp only
  split
  · exact Or.inl ⟨_, rfl⟩
  split
  · exact Or.inl ⟨_, rfl⟩
  split
  · exact Or.inr (Or.inl ⟨l, rfl, h, .refl _⟩)
  split
  · refine Or.inr (Or.inl ⟨_, rfl, ?_, hcleared⟩)
    exact (h.setWorld hcleared).congr (.refl _) h.waitingOn.symm rfl rfl rfl rfl
  · refine Or.inr (Or.inr ⟨_, rfl, ⟨?_, rfl, h.unfinished, h.paired, hstarted, h.calledOnce⟩, ?_⟩)
    · exact (hcleared.sourceIs h.source).addDoneCallback f
    · exact (hcleared.framed t).trans (framed_addDoneCallback f)

/-- A request for cancellation turns at most the registration into a handle. -/
theorem Parked.applyCancelRequestedMidStep {t : TaskId} {f : FutureId} {l : Local}
    (h : Parked t f l) :
    Parked t f (applyCancelRequestedMidStep t l) ∧
      Framed t l.world (applyCancelRequestedMidStep t l).world := by
  unfold HandlerTask.applyCancelRequestedMidStep
  split
  · next f' _ hwaiting =>
    obtain rfl : f = f' := by simpa [h.waitingOn] using hwaiting
    obtain ⟨source, hsource, hfuture⟩ := h.source
    obtain ⟨source', hsource', hsome, hfuture'⟩ :=
      keeps_cancelAwaited t f l.task.state.cancelMessage _ hsource
    obtain ⟨source', rfl⟩ := Option.isSome_iff_exists.mp (hsome.trans rfl)
    have hparked : ∃ source : Source,
        (l.world.cancelAwaited t f l.task.state.cancelMessage).SourceIs t (some source) ∧
          source.future = some f := ⟨source', hsource', hfuture'.trans hfuture⟩
    dsimp only
    split <;> exact ⟨⟨hparked, h.waitingOn, h.unfinished, h.paired, h.started, h.calledOnce⟩,
      framed_cancelAwaited t f _⟩
  · exact ⟨h, .refl t _⟩

/-- A turn that throws an error back at its coroutine ends well. -/
theorem Unsourced.badYield {t : TaskId} {l : Local} (h : Unsourced t l) (faults : Faults)
    (e : Exception) (hstarted : l.task.state.coroutine.isSome = true) :
    Turned t l.world (HandlerTask.rescheduleOrAbort faults t
      (setState l { l.task.state with deferredThrow := some e })) :=
  (h.congr (k := setState l { l.task.state with deferredThrow := some e }) (.refl _) rfl rfl
    rfl rfl rfl).rescheduleOrAbort faults hstarted

/-- **A step that yields** ends its turn well. -/
theorem Unsourced.yieldStep {t : TaskId} {l : Local} (h : Unsourced t l) (faults : Faults)
    (y : Yielded) (hstarted : l.task.state.coroutine.isSome = true) :
    Turned t l.world (yieldStep faults t y l) := by
  cases y with
  | none => exact h.rescheduleOrAbort faults hstarted
  | object typeName => exact h.badYield faults _ hstarted
  | future f =>
    rcases h.parkOnFuture faults f hstarted with
      ⟨e, hpark⟩ | ⟨l', hpark, hheld, hworld⟩ | ⟨l', hpark, hparked, hframed⟩ <;>
      simp only [HandlerTask.yieldStep, hpark]
    · exact h.badYield faults e hstarted
    · exact (hheld.closing true).after (hworld.framed t)
    · obtain ⟨hcancelled, hframed'⟩ := hparked.applyCancelRequestedMidStep
      exact (hcancelled.leave faults).after (hframed.trans hframed')

/-- **Control comes back.** Whatever the Python code did meanwhile and however it ends, the
task is sourced again. -/
theorem Sourced.resume {respond : Value → HandlerResponse} {t : TaskId} {l : Local}
    (h : Sourced t l) (faults : Faults) (input : Input) (haccepts : accepts l.task input = true) :
    Turned t l.world (resume respond faults t input l) := by
  have hbusy : l.task.phase ≠ .idle := by
    intro hidle
    simp [accepts, hidle] at haccepts
  have hheld := Unsourced.of_busy h hbusy
  have hidle : Unsourced t (setPhase l .idle) := hheld.congr (.refl _) rfl rfl rfl rfl rfl
  unfold HandlerTask.resume
  split
  · exact hheld.start faults _ _ _
  · exact hidle.finish_turn faults _ _ rfl
  · exact hheld.finish_leave faults _ _
  · next e hphase =>
    cases e <;> exact hheld.finish_leave faults _ _
  · next y hphase => exact hheld.yieldStep faults y (h.stepping hphase)
  · exact hheld.finish_leave faults _ _
  · exact hidle.finish_turn faults _ _ rfl
  · exact ⟨h, .refl t _⟩

end Rayo.HandlerTask
