import Rayo.Task.WakeSource

/-!
# Pending requests for cancellation

A `cancel()` that no future absorbs is left for the task's next step, in the flag `must_cancel`. The
log says which of these requests have been settled since. As long as a turn neither returns nor is
aborted while the flag is set, it loses none.
-/

namespace Rayo.HandlerTask

open Asyncio World

/-- The request for cancellation that is pending on a task has come to its end: a future
has accepted it, it has been thrown, or it has been withdrawn. -/
def settles (t : TaskId) : Observation → Bool
  | .futureCancelled t' _ _ accepted => t' = t && accepted
  | .threw t' e => t' = t && e.isCancelled
  | .uncancelReturned t' count => t' = t && count = 0
  | _ => false

/-- What an observation says about a pending request: that there is one, that there is none
any more, or nothing. -/
def owing (t : TaskId) (o : Observation) : Option Bool :=
  if o = .cancelReturned t .deferred then some true
  else if settles t o then some false
  else none

/-- A deferred request has not been settled since. -/
def owes (t : TaskId) : List Observation → Bool
  | [] => false
  | o :: older => (owing t o).getD (owes t older)

/-- The task that an observation is about. -/
def subject : Observation → TaskId
  | .sent t | .threw t _ | .threwUnstarted t _ | .futureCancelled t _ _ _ | .cancelReturned t _
  | .uncancelReturned t _ | .cancellingReturned t _ | .turnLost t => t

/-- An observation about another task says nothing about what is owed to this one. -/
theorem owing_of_subject {t : TaskId} {o : Observation} (h : subject o ≠ t) :
    owing t o = none := by
  cases o <;> simp_all [owing, settles, subject]

/-- Every request that was reported as absorbed has just been accepted by a future. -/
def grounded : List Observation → Bool
  | [] => true
  | o :: older =>
    (match o, older with
      | .cancelReturned t .absorbed, .futureCancelled t' _ _ accepted :: _ => t' = t && accepted
      | .cancelReturned _ .absorbed, _ => false
      | _, _ => true) && grounded older

/-- What `t` does to the world changes nothing about what is owed to other tasks. -/
structure LogFramed (t : TaskId) (w w' : World LoopHandles) : Prop where
  owes : ∀ t', t' ≠ t → owes t' w'.log = owes t' w.log
  grounded : grounded w.log = true → grounded w'.log = true

/-- A task that observes nothing changes nothing about what is owed to others. -/
theorem LogFramed.of_eq {t : TaskId} {w w' : World LoopHandles} (h : w'.log = w.log) :
    LogFramed t w w' := ⟨fun t' _ => by rw [h], fun hg => by rwa [h]⟩

/-- Two steps that change nothing about what is owed to others change nothing together. -/
theorem LogFramed.trans {t : TaskId} {w w' w'' : World LoopHandles} (h : LogFramed t w w')
    (h' : LogFramed t w' w'') : LogFramed t w w'' :=
  ⟨fun t' ht => (h'.owes t' ht).trans (h.owes t' ht), h'.grounded ∘ h.grounded⟩

/-- An observation about `t` changes nothing about what is owed to the others. -/
theorem LogFramed.note {t : TaskId} {w : World LoopHandles} {o : Observation}
    (ho : subject o = t) (habsorbed : o ≠ .cancelReturned t .absorbed) :
    LogFramed t w (w.note o) := by
  refine ⟨fun t' ht => ?_, fun hg => ?_⟩
  · simp [World.note, HandlerTask.owes, owing_of_subject (ho ▸ Ne.symm ht : subject o ≠ t')]
  · cases o with
    | cancelReturned t' reply =>
      cases reply <;> simp_all [World.note, HandlerTask.grounded, subject]
    | _ => simpa [World.note, HandlerTask.grounded] using hg

/-- A deferred request that nothing settles is still owed. -/
theorem owes_of_deferred {t : TaskId} {newer older : List Observation}
    (hnewer : ∀ o ∈ newer, settles t o = false) :
    owes t (newer ++ .cancelReturned t .deferred :: older) = true := by
  induction newer with
  | nil => simp [owes, owing]
  | cons o rest ih =>
    have hrest := ih fun o' ho' => hnewer o' (List.mem_cons_of_mem o ho')
    have ho := hnewer o List.mem_cons_self
    simp only [List.cons_append, owes, owing, ho, Bool.false_eq_true, if_false]
    split
    · rfl
    · exact hrest

/-- The task has ended other than by returning. -/
def endedByException (st : TaskState) : Bool :=
  st.finished && (st.storedException.isSome || st.finishedCancelled)

/-- What is owed to a task is pending in its flag until it ends by an exception, and a task
that has returned has nothing pending. -/
structure Kept (t : TaskId) (l : Local) : Prop where
  owed : owes t l.world.log = true →
    (l.task.state.finished = false ∧ l.task.state.mustCancel = true) ∨
      endedByException l.task.state = true
  returned : l.task.state.storedResult.isSome = true →
    l.task.state.finished = true ∧ l.task.state.mustCancel = false
  building : ∀ turn, l.task.phase = .building turn → turn.mustCancel = false

/-- A turn keeps what is owed. -/
structure KeptTurn (t : TaskId) (w : World LoopHandles) (l : Local) : Prop where
  kept : Kept t l
  framed : LogFramed t w l.world

/-- A turn keeps what is owed also after a step that changes nothing for others. -/
theorem KeptTurn.after {t : TaskId} {w w' : World LoopHandles} {l : Local}
    (h : KeptTurn t w' l) (hframed : LogFramed t w w') : KeptTurn t w l :=
  ⟨h.kept, hframed.trans h.framed⟩

/-- What is kept for a task depends on what it is owed, on its phase and on its state. -/
theorem Kept.congr {t : TaskId} {l l' : Local} (h : Kept t l)
    (hlog : owes t l'.world.log = owes t l.world.log)
    (hmust : l'.task.state.mustCancel = l.task.state.mustCancel)
    (hfinished : l'.task.state.finished = l.task.state.finished)
    (hcancelled : l'.task.state.finishedCancelled = l.task.state.finishedCancelled)
    (hexception : l'.task.state.storedException = l.task.state.storedException)
    (hresult : l'.task.state.storedResult = l.task.state.storedResult)
    (hbuilding : ∀ turn, l'.task.phase = .building turn → turn.mustCancel = false) :
    Kept t l' where
  owed := by
    simp only [endedByException, hlog, hmust, hfinished, hcancelled, hexception]
    exact h.owed
  returned := by
    rw [hmust, hfinished, hresult]
    exact h.returned
  building := hbuilding

/-- An unfinished task owes what is in its flag. -/
theorem Kept.mustCancel {t : TaskId} {l : Local} (h : Kept t l)
    (hunfinished : l.task.state.finished = false) (howes : owes t l.world.log = true) :
    l.task.state.mustCancel = true := by
  rcases h.owed howes with ⟨-, hmust⟩ | hended
  · exact hmust
  · simp [endedByException, hunfinished] at hended

/-- An unfinished task has no result. -/
theorem Kept.storedResult {t : TaskId} {l : Local} (h : Kept t l)
    (hunfinished : l.task.state.finished = false) : l.task.state.storedResult = none := by
  by_contra hsome
  have hfinished := (h.returned (Option.isSome_iff_ne_none.mpr hsome)).1
  simp [hunfinished] at hfinished

/-- A completion that answers a pending request, or finds none. -/
def CompletionKind.answers (st : TaskState) : CompletionKind → Prop
  | .returned _ | .aborted => st.mustCancel = false
  | .raised _ | .cancelled _ => True

/-- An unfinished task that finishes keeps what it is owed. -/
theorem Kept.finish {t : TaskId} {l : Local} (h : Kept t l) (faults : Faults)
    (response : HandlerResponse) {completion : CompletionKind}
    (hunfinished : l.task.state.finished = false)
    (hanswers : CompletionKind.answers l.task.state completion)
    (hphase : ∀ turn, l.task.phase = .building turn → turn.mustCancel = false) :
    KeptTurn t l.world (HandlerTask.finish faults t response completion l) := by
  obtain ⟨hstate, hphase', -⟩ := finish_task faults t response completion hunfinished
  have hlog := finish_log faults t response completion l
  have hresult := h.storedResult hunfinished
  have hmust := h.mustCancel hunfinished
  refine ⟨⟨fun howes => ?_, fun hsome => ?_, by rwa [hphase']⟩, .of_eq hlog⟩
  · rw [hlog] at howes
    rw [hstate]
    cases completion <;> simp_all [TaskState.complete, endedByException,
      CompletionKind.answers]
  · rw [hstate] at hsome ⊢
    cases completion <;> simp_all [TaskState.complete, CompletionKind.answers]

/-- A pending cancellation is thrown. -/
theorem pendingThrow_of_mustCancel (w : World LoopHandles) {turn : Turn}
    (hmust : turn.mustCancel = true) :
    ∃ e, pendingThrow w turn = some e ∧ e.isCancelled = true := by
  unfold pendingThrow
  dsimp only
  split
  · exact ⟨_, rfl, rfl⟩
  · next hcancelled =>
    simp only [hmust, Bool.true_and, Bool.not_eq_true, Bool.not_eq_false'] at hcancelled
    exact (Option.any_eq_true _ _).mp hcancelled

/-- The coroutine gets control: what its turn took over is thrown into it. -/
theorem KeptTurn.stepCoroutine {t : TaskId} {l : Local} (pending : Option Exception)
    (hunfinished : l.task.state.finished = false)
    (hresult : l.task.state.storedResult = none)
    (howed : owes t l.world.log = true →
      l.task.state.mustCancel = true ∨ pending.any Exception.isCancelled = true) :
    KeptTurn t l.world (stepCoroutine t pending l) := by
  refine ⟨⟨fun howes => Or.inl ⟨hunfinished, ?_⟩, fun hsome => ?_, fun turn hphase => ?_⟩, ?_⟩
  · cases pending with
    | none =>
      have hbefore : owes t l.world.log = true := by
        simpa [HandlerTask.stepCoroutine, World.note, owes, owing, settles] using howes
      simpa using! howed hbefore
    | some e =>
      by_cases he : e.isCancelled = true
      · simp [HandlerTask.stepCoroutine, World.note, owes, owing, settles, he] at howes
      · have hbefore : owes t l.world.log = true := by
          simpa [HandlerTask.stepCoroutine, World.note, owes, owing, settles, he] using howes
        simpa [he] using! howed hbefore
  · simp [HandlerTask.stepCoroutine, hresult] at hsome
  · simp [HandlerTask.stepCoroutine] at hphase
  · exact .note (by cases pending <;> rfl) (by cases pending <;> simp)

/-- A turn that goes on to close its coroutine keeps what is owed. -/
theorem Kept.closing {t : TaskId} {l : Local} (h : Kept t l) (entered : Bool) :
    KeptTurn t l.world (closeCoroutineQuietly entered l) :=
  ⟨h.congr rfl rfl rfl rfl rfl rfl (fun turn hphase => by cases hphase), .of_eq rfl⟩

/-- A turn up to the advance of its coroutine keeps what is owed, which it delivers or leaves in the
flag. -/
theorem KeptTurn.advance {t : TaskId} {l : Local} (faults : Faults) (turn : Turn)
    (hcoroutine : l.task.state.coroutine.isSome = true)
    (hcontext : l.task.state.context.isSome = true)
    (hunfinished : l.task.state.finished = false)
    (hresult : l.task.state.storedResult = none)
    (howed : owes t l.world.log = true → l.task.state.mustCancel = true ∨
      (turn.mustCancel = true ∧ faults.enterTask = false ∧ faults.enterContext = false)) :
    KeptTurn t l.world (advance faults t turn l) := by
  obtain ⟨coroutine, hcoroutine⟩ := Option.isSome_iff_exists.mp hcoroutine
  obtain ⟨context, hcontext⟩ := Option.isSome_iff_exists.mp hcontext
  have hclosing (w : World LoopHandles) (hlog : w.log = l.world.log)
      (hfails : faults.enterTask = true ∨ faults.enterContext = true) :
      KeptTurn t l.world (closeCoroutineQuietly false (setWorld l w)) := by
    refine ⟨⟨fun howes => Or.inl ⟨hunfinished, ?_⟩, fun hsome => ?_, fun turn hphase => ?_⟩,
      .of_eq hlog⟩
    · have hbefore : owes t l.world.log = true := by rw [← hlog]; exact howes
      rcases howed hbefore with hmust | ⟨-, henter, hcontext⟩
      · exact hmust
      · simp [henter, hcontext] at hfails
    · simp [closeCoroutineQuietly, hresult] at hsome
    · simp [closeCoroutineQuietly] at hphase
  simp only [HandlerTask.advance, hcoroutine, hcontext]
  split
  · next henter => exact hclosing l.world rfl (Or.inl henter)
  split
  · next hfails => split <;> exact hclosing _ rfl (Or.inr hfails)
  · refine KeptTurn.after (.stepCoroutine _ hunfinished hresult fun howes => ?_) (.of_eq rfl)
    refine (howed howes).imp id fun hturn => ?_
    obtain ⟨e, he, hcancelled⟩ := pendingThrow_of_mustCancel l.world hturn.1
    rw [he]
    exact hcancelled

/-- A first turn whose handler has returned its coroutine keeps what is owed. -/
theorem Kept.start {t : TaskId} {l : Local} (h : Kept t l) (faults : Faults) (turn : Turn)
    (coroutine context : Value) (hunfinished : l.task.state.finished = false) :
    KeptTurn t l.world (start faults t turn coroutine context l) := by
  unfold HandlerTask.start
  split
  · exact h.closing false
  dsimp only
  split <;> exact .after (.advance faults turn rfl rfl hunfinished (h.storedResult hunfinished)
    fun howes => Or.inl (h.mustCancel hunfinished howes)) (.of_eq rfl)

/-- A turn begins: a pending request is carried into it. -/
theorem Kept.call {t : TaskId} {l : Local} (h : Kept t l) (faults : Faults)
    (f : Option FutureId) (hunfinished : l.task.state.finished = false)
    (hphase : l.task.phase = .idle)
    (hpaired : l.task.state.coroutine.isSome = l.task.state.context.isSome)
    (henters : l.task.state.coroutine.isSome = true → l.task.state.mustCancel = true →
      faults.enterTask = false ∧ faults.enterContext = false) :
    KeptTurn t l.world (call faults t f l) := by
  have hmust := h.mustCancel hunfinished
  have hresult := h.storedResult hunfinished
  simp only [HandlerTask.call, hunfinished, Bool.false_eq_true, if_false]
  split
  · split
    · next hcancel =>
      have htaken : (turnTaken l.task.state).finished = false := hunfinished
      obtain ⟨hstate, hphase', -⟩ := finish_task faults t .internalError
        (.cancelled l.task.state.cancelMessage) (l := setState l (turnTaken l.task.state)) htaken
      refine ⟨⟨fun _ => Or.inr ?_, fun hsome => ?_, fun turn hbuilding => ?_⟩,
        .of_eq (finish_log faults t _ _ _)⟩
      · rw [takeTurn, hstate]
        simp [TaskState.complete, endedByException]
      · rw [takeTurn, hstate] at hsome
        simp [TaskState.complete, turnTaken, hresult] at hsome
      · rw [takeTurn, hphase'] at hbuilding
        simp [hphase] at hbuilding
    · next hcancel =>
      have hidle : l.task.state.mustCancel = false := by simpa [takeTurn] using hcancel
      refine ⟨⟨fun howes => ?_, fun hsome => ?_, fun turn hbuilding => ?_⟩, .of_eq rfl⟩
      · simp [hidle] at hmust
        simp [hmust] at howes
      · simp [turnTaken, hresult] at hsome
      · cases hbuilding
        exact hidle
  · next hbuilt =>
    have hstarted : l.task.state.coroutine.isSome = true := by
      simpa [← Option.isSome_iff_ne_none] using hbuilt
    exact .advance (l := setState l (turnTaken l.task.state)) faults (takeTurn f l.task.state)
      hstarted (hpaired ▸ hstarted) hunfinished hresult fun howes =>
        Or.inr ⟨hmust howes, henters hstarted (hmust howes)⟩

/-- A task that leaves its context keeps what it is owed. -/
theorem Kept.leave {t : TaskId} {l : Local} (h : Kept t l) (faults : Faults) :
    KeptTurn t l.world (leave faults l) :=
  ⟨h.congr (by rw [leave_log]) (by simp) (by simp) (by simp) (by simp) (by simp) (by simp),
    .of_eq (leave_log faults l)⟩

/-- A task that is rescheduled or aborted keeps what it is owed. -/
theorem Kept.rescheduleOrAbort {t : TaskId} {l : Local} (h : Kept t l) (faults : Faults) :
    KeptTurn t l.world (rescheduleOrAbort faults t l) := by
  unfold HandlerTask.rescheduleOrAbort
  split
  · exact h.closing true
  · have hqueued : Kept t (setWorld l (l.world.callSoon (.step t none))) :=
      h.congr rfl rfl rfl rfl rfl rfl h.building
    exact (hqueued.leave faults).after (.of_eq rfl)

/-- Parking leaves what is owed to the task as it is. -/
theorem Kept.parkOnFuture {t : TaskId} {l : Local} (h : Kept t l) (faults : Faults)
    (f : FutureId) : KeptTurn t l.world (HandlerTask.parkOnFuture faults t f l).1 := by
  have hlog : (HandlerTask.parkOnFuture faults t f l).1.world.log = l.world.log := by
    unfold HandlerTask.parkOnFuture World.addDoneCallback
    dsimp only
    split_ifs <;> rfl
  refine ⟨h.congr (by rw [hlog]) ?_ ?_ ?_ ?_ ?_ ?_, .of_eq hlog⟩ <;>
    (unfold HandlerTask.parkOnFuture; dsimp only; split_ifs) <;> first | rfl | exact h.building

/-- The cancellation of an awaited future is one observation. -/
theorem cancelAwaited_log {ρ : Type} (w : World ρ) (t : TaskId) (f : FutureId)
    (message : Option Value) : (w.cancelAwaited t f message).log =
      .futureCancelled t f message (w.acceptsCancel f) :: w.log := by
  unfold cancelAwaited cancelFuture
  split <;> rfl

/-- The cancellation of the future that `t` awaits changes nothing about what is owed to others. -/
theorem LogFramed.cancelAwaited {t : TaskId} {w : World LoopHandles} {f : FutureId}
    {message : Option Value} : LogFramed t w (w.cancelAwaited t f message) := by
  refine ⟨fun t' ht => ?_, fun hg => ?_⟩ <;> rw [cancelAwaited_log]
  · simp [HandlerTask.owes, owing_of_subject (Ne.symm ht : subject (.futureCancelled t f _ _) ≠ t')]
  · simpa [HandlerTask.grounded] using hg

/-- A request that the awaited future has accepted is reported as absorbed. -/
theorem LogFramed.absorbed {t : TaskId} {w : World LoopHandles} {f : FutureId}
    {message : Option Value} (haccepts : w.acceptsCancel f = true) :
    LogFramed t w ((w.cancelAwaited t f message).note (.cancelReturned t .absorbed)) := by
  refine ⟨fun t' ht => ?_, fun hg => ?_⟩
  · rw [← (cancelAwaited : LogFramed t w (w.cancelAwaited t f message)).owes t' ht]
    simp [World.note, HandlerTask.owes,
      owing_of_subject (Ne.symm ht : subject (.cancelReturned t .absorbed) ≠ t')]
  · simp [World.note, cancelAwaited_log, HandlerTask.grounded, haccepts, hg]

/-- A `cancel` that has not been deferred changes nothing about what is owed. -/
theorem owes_cancelReturned {t : TaskId} {w : World LoopHandles} {reply : CancelReply}
    (hreply : reply ≠ .deferred) :
    owes t (w.note (.cancelReturned t reply)).log = owes t w.log := by
  simp [World.note, owes, owing, settles, hreply]

/-- A task that applies a cancellation which was requested in mid-step keeps what it is owed. -/
theorem Kept.applyCancelRequestedMidStep {t : TaskId} {l : Local} (h : Kept t l)
    (hunfinished : l.task.state.finished = false) :
    KeptTurn t l.world (applyCancelRequestedMidStep t l) := by
  unfold HandlerTask.applyCancelRequestedMidStep
  split
  · next f hmust hwaiting =>
    dsimp only
    split
    · next haccepts =>
      refine ⟨⟨fun howes => ?_, fun hsome => ?_, h.building⟩, .cancelAwaited⟩
      · simp [cancelAwaited_log, owes, owing, settles, haccepts] at howes
      · simp [h.storedResult hunfinished] at hsome
    · next hrefuses =>
      refine ⟨h.congr ?_ rfl rfl rfl rfl rfl h.building, .cancelAwaited⟩
      simp [cancelAwaited_log, owes, owing, settles, hrefuses]
  · exact ⟨h, .of_eq rfl⟩

/-- What becomes of a yielded value keeps what the task is owed. -/
theorem Kept.yieldStep {t : TaskId} {l : Local} (h : Kept t l) (faults : Faults)
    (y : Yielded) (hunfinished : l.task.state.finished = false) :
    KeptTurn t l.world (yieldStep faults t y l) := by
  have hbad (l' : Local) (h' : Kept t l') (e : Exception) :
      KeptTurn t l'.world (HandlerTask.rescheduleOrAbort faults t
        (setState l' { l'.task.state with deferredThrow := some e })) :=
    Kept.rescheduleOrAbort (l := setState l' { l'.task.state with deferredThrow := some e })
      (h'.congr rfl rfl rfl rfl rfl rfl h'.building) faults
  cases y with
  | none => exact h.rescheduleOrAbort faults
  | object typeName => exact hbad l h _
  | future f =>
    have hpark := h.parkOnFuture faults f
    have hfinished : (HandlerTask.parkOnFuture faults t f l).1.task.state.finished = false := by
      unfold HandlerTask.parkOnFuture
      dsimp only
      split_ifs <;> exact hunfinished
    simp only [HandlerTask.yieldStep]
    split <;> rename_i heq <;> rw [heq] at hpark hfinished
    · have happlied := hpark.kept.applyCancelRequestedMidStep hfinished
      exact ((happlied.kept.leave faults).after happlied.framed).after hpark.framed
    · exact (hbad _ hpark.kept _).after hpark.framed
    · exact (hpark.kept.closing true).after hpark.framed

/-- The input ends the task without an exception. -/
def abandons : Input → Bool
  | .returned _ | .closed => true
  | _ => false

/-- Control comes back from Python code. -/
theorem Kept.resume {respond : Value → HandlerResponse} {t : TaskId} {l : Local}
    (h : Kept t l) (faults : Faults) (input : Input) (hunfinished : l.task.state.finished = false)
    (hspares : abandons input = true → l.task.state.mustCancel = false) :
    KeptTurn t l.world (resume respond faults t input l) := by
  have hidle : Kept t (setPhase l .idle) :=
    h.congr rfl rfl rfl rfl rfl rfl fun turn hphase => by cases hphase
  have hleave {response : HandlerResponse} {completion : CompletionKind}
      (hanswers : CompletionKind.answers l.task.state completion) :
      KeptTurn t l.world
        (HandlerTask.leave faults (HandlerTask.finish faults t response completion l)) := by
    have hfinish := h.finish faults response hunfinished hanswers h.building
    exact (hfinish.kept.leave faults).after hfinish.framed
  unfold HandlerTask.resume
  split
  · exact h.start faults _ _ _ hunfinished
  · exact hidle.finish faults _ hunfinished trivial fun turn hphase => by cases hphase
  · exact hleave (hspares rfl)
  · next e _ => cases e <;> exact hleave trivial
  · next y _ => exact h.yieldStep faults y hunfinished
  · exact hleave (hspares rfl)
  · exact hidle.finish faults _ hunfinished (hspares rfl) fun turn hphase => by cases hphase
  · exact ⟨h, .of_eq rfl⟩

end Rayo.HandlerTask
