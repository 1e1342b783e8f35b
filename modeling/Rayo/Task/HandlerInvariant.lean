import Rayo.Task.HandlerMeaning

/-!
# The task driver preserves the meaning of handlers

Whatever a handler comes to on the loop, in whatever order the tasks of the loop take their turns,
is what it comes to by its own code: the coroutine of an unfinished task is where its code leads,
and a finished task has ended as its handler means.
-/

namespace Rayo

open Asyncio Asyncio.World HandlerTask Coroutine TaskState

variable {Point : Type}

section

variable (respond : Value → HandlerResponse) (P : HandlerCode Point) (values : FutureId → Value)
  (entry : TaskId → Except Asyncio.Exception Point) (faulty : Prop)

/-- The code of the handler leads to this point. -/
def ComesTo (w : World LoopHandles) (t : TaskId) (p : Point) : Prop :=
  ∃ p₀, entry t = .ok p₀ ∧ Leads P (environment values w t) p₀ p

/-- The ways in which a task ends: as the code of its handler says, cancelled before the handler
was called, or aborted. -/
inductive Ends (t : TaskId) (l : HandlerTask.Local) : CompletionKind → Prop
  | meant {c : CompletionKind} : Denotes P (environment values l.world t) (entry t) c → Ends t l c
  | unstarted (message : Option Value) : l.task.factoryCalls = 0 → Asked l.world t →
    Ends t l (.cancelled message)
  | aborted : faulty → Ends t l .aborted

/-- Where the coroutine is, by what the task is in the middle of. -/
inductive Placed (t : TaskId) (l : HandlerTask.Local) (frame : Option (CoroutineFrame Point)) : Prop
  | settled : l.task.phase = .idle → l.task.state.finished = true → Placed t l frame
  | unbuilt : (l.task.phase = .idle ∨ ∃ turn, l.task.phase = .building turn) →
    l.task.state.coroutine = none → l.task.state.waitingOn = none →
    l.task.state.deferredThrow = none → frame = none → Placed t l frame
  | suspended (p : Point) : l.task.phase = .idle → l.task.state.coroutine.isSome = true →
    frame = some (.suspended p) → ComesTo P values entry l.world t p →
    Due P l.world l.task.state p → Placed t l frame
  | running (p : Point) : l.task.phase = .stepping → l.task.state.coroutine.isSome = true →
    l.task.state.waitingOn = none → l.task.state.deferredThrow = none →
    frame = some (.running p) → ComesTo P values entry l.world t p → Placed t l frame
  | closing (entered : Bool) : l.task.phase = .closing entered → faulty → Placed t l frame

/-- A task keeps to the code of its handler. -/
structure Follows (t : TaskId) (l : HandlerTask.Local)
    (frame : Option (CoroutineFrame Point)) : Prop where
  unanswered : l.task.state.finished = false → l.task.sender = true ∧
    l.world.shared.responses.filter (·.1 = t) = [] ∧ l.task.state.verdict = noVerdict
  asked : l.task.state.mustCancel = true → Asked l.world t
  building : ∀ turn, l.task.phase = .building turn →
    turn.mustCancel = false ∧ turn.deferredThrow = none ∧ turn.finishedFuture = none
  placed : Placed P values entry faulty t l frame
  ended : l.task.state.finished = true → ∃ c, l.task.state.verdict = verdictOf c ∧
    l.world.shared.responses.filter (·.1 = t) = [(t, c.response respond)] ∧
      Ends P values entry faulty t l c

/-- A task keeps to the code of its handler and leaves the others to theirs. -/
structure Followed (t : TaskId) (w : World LoopHandles) (l : HandlerTask.Local)
    (frame : Option (CoroutineFrame Point)) : Prop where
  follows : Follows respond P values entry faulty t l frame
  goes : Extends w l.world
  aside : ∀ t', t' ≠ t →
    l.world.shared.responses.filter (·.1 = t') = w.shared.responses.filter (·.1 = t')

end

section

variable {respond : Value → HandlerResponse} {P : HandlerCode Point} {values : FutureId → Value}
  {entry : TaskId → Except Asyncio.Exception Point} {faulty : Prop} {t : TaskId}
  {l l' : HandlerTask.Local} {frame frame' : Option (CoroutineFrame Point)} {faults : Faults}

/-- Code that leads to a point leads there still when nothing is taken back. -/
theorem ComesTo.mono {w w' : World LoopHandles} {p : Point} (h : ComesTo P values entry w t p)
    (hextends : Extends w w') : ComesTo P values entry w' t p :=
  h.imp fun _ h => ⟨h.1, h.2.mono hextends.within⟩

/-- Code that leads to a point leads on with the next step. -/
theorem ComesTo.step {w : World LoopHandles} {p q : Point} (h : ComesTo P values entry w t p)
    (hstep : Steps P (environment values w t) p q) : ComesTo P values entry w t q :=
  h.imp fun _ h => ⟨h.1, h.2.tail hstep⟩

/-- What code means in an environment it means in one that tells more. -/
theorem Denotes.mono {E E' : Environment FutureId Value Asyncio.Exception Yielded}
    {start : Except Asyncio.Exception Point} {c : CompletionKind} (h : Denotes P E start c)
    (hle : E.Within E') : Denotes P E' start c := by
  cases h with
  | failedCall e => exact .failedCall e
  | returned h => exact .returned (h.imp fun _ h => ⟨h.1.mono hle, h.2⟩)
  | raised h => exact .raised (h.imp fun _ h => ⟨h.1.mono hle, h.2⟩)

/-- A task that has ended as meant has done so still when nothing is taken back. -/
theorem Ends.mono {c : CompletionKind} (h : Ends P values entry faulty t l c)
    (hgoes : Goes Extends l l') (hcalls : l'.task.factoryCalls = l.task.factoryCalls) :
    Ends P values entry faulty t l' c := by
  cases h with
  | meant h => exact .meant (h.mono (Extends.within hgoes))
  | unstarted message hzero hasked =>
    exact .unstarted message (hcalls.trans hzero) (Extends.asked hgoes hasked)
  | aborted hfaulty => exact .aborted hfaulty

/-- What the loop does with the rest of its data does not matter, and neither does what a call on
the task leaves alone. -/
theorem Follows.congr (h : Follows respond P values entry faulty t l frame)
    (hgoes : Goes Extends l l') (hresponses : l'.world.shared.responses.filter (·.1 = t) =
      l.world.shared.responses.filter (·.1 = t))
    (hsender : l'.task.sender = l.task.sender) (hphase : l'.task.phase = l.task.phase)
    (hcalls : l'.task.factoryCalls = l.task.factoryCalls)
    (hverdict : l'.task.state.verdict = l.task.state.verdict)
    (hcoroutine : l'.task.state.coroutine = l.task.state.coroutine)
    (hwaiting : l'.task.state.waitingOn = l.task.state.waitingOn)
    (hdeferred : l'.task.state.deferredThrow = l.task.state.deferredThrow)
    (hasked : l'.task.state.mustCancel = true → Asked l'.world t) :
    Follows respond P values entry faulty t l' frame := by
  have hfinished : l'.task.state.finished = l.task.state.finished := congrArg Prod.fst hverdict
  refine ⟨fun hopen => ?_, hasked, fun turn hbuilding => h.building turn (hphase ▸ hbuilding), ?_,
    fun hdone => ?_⟩
  · rw [hsender, hresponses, hverdict]
    exact h.unanswered (hfinished ▸ hopen)
  · cases h.placed with
    | settled hidle hdone => exact .settled (hphase.trans hidle) (hfinished.trans hdone)
    | unbuilt hearly hnone hidle hcalm hframe =>
      refine .unbuilt ?_ (hcoroutine.trans hnone) (hwaiting.trans hidle) (hdeferred.trans hcalm)
        hframe
      rwa [hphase]
    | suspended p hidle hbuilt hframe hcomes hdue =>
      exact .suspended p (hphase.trans hidle) (hcoroutine ▸ hbuilt) hframe (hcomes.mono hgoes)
        (hdue.congr hgoes hwaiting hdeferred)
    | running p hstepping hbuilt hnone hcalm hframe hcomes =>
      exact .running p (hphase.trans hstepping) (hcoroutine ▸ hbuilt) (hwaiting.trans hnone)
        (hdeferred.trans hcalm) hframe (hcomes.mono hgoes)
    | closing entered hclosing hfaulty => exact .closing entered (hphase.trans hclosing) hfaulty
  · obtain ⟨c, hc, hsent, hends⟩ := h.ended (hfinished ▸ hdone)
    exact ⟨c, hverdict.trans hc, hresponses.trans hsent, hends.mono hgoes hcalls⟩

/-- The data of the loop has changed, and nothing else. -/
theorem Follows.world {w w' : World LoopHandles} {k : HandlerTask}
    (h : Follows respond P values entry faulty t ⟨w, k⟩ frame) (hextends : Extends w w')
    (hresponses : w'.shared.responses.filter (·.1 = t) = w.shared.responses.filter (·.1 = t)) :
    Follows respond P values entry faulty t ⟨w', k⟩ frame := by
  have hgoes : Goes Extends ⟨w, k⟩ ⟨w', k⟩ := hextends
  exact h.congr hgoes hresponses rfl rfl rfl rfl rfl rfl rfl
    fun hcancel => hextends.asked (h.asked hcancel)

/-- A part of a turn that does not end the task. -/
theorem Follows.undecided (h : Follows respond P values entry faulty t l frame)
    (hopen : l.task.state.finished = false) (hundecided : Undecided t l l')
    (hgoes : Goes Extends l l')
    (hcancel : l'.task.state.mustCancel = true → l.task.state.mustCancel = true)
    (hbuilding : ∀ turn, l'.task.phase = .building turn →
      turn.mustCancel = false ∧ turn.deferredThrow = none ∧ turn.finishedFuture = none)
    (hplaced : Placed P values entry faulty t l' frame') :
    Followed respond P values entry faulty t l.world l' frame' := by
  have hopen' : l'.task.state.finished = false := hundecided.finished.trans hopen
  refine ⟨⟨fun _ => ?_, fun hc => Extends.asked hgoes (h.asked (hcancel hc)), hbuilding, hplaced,
    fun hdone => ?_⟩, hgoes, fun t' ht => (hundecided.aside t' ht).responses⟩
  · rw [hundecided.sender, hundecided.shared, hundecided.verdict]
    exact h.unanswered hopen
  · simp [hopen'] at hdone

/-- A sender that is still there sends the response. -/
theorem send_responses (response : HandlerResponse) (hsender : l.task.sender = true) :
    (send t response l).world.shared.responses = (t, response) :: l.world.shared.responses := by
  rw [send, if_pos hsender]

/-- What `finish` and the end of the turn leave of a task that was still unanswered. -/
theorem finish_sends (faults : Faults) (t : TaskId) (response : HandlerResponse)
    (completion : CompletionKind) (entered : Bool) (hopen : l.task.state.finished = false)
    (hsender : l.task.sender = true) :
    (endTurn faults entered (finish faults t response completion l)).world.shared.responses =
        (t, response) :: l.world.shared.responses ∧
      (endTurn faults entered (finish faults t response completion l)).task.state =
        l.task.state.complete completion ∧
      (endTurn faults entered (finish faults t response completion l)).task.phase = .idle ∧
      (endTurn faults entered (finish faults t response completion l)).task.factoryCalls =
        l.task.factoryCalls := by
  obtain ⟨hstate, -, hcalls⟩ := finish_task faults t response completion hopen
  have hsent : (finish faults t response completion l).world.shared.responses =
      (t, response) :: l.world.shared.responses := by
    rw [finish, if_neg (by simp [hopen]), send_responses]
    · simp [fireCallbacks_eq, unregister_eq]
    · exact hsender
  unfold endTurn
  split
  · rw [leave_task]
    refine ⟨?_, hstate, rfl, hcalls⟩
    rw [← hsent]
    unfold leave
    dsimp only
    split <;> split <;> rfl
  · exact ⟨hsent, hstate, rfl, hcalls⟩

/-- A completed task keeps its flag. -/
@[simp] theorem complete_mustCancel (st : TaskState) (completion : CompletionKind) :
    (st.complete completion).mustCancel = st.mustCancel := by
  cases completion <;> rfl

/-- **The end of a task.** -/
theorem Follows.finish (h : Follows respond P values entry faulty t l frame)
    (hopen : l.task.state.finished = false) {completion : CompletionKind}
    (hends : Ends P values entry faulty t l completion) (entered : Bool) :
    Followed respond P values entry faulty t l.world
      (endTurn faults entered
        (HandlerTask.finish faults t (completion.response respond) completion l)) frame' := by
  obtain ⟨hsender, hunsent, hverdict⟩ := h.unanswered hopen
  obtain ⟨hresponses, hstate, hphase, hcalls⟩ := finish_sends faults t
    (completion.response respond) completion entered hopen hsender
  have hgoes : Goes Extends l (endTurn faults entered
      (HandlerTask.finish faults t (completion.response respond) completion l)) :=
    extends_footprint.goes_trans (extends_footprint.finish _ _ l) (extends_footprint.endTurn _ _)
  have hdone := complete_finished l.task.state completion
  refine ⟨⟨fun hstill => ?_, fun hcancel => ?_, fun turn hbuilding => ?_, ?_, fun _ => ?_⟩, hgoes,
    fun t' ht => ((Aside.finish ht faults _ _ l).trans (Aside.endTurn faults entered _)).responses⟩
  · simp [hstate] at hstill
  · rw [hstate, complete_mustCancel] at hcancel
    exact Extends.asked hgoes (h.asked hcancel)
  · simp at hbuilding
  · exact .settled hphase (by rw [hstate, hdone])
  · refine ⟨completion, by rw [hstate, verdict_complete hverdict], ?_, hends.mono hgoes hcalls⟩
    simp [hresponses, hunsent]

/-- Where the coroutine is once the driver has had control. -/
def handedTo (P : HandlerCode Point) (values : FutureId → Value) (l : HandlerTask.Local)
    (frame : Option (CoroutineFrame Point)) : Option (CoroutineFrame Point) :=
  if l.task.phase = .stepping then
    frame.map (Serving.resumeFrame P values l.world (thrown l.world))
  else frame

/-- The coroutine is advanced with what is pending, or closed because a call has failed. -/
theorem advance_hands (faults : Faults) (t : TaskId) (turn : Turn)
    (hbuilt : l.task.state.coroutine.isSome = true)
    (hpaired : l.task.state.coroutine.isSome = l.task.state.context.isSome) :
    (advance faults t turn l).task.state = l.task.state ∧
      ((∃ entered, (advance faults t turn l).task.phase = .closing entered ∧ faults ≠ .none) ∨
        ((advance faults t turn l).task.phase = .stepping ∧
          thrown (advance faults t turn l).world = pendingThrow l.world turn)) := by
  obtain ⟨coroutine, hcoroutine⟩ := Option.isSome_iff_exists.mp hbuilt
  obtain ⟨context, hcontext⟩ := Option.isSome_iff_exists.mp (hpaired ▸ hbuilt)
  simp only [advance, hcoroutine, hcontext]
  split
  · next hfault =>
    refine ⟨rfl, .inl ⟨false, rfl, ?_⟩⟩
    rintro rfl
    simp [Faults.none] at hfault
  split
  · next hfault =>
    refine ⟨by split <;> rfl, .inl ⟨false, by split <;> rfl, ?_⟩⟩
    rintro rfl
    simp [Faults.none] at hfault
  · refine ⟨rfl, .inr ⟨rfl, ?_⟩⟩
    cases hpending : pendingThrow l.world turn <;>
      simp [stepCoroutine, thrown, World.note, setWorld, setPhase]

/-- **A turn begins.** -/
theorem Follows.call (h : Follows respond P values entry faulty t l frame)
    (hidle : l.task.phase = .idle) (hopen : l.task.state.finished = false)
    (hpaired : l.task.state.coroutine.isSome = l.task.state.context.isSome)
    (huncalled : l.task.state.coroutine = none → l.task.factoryCalls = 0)
    (hfired : ∀ f, l.task.state.waitingOn = some f → (l.world.futures f).status ≠ .pending)
    (hfaulty : faults ≠ .none → faulty) :
    Followed respond P values entry faulty t l.world
      (call faults t l.task.state.waitingOn l)
      (handedTo P values (call faults t l.task.state.waitingOn l) frame) := by
  have hgoes : Goes Extends l (HandlerTask.call faults t l.task.state.waitingOn l) :=
    extends_footprint.call _ l
  cases h.placed with
  | settled _ hdone => simp [hopen] at hdone
  | unbuilt hearly hnone hwaiting hcalm hframe =>
    cases hcancelled : cancelledUnstarted l.task.state with
    | true =>
      have hcancel : l.task.state.mustCancel = true := by
        simp only [cancelledUnstarted, Bool.and_eq_true] at hcancelled
        exact hcancelled.2
      have htaken : Follows respond P values entry faulty t
          (setState l (turnTaken l.task.state)) frame :=
        h.congr (extends_footprint.setState _) rfl rfl rfl rfl rfl rfl hwaiting.symm hcalm.symm
          (by simp [turnTaken])
      rw [call_of_cancelledUnstarted hcancelled hidle]
      exact htaken.finish hopen (.unstarted _ (huncalled hnone) (h.asked hcancel)) false
    | false =>
      have hnocancel : l.task.state.mustCancel = false := by
        simpa [cancelledUnstarted, hopen, hnone] using hcancelled
      have hundecided : Undecided t l (HandlerTask.call faults t l.task.state.waitingOn l) :=
        Undecided.call hcancelled
      have hcall : (HandlerTask.call faults t l.task.state.waitingOn l).task =
          { l.task with
            state := turnTaken l.task.state
            phase := .building (takeTurn l.task.state.waitingOn l.task.state)
            factoryCalls := l.task.factoryCalls + 1 } := by
        simp [HandlerTask.call, hopen, hnone, takeTurn, hnocancel, setState]
      refine h.undecided hopen hundecided hgoes ?_ ?_ (.unbuilt (.inr ?_) ?_ ?_ ?_ ?_)
      · simp [hcall, turnTaken]
      · intro turn hbuilding
        obtain rfl : takeTurn l.task.state.waitingOn l.task.state = turn := by
          simpa [hcall] using hbuilding
        exact ⟨hnocancel, hcalm, hwaiting⟩
      · exact ⟨_, by rw [hcall]⟩
      · rw [hcall]
        exact hnone
      · rw [hcall]
        rfl
      · rw [hcall]
        rfl
      · simp [handedTo, hcall, hframe]
  | suspended p _ hbuilt hframe hcomes hdue =>
    have hstarted : l.task.state.coroutine.isNone = false := by
      simpa [← Option.isSome_iff_ne_none] using hbuilt
    have hcancelled : cancelledUnstarted l.task.state = false := by
      simp [cancelledUnstarted, hstarted]
    have hcall : HandlerTask.call faults t l.task.state.waitingOn l =
        advance faults t (takeTurn l.task.state.waitingOn l.task.state)
          (setState l (turnTaken l.task.state)) := by
      simp [HandlerTask.call, hopen, hstarted]
    obtain ⟨hstate, hphase⟩ := advance_hands (l := setState l (turnTaken l.task.state)) faults t
      (takeTurn l.task.state.waitingOn l.task.state) hbuilt hpaired
    rw [← hcall] at hstate hphase
    refine h.undecided hopen (Undecided.call hcancelled) hgoes ?_ ?_ ?_
    · simp [hstate, turnTaken]
    · intro turn hbuilding
      rcases hphase with ⟨entered, hclosing, -⟩ | ⟨hstepping, -⟩ <;> simp_all
    · rcases hphase with ⟨entered, hclosing, hfault⟩ | ⟨hstepping, hthrown⟩
      · exact .closing entered hclosing (hfaulty hfault)
      · obtain ⟨q, hq, hstep⟩ := steps_of_due values t hdue hgoes h.asked hfired hthrown
        refine .running q hstepping (by rw [hstate]; exact hbuilt) (by rw [hstate]; rfl)
          (by rw [hstate]; rfl) ?_ ((hcomes.mono hgoes).step hstep)
        simp [handedTo, hstepping, hframe, hq]
  | running p hstepping _ _ _ _ _ => simp [hidle] at hstepping
  | closing entered hclosing _ => simp [hidle] at hclosing

/-- **The handler is called.** -/
theorem Follows.start (h : Follows respond P values entry faulty t l frame) {turn : Turn}
    (hbuilding : l.task.phase = .building turn) (hopen : l.task.state.finished = false) {p : Point}
    (hentry : entry t = .ok p) (coroutine context : Value) (hfaulty : faults ≠ .none → faulty) :
    Followed respond P values entry faulty t l.world
      (start faults t turn coroutine context l)
      (handedTo P values (start faults t turn coroutine context l) (some (.created p))) := by
  have hgoes : Goes Extends l (HandlerTask.start faults t turn coroutine context l) :=
    extends_footprint.start _ _ _ l
  have hundecided := Undecided.start (t := t) faults turn coroutine context l
  obtain ⟨hturn, hcalmTurn, hnoFuture⟩ := h.building turn hbuilding
  obtain ⟨hwaiting, hcalm⟩ : l.task.state.waitingOn = none ∧ l.task.state.deferredThrow = none := by
    cases h.placed with
    | settled hidle _ => simp [hbuilding] at hidle
    | unbuilt _ _ hwaiting hcalm _ => exact ⟨hwaiting, hcalm⟩
    | suspended p hidle => simp [hbuilding] at hidle
    | running p hstepping => simp [hbuilding] at hstepping
    | closing entered hclosing _ => simp [hbuilding] at hclosing
  cases hfault : faults.contextCopy with
  | true =>
    have hstart : HandlerTask.start faults t turn coroutine context l =
        closeCoroutineQuietly false l := by simp [HandlerTask.start, hfault]
    rw [hstart] at hgoes hundecided ⊢
    refine h.undecided hopen hundecided hgoes id (by simp [closeCoroutineQuietly]) ?_
    refine .closing false rfl (hfaulty ?_)
    rintro rfl
    simp [Faults.none] at hfault
  | false =>
    obtain ⟨l₁, hstart, hbuilt, hpaired, hmust, hsame, hsame'⟩ : ∃ l₁ : HandlerTask.Local,
        HandlerTask.start faults t turn coroutine context l = advance faults t turn l₁ ∧
        l₁.task.state.coroutine.isSome = true ∧
        l₁.task.state.coroutine.isSome = l₁.task.state.context.isSome ∧
        l₁.task.state.mustCancel = l.task.state.mustCancel ∧
        l₁.task.state.waitingOn = l.task.state.waitingOn ∧
        l₁.task.state.deferredThrow = l.task.state.deferredThrow := by
      refine ⟨_, by rw [HandlerTask.start, if_neg (by simp [hfault])], ?_, ?_, ?_, ?_, ?_⟩ <;>
        split <;> rfl
    obtain ⟨hstate, hphase⟩ := advance_hands faults t turn hbuilt hpaired
    rw [← hstart] at hstate hphase
    refine h.undecided hopen hundecided hgoes (by rw [hstate, hmust]; exact id) ?_ ?_
    · intro turn' hbuilding'
      rcases hphase with ⟨entered, hclosing, -⟩ | ⟨hstepping, -⟩ <;> simp_all
    · rcases hphase with ⟨entered, hclosing, hfault⟩ | ⟨hstepping, hthrown⟩
      · exact .closing entered hclosing (hfaulty hfault)
      · have hnothing : pendingThrow l₁.world turn = none := by
          simp [pendingThrow, hturn, hcalmTurn, hnoFuture]
        refine .running p hstepping (by rw [hstate]; exact hbuilt)
          (by rw [hstate, hsame, hwaiting]) (by rw [hstate, hsame', hcalm]) ?_ ⟨p, hentry, .refl⟩
        simp [handedTo, hstepping, hthrown, hnothing, Serving.resumeFrame]

/-- A turn that ends with the task queued again, or is aborted. -/
theorem reschedule_leaves (faults : Faults) (t : TaskId) (l : HandlerTask.Local) :
    (rescheduleOrAbort faults t l).task.state = l.task.state ∧
      ((rescheduleOrAbort faults t l).task.phase = .idle ∨
        ∃ entered, (rescheduleOrAbort faults t l).task.phase = .closing entered ∧
          faults ≠ .none) := by
  unfold rescheduleOrAbort
  split
  · next hfault =>
    refine ⟨rfl, .inr ⟨true, rfl, ?_⟩⟩
    rintro rfl
    simp [Faults.none] at hfault
  · exact ⟨by rw [leave_task]; rfl, .inl (by rw [leave_task])⟩

/-- `park_on_future` parks the task, says why not, or fails. -/
theorem park_leaves (faults : Faults) (t : TaskId) (f : FutureId)
    (hwaiting : l.task.state.waitingOn = none) :
    (∃ l', parkOnFuture faults t f l = (l', .parked) ∧
        l'.task = { l.task with state := { l.task.state with waitingOn := some f } }) ∨
      (parkOnFuture faults t f l = (l, .badYield (.protocolError plainYield)) ∧
        (l.world.futures f).blocking = false) ∨
      (parkOnFuture faults t f l = (l, .badYield (.protocolError foreignFuture)) ∧
        foreign l.world f = true) ∨
      ∃ l', parkOnFuture faults t f l = (l', .failed) ∧ l'.task = l.task ∧ faults ≠ .none := by
  unfold parkOnFuture
  dsimp only
  split
  · next hflag => exact .inr (.inl ⟨rfl, by simpa using hflag⟩)
  split
  · next hforeign => exact .inr (.inr (.inl ⟨rfl, hforeign⟩))
  split
  · next hfault =>
    refine .inr (.inr (.inr ⟨l, rfl, rfl, ?_⟩))
    rintro rfl
    simp [Faults.none] at hfault
  split
  · next hfault =>
    refine .inr (.inr (.inr ⟨_, rfl, ?_, ?_⟩))
    · simp [setState, ← hwaiting]
    · rintro rfl
      simp [Faults.none] at hfault
  · exact .inl ⟨_, rfl, rfl⟩

/-- A cancellation that was requested in mid-step changes at most the flag. -/
theorem apply_leaves (t : TaskId) (l : HandlerTask.Local) :
    ∃ mustCancel, (applyCancelRequestedMidStep t l).task =
        { l.task with state := { l.task.state with mustCancel := mustCancel } } ∧
      (mustCancel = true → l.task.state.mustCancel = true) := by
  unfold applyCancelRequestedMidStep
  split
  · next f hcancel _ =>
    dsimp only
    split
    · exact ⟨false, rfl, by simp⟩
    · exact ⟨true, by simp [← hcancel], fun _ => hcancel⟩
  · exact ⟨l.task.state.mustCancel, rfl, id⟩

/-- A turn that ends with an error for the coroutine's next step. -/
def badYield (faults : Faults) (t : TaskId) (e : Asyncio.Exception) (l : HandlerTask.Local) :
    HandlerTask.Local :=
  rescheduleOrAbort faults t (setState l { l.task.state with deferredThrow := some e })

/-- A bad yield leaves its error to the next step. -/
theorem badYield_leaves (faults : Faults) (t : TaskId) (e : Asyncio.Exception)
    (l : HandlerTask.Local) :
    (badYield faults t e l).task.state = { l.task.state with deferredThrow := some e } ∧
      ((badYield faults t e l).task.phase = .idle ∨
        ∃ entered, (badYield faults t e l).task.phase = .closing entered ∧ faults ≠ .none) :=
  reschedule_leaves faults t (setState l { l.task.state with deferredThrow := some e })

/-- What a turn leaves in the task of a coroutine that has yielded. -/
structure YieldLeaves (y : Yielded) (flagged : Prop) (faults : Faults) (l l' : HandlerTask.Local) :
    Prop where
  coroutine : l'.task.state.coroutine = l.task.state.coroutine
  mustCancel : l'.task.state.mustCancel = true → l.task.state.mustCancel = true
  ends : (l'.task.phase = .idle ∧ Left l'.world l'.task.state flagged y) ∨
    ∃ entered, l'.task.phase = .closing entered ∧ faults ≠ .none

/-- A turn leaves a bad yield as its error. -/
theorem YieldLeaves.of_badYield {y : Yielded} {flagged : Prop} {e : Asyncio.Exception}
    (hwaiting : l.task.state.waitingOn = none)
    (hleft : ∀ w st, Extends l.world w → st.waitingOn = none → st.deferredThrow = some e →
      Left w st flagged y) :
    YieldLeaves y flagged faults l (badYield faults t e l) := by
  obtain ⟨hstate, hphase⟩ := badYield_leaves faults t e l
  have hgoes : Goes Extends l (badYield faults t e l) :=
    extends_footprint.goes_trans (extends_footprint.setState _)
      (extends_footprint.rescheduleOrAbort _)
  exact ⟨by rw [hstate], fun h => by simpa [hstate] using h, hphase.imp_left fun hidle =>
    ⟨hidle, hleft _ _ hgoes (by rw [hstate]; exact hwaiting) (by rw [hstate])⟩⟩

/-- A turn leaves in its task what the coroutine has yielded. -/
theorem yield_leaves (faults : Faults) (t : TaskId) (y : Yielded)
    (hwaiting : l.task.state.waitingOn = none) (hcalm : l.task.state.deferredThrow = none) :
    YieldLeaves y (∃ f, y = .future f ∧ (l.world.futures f).blocking = true) faults l
      (yieldStep faults t y l) := by
  cases y with
  | none =>
    obtain ⟨hstate, hphase⟩ := reschedule_leaves faults t l
    have hstep : yieldStep faults t .none l = rescheduleOrAbort faults t l := rfl
    rw [hstep]
    exact ⟨by rw [hstate], by rw [hstate]; exact id, hphase.imp_left fun hidle =>
      ⟨hidle, .again (by rw [hstate, hwaiting]) (by rw [hstate, hcalm])⟩⟩
  | object typeName =>
    exact YieldLeaves.of_badYield hwaiting fun _ _ _ => .unknown typeName
  | future f =>
    rcases park_leaves faults t f hwaiting with ⟨l', hpark, hl'⟩ | ⟨hpark, hflag⟩ |
      ⟨hpark, hforeign⟩ | ⟨l', hpark, hl', hfault⟩
    · obtain ⟨mustCancel, htask, hmust⟩ := apply_leaves t l'
      have hstep : (yieldStep faults t (.future f) l).task = { l.task with
          state := { l.task.state with waitingOn := some f, mustCancel := mustCancel }
          phase := .idle } := by
        simp only [yieldStep, hpark, leave_task, htask, hl']
      refine ⟨by rw [hstep], fun h => ?_, .inl ⟨by rw [hstep], ?_⟩⟩
      · rw [hstep] at h
        simpa [hl'] using hmust h
      · exact .parked f (by rw [hstep]) (by rw [hstep]; exact hcalm)
    · have hstep : yieldStep faults t (.future f) l =
          badYield faults t (.protocolError plainYield) l := by
        simp only [yieldStep, hpark, badYield]
      rw [hstep]
      refine .of_badYield hwaiting fun _ _ _ => .plain f ?_
      rintro ⟨f', heq, hblocking⟩
      obtain rfl : f = f' := by simpa using heq
      simp [hflag] at hblocking
    · have hstep : yieldStep faults t (.future f) l =
          badYield faults t (.protocolError foreignFuture) l := by
        simp only [yieldStep, hpark, badYield]
      rw [hstep]
      refine .of_badYield hwaiting fun _ _ hextends => ?_
      exact .elsewhere f ((hextends.foreign f).trans hforeign)
    · have hstep : yieldStep faults t (.future f) l = closeCoroutineQuietly true l' := by
        simp only [yieldStep, hpark]
      rw [hstep]
      exact ⟨by simp [closeCoroutineQuietly, hl'], by simp [closeCoroutineQuietly, hl'],
        .inr ⟨true, rfl, hfault⟩⟩

/-- **A coroutine yields.** -/
theorem Follows.yieldStep (h : Follows respond P values entry faulty t l frame)
    (hopen : l.task.state.finished = false) {p : Point} {y : Yielded}
    (hbuilt : l.task.state.coroutine.isSome = true) (hwaiting : l.task.state.waitingOn = none)
    (hcalm : l.task.state.deferredThrow = none) (hcomes : ComesTo P values entry l.world t p)
    (hmove : (∃ next, P p = .yields y next) ∨
      ∃ f next, P p = .awaits f next ∧ y = .future f ∧ (l.world.futures f).blocking = true)
    (hfaulty : faults ≠ .none → faulty) :
    Followed respond P values entry faulty t l.world (HandlerTask.yieldStep faults t y l)
      (some (.suspended p)) := by
  have hgoes : Goes Extends l (HandlerTask.yieldStep faults t y l) :=
    extends_footprint.yieldStep y l
  have hleaves := yield_leaves faults t y hwaiting hcalm
  refine h.undecided hopen (Undecided.yieldStep faults y l) hgoes hleaves.mustCancel ?_ ?_
  · intro turn hbuilding
    rcases hleaves.ends with ⟨hidle, -⟩ | ⟨entered, hclosing, -⟩ <;> simp_all
  · rcases hleaves.ends with ⟨hidle, hleft⟩ | ⟨entered, hclosing, hfault⟩
    · refine .suspended p hidle (hleaves.coroutine ▸ hbuilt) rfl (hcomes.mono hgoes) ?_
      rcases hmove with ⟨next, hmove⟩ | ⟨f, next, hmove, rfl, hblocking⟩ <;>
        simp only [Due, hmove]
      · exact hleft.congr (.refl _) False.elim rfl rfl
      · exact hleft.congr (.refl _) (fun _ => ⟨f, rfl, hblocking⟩) rfl rfl
    · exact .closing entered hclosing (hfaulty hfault)

/-- **A coroutine ends.** -/
theorem Follows.ends (h : Follows respond P values entry faulty t l frame)
    (hopen : l.task.state.finished = false) {input : Input} {ending : TurnEnding}
    (hending : endingOfInput respond l.task.phase input = some ending)
    (hresponse : ending.response = ending.completion.response respond)
    (hends : Ends P values entry faulty t l ending.completion) :
    Followed respond P values entry faulty t l.world
      (HandlerTask.resume respond faults t input l) frame' := by
  rw [resume_of_ending hending, hresponse]
  exact h.finish hopen hends ending.entered

end

end Rayo
