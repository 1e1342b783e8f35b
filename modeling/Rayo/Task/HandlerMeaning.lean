import Rayo.Task.Extension
import Rayo.Task.Serving

/-!
# What a handler means

What a handler comes to by its own code, with the awaited futures as they end up. A request for
cancellation can only show as a `CancelledError` at an await or a yield.
-/

namespace Rayo

open Asyncio Asyncio.World HandlerTask Coroutine TaskState

/-- The future belongs to another loop than the one that asks. -/
def foreign (w : World LoopHandles) (f : FutureId) : Bool :=
  (w.futures f).loop.any (· ≠ w.loop)

/-- A `CancelledError` for a task that somebody has called `cancel` on. -/
def Interrupts (w : World LoopHandles) (t : TaskId) (e : Asyncio.Exception) : Prop :=
  e.isCancelled = true ∧ Asked w t

/-- How the coroutine of `t` may be answered when it has awaited `f`: as the future has ended, with
an error if the future belongs to another loop, or with a cancellation. -/
def Answers (values : FutureId → Value) (w : World LoopHandles) (t : TaskId) (f : FutureId)
    (r : Except Asyncio.Exception Value) : Prop :=
  settled values w f = some r ∨
    (foreign w f = true ∧ r = .error (.protocolError foreignFuture)) ∨
    ∃ e, r = .error e ∧ Interrupts w t e

/-- How it may be answered when it has yielded an object without awaiting anything: with nothing
after a bare `yield`, with an explanation after an object that the scheduler does not understand. A
future that is yielded without being awaited is refused, unless its flag happens to be set. -/
def Replies (values : FutureId → Value) (w : World LoopHandles) (t : TaskId) (y : Yielded)
    (r : Option Asyncio.Exception) : Prop :=
  (match y with
    | .none => r = none
    | .object typeName => r = some (.protocolError (unknownYield typeName))
    | .future f => r = some (.protocolError plainYield) ∨
        (foreign w f = true ∧ r = some (.protocolError foreignFuture)) ∨
        ((settled values w f).isSome = true ∧ r = (w.futures f).status.error)) ∨
    ∃ e, r = some e ∧ Interrupts w t e

/-- The loop as the environment of the coroutine of `t`. -/
def environment (values : FutureId → Value) (w : World LoopHandles) (t : TaskId) :
    Environment FutureId Value Asyncio.Exception Yielded where
  answers := Answers values w t
  replies := Replies values w t

variable {Point : Type}

/-- What a request ends with, by the code of its handler alone. -/
inductive Denotes (P : HandlerCode Point)
    (E : Environment FutureId Value Asyncio.Exception Yielded) :
    Except Asyncio.Exception Point → CompletionKind → Prop
  | failedCall (e : Asyncio.Exception) : Denotes P E (.error e) (.raised e)
  | returned {p : Point} {value : Value} : Evaluates P E p (.returned value) →
    Denotes P E (.ok p) (.returned value)
  | raised {p : Point} {e : Asyncio.Exception} : Evaluates P E p (.raised e) →
    Denotes P E (.ok p) (endingOfError e)

section

variable {values : FutureId → Value} {w w' : World LoopHandles} {t : TaskId} {f : FutureId}
  {P : HandlerCode Point} {p : Point}

/-- How a future is settled depends on its status. -/
theorem settled_congr (hstatus : (w'.futures f).status = (w.futures f).status) :
    settled values w' f = settled values w f := by
  simp only [settled, hstatus]

/-- A settled future is not pending. -/
theorem status_of_settled {r : Except Asyncio.Exception Value}
    (h : settled values w f = some r) : (w.futures f).status ≠ .pending := by
  intro hpending
  simp [settled, hpending] at h

/-- A future that is done has an answer. -/
theorem settled_of_status (values : FutureId → Value) (hdone : (w.futures f).status ≠ .pending) :
    ∃ r, settled values w f = some r ∧
      ∀ e, (w.futures f).status.error = some e → r = .error e := by
  cases hstatus : (w.futures f).status <;> simp_all [settled, Status.error]

/-- A settled future stays settled as long as nothing is taken back. -/
theorem Extends.settled (h : Extends w w') {r : Except Asyncio.Exception Value}
    (hsettled : settled values w f = some r) : Rayo.settled values w' f = some r := by
  rw [settled_congr (h.status f (status_of_settled hsettled)), hsettled]

/-- A future stays on its loop. -/
theorem Extends.foreign (h : Extends w w') (f : FutureId) : foreign w' f = foreign w f := by
  simp only [Rayo.foreign, h.futureLoop, h.loop]

/-- A cancellation that may interrupt may do so still when nothing is taken back. -/
theorem Extends.interrupts {e : Asyncio.Exception} (h : Extends w w')
    (hinterrupts : Interrupts w t e) : Interrupts w' t e :=
  ⟨hinterrupts.1, h.asked hinterrupts.2⟩

/-- As the loop goes on more is answered, and nothing is taken back. -/
theorem Extends.within (h : Extends w w') :
    (environment values w t).Within (environment values w' t) := by
  constructor
  · rintro f r (hsettled | ⟨hforeign, rfl⟩ | ⟨e, rfl, hinterrupts⟩)
    · exact .inl (h.settled hsettled)
    · exact .inr (.inl ⟨h.foreign f ▸ hforeign, rfl⟩)
    · exact .inr (.inr ⟨e, rfl, h.interrupts hinterrupts⟩)
  · rintro y r (hreply | ⟨e, rfl, hinterrupts⟩)
    · left
      cases y with
      | none => exact hreply
      | object typeName => exact hreply
      | future f =>
        rcases hreply with hplain | ⟨hforeign, rfl⟩ | ⟨hdone, rfl⟩
        · exact .inl hplain
        · exact .inr (.inl ⟨h.foreign f ▸ hforeign, rfl⟩)
        · obtain ⟨r, hr⟩ := Option.isSome_iff_exists.mp hdone
          refine .inr (.inr ⟨by rw [h.settled hr]; rfl, ?_⟩)
          rw [h.status f (status_of_settled hr)]
    · exact .inr ⟨e, rfl, h.interrupts hinterrupts⟩

/-- What the end of a turn leaves in the task of a coroutine that has yielded, perhaps a future
whose flag is set. -/
inductive Left (w : World LoopHandles) (st : TaskState) (flagged : Prop) : Yielded → Prop
  | again : st.waitingOn = none → st.deferredThrow = none → Left w st flagged .none
  | unknown (typeName : Option String) : st.waitingOn = none →
    st.deferredThrow = some (.protocolError (unknownYield typeName)) →
    Left w st flagged (.object typeName)
  | parked (f : FutureId) : st.waitingOn = some f → st.deferredThrow = none →
    Left w st flagged (.future f)
  | plain (f : FutureId) : ¬flagged → st.waitingOn = none →
    st.deferredThrow = some (.protocolError plainYield) → Left w st flagged (.future f)
  | elsewhere (f : FutureId) : foreign w f = true → st.waitingOn = none →
    st.deferredThrow = some (.protocolError foreignFuture) → Left w st flagged (.future f)

/-- The task will do what the last move of its coroutine asks for. -/
def Due (P : HandlerCode Point) (w : World LoopHandles) (st : TaskState) (p : Point) : Prop :=
  match P p with
  | .awaits f _ => Left w st True (.future f)
  | .yields y _ => Left w st False y
  | .returns _ | .raises _ => False

/-- What a turn leaves in its task depends on what the task awaits and is to throw. -/
theorem Left.congr {st st' : TaskState} {flagged flagged' : Prop} {y : Yielded}
    (h : Left w st flagged y) (hextends : Extends w w') (hflagged : flagged' → flagged)
    (hwaiting : st'.waitingOn = st.waitingOn) (hdeferred : st'.deferredThrow = st.deferredThrow) :
    Left w' st' flagged' y := by
  cases h with
  | again h h' => exact .again (hwaiting.trans h) (hdeferred.trans h')
  | unknown typeName h h' => exact .unknown typeName (hwaiting.trans h) (hdeferred.trans h')
  | parked f h h' => exact .parked f (hwaiting.trans h) (hdeferred.trans h')
  | plain f hflag h h' => exact .plain f (mt hflagged hflag) (hwaiting.trans h) (hdeferred.trans h')
  | elsewhere f hforeign h h' =>
    exact .elsewhere f ((hextends.foreign f).trans hforeign) (hwaiting.trans h) (hdeferred.trans h')

/-- What a task is due to do depends on what it awaits and is to throw. -/
theorem Due.congr {st st' : TaskState} (h : Due P w st p) (hextends : Extends w w')
    (hwaiting : st'.waitingOn = st.waitingOn) (hdeferred : st'.deferredThrow = st.deferredThrow) :
    Due P w' st' p := by
  cases hmove : P p <;> simp only [Due, hmove] at h ⊢
  case awaits => exact h.congr hextends id hwaiting hdeferred
  case yields => exact h.congr hextends id hwaiting hdeferred

/-- A pending cancellation is thrown instead of anything else that is not one. -/
theorem pendingThrow_cases (w : World LoopHandles) (turn : Turn) :
    (turn.mustCancel = true ∧ ∃ message, pendingThrow w turn = some (.cancelledError message)) ∨
      pendingThrow w turn = (turn.finishedFuture.bind fun f => (w.futures f).status.error).or
        turn.deferredThrow := by
  unfold pendingThrow
  dsimp only
  split
  · next h =>
    simp only [Bool.and_eq_true] at h
    exact .inl ⟨h.1, _, rfl⟩
  · exact .inr rfl

/-- **Resuming.** What the driver sends or throws is one of the answers that the move of the
suspended coroutine allows. -/
theorem steps_of_due (values : FutureId → Value) (t : TaskId) {st : TaskState}
    {handed : Option Asyncio.Exception} (h : Due P w st p) (hextends : Extends w w')
    (hasked : st.mustCancel = true → Asked w t)
    (hdone : ∀ f, st.waitingOn = some f → (w.futures f).status ≠ .pending)
    (hhanded : handed = pendingThrow w (takeTurn st.waitingOn st)) :
    ∃ q, Serving.resumeFrame P values w' handed (.suspended p) = .running q ∧
      Steps P (environment values w' t) p q := by
  have hinterrupt {message : Option Value} (hcancel : st.mustCancel = true) :
      Interrupts w' t (.cancelledError message) := ⟨rfl, hextends.asked (hasked hcancel)⟩
  have hcases := pendingThrow_cases w (takeTurn st.waitingOn st)
  rw [← hhanded] at hcases
  cases hmove : P p with
  | returns value => simp only [Due, hmove] at h
  | raises e => simp only [Due, hmove] at h
  | awaits f next =>
    simp only [Due, hmove] at h
    refine ⟨next (Serving.resumeAwait values w' f handed), by
      simp only [Serving.resumeFrame, hmove], .awaits hmove ?_⟩
    rcases hcases with ⟨hcancel, message, rfl⟩ | hthrow
    · exact .inr (.inr ⟨_, rfl, hinterrupt hcancel⟩)
    cases h with
    | parked _ hwaiting hdeferred =>
      obtain ⟨r, hr, herror⟩ := settled_of_status values (hdone f hwaiting)
      simp only [takeTurn, hwaiting, hdeferred, Option.bind_some, Option.or_none] at hthrow
      left
      rw [hextends.settled hr, hthrow]
      cases hstatus : (w.futures f).status.error with
      | none => simp [Serving.resumeAwait, hextends.settled hr]
      | some e => rw [herror e hstatus, Serving.resumeAwait]
    | plain _ hflag => exact absurd trivial hflag
    | elsewhere _ hforeign hwaiting hdeferred =>
      simp only [takeTurn, hwaiting, hdeferred, Option.bind_none, Option.none_or] at hthrow
      exact .inr (.inl ⟨(hextends.foreign f).trans hforeign, by rw [hthrow, Serving.resumeAwait]⟩)
  | yields y next =>
    simp only [Due, hmove] at h
    refine ⟨next handed, by simp only [Serving.resumeFrame, hmove], .yields hmove ?_⟩
    rcases hcases with ⟨hcancel, message, rfl⟩ | hthrow
    · exact .inr ⟨_, rfl, hinterrupt hcancel⟩
    left
    cases h with
    | again hwaiting hdeferred =>
      simpa [takeTurn, hwaiting, hdeferred] using hthrow
    | unknown _ hwaiting hdeferred =>
      simpa [takeTurn, hwaiting, hdeferred] using hthrow
    | parked f hwaiting hdeferred =>
      obtain ⟨r, hr, -⟩ := settled_of_status values (hdone f hwaiting)
      refine .inr (.inr ⟨by rw [hextends.settled hr]; rfl, ?_⟩)
      rw [hextends.status f (hdone f hwaiting)]
      simpa [takeTurn, hwaiting, hdeferred] using hthrow
    | plain f _ hwaiting hdeferred =>
      exact .inl (by simpa [takeTurn, hwaiting, hdeferred] using hthrow)
    | elsewhere f hforeign hwaiting hdeferred =>
      refine .inr (.inl ⟨(hextends.foreign f).trans hforeign, ?_⟩)
      simpa [takeTurn, hwaiting, hdeferred] using hthrow

end

end Rayo
