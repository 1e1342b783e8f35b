import Mathlib.Logic.Relation

/-!
# Coroutines and their meaning

A coroutine function is given by what it does at each of its points: it returns, raises,
awaits a future or yields a signal to whoever drives it. Its meaning does not mention a driver.
It only says what an await and a yield may be answered with, so that a driver preserves the
meaning if each of its answers is one of these.
-/

namespace Coroutine

open Relation

variable {Point Future Value Error Signal : Type*}

/-- What a coroutine does next. -/
inductive Move (Point Future Value Error Signal : Type*)
  | returns (value : Value)
  | raises (e : Error)
  /-- Wait for a future, whose result or error is what the coroutine goes on with. -/
  | awaits (f : Future) (next : Except Error Value → Point)
  /-- Hand a signal to the driver, which may throw when it resumes the coroutine. -/
  | yields (signal : Signal) (next : Option Error → Point)

/-- A coroutine function. -/
abbrev Program (Point Future Value Error Signal : Type*) :=
  Point → Move Point Future Value Error Signal

/-- How a coroutine ends. -/
inductive Outcome (Value Error : Type*)
  | returned (value : Value)
  | raised (e : Error)
  deriving DecidableEq

/-- The outcome of a move that ends the coroutine. -/
def Move.outcome : Move Point Future Value Error Signal → Option (Outcome Value Error)
  | .returns value => some (.returned value)
  | .raises e => some (.raised e)
  | .awaits .. | .yields .. => none

/-- What awaits and yields may be answered with. -/
structure Environment (Future Value Error Signal : Type*) where
  answers : Future → Except Error Value → Prop
  replies : Signal → Option Error → Prop

/-- Whatever one environment may answer, the other may answer too. -/
structure Environment.Within (E E' : Environment Future Value Error Signal) : Prop where
  answers : ∀ f r, E.answers f r → E'.answers f r
  replies : ∀ y r, E.replies y r → E'.replies y r

section

variable (P : Program Point Future Value Error Signal)
  (E : Environment Future Value Error Signal)

/-- The coroutine goes on from one point to another. -/
inductive Steps : Point → Point → Prop
  | awaits {p : Point} {f : Future} {next : Except Error Value → Point} {r : Except Error Value} :
    P p = .awaits f next → E.answers f r → Steps p (next r)
  | yields {p : Point} {signal : Signal} {next : Option Error → Point} {r : Option Error} :
    P p = .yields signal next → E.replies signal r → Steps p (next r)

/-- The points that the coroutine can come to. -/
def Leads : Point → Point → Prop := ReflTransGen (Steps P E)

/-- The coroutine can end in this way. -/
def Evaluates (p : Point) (o : Outcome Value Error) : Prop :=
  ∃ q, Leads P E p q ∧ (P q).outcome = some o

/-- The coroutine cannot go on. -/
def Halts (p : Point) : Prop := ∀ q, ¬ Steps P E p q

/-- At the points of the coroutine there is never more than one answer. -/
structure Decided : Prop where
  answers : ∀ p f next r r', P p = .awaits f next → E.answers f r → E.answers f r' → r = r'
  replies : ∀ p y next r r', P p = .yields y next → E.replies y r → E.replies y r' → r = r'

end

variable {P : Program Point Future Value Error Signal}
  {E E' : Environment Future Value Error Signal} {p q q' : Point}

/-- What a coroutine can come to stays possible as more is answered. -/
theorem Leads.mono (h : Leads P E p q) (hle : E.Within E') : Leads P E' p q := by
  refine ReflTransGen.mono (fun a b hstep => ?_) _ _ h
  cases hstep with
  | awaits hmove hanswer => exact .awaits hmove (hle.answers _ _ hanswer)
  | yields hmove hreply => exact .yields hmove (hle.replies _ _ hreply)

/-- A coroutine that has ended does not go on. -/
theorem halts_of_outcome {o : Outcome Value Error} (h : (P p).outcome = some o) :
    Halts P E p := by
  intro q hstep
  cases hstep with
  | awaits hmove _ => simp [hmove, Move.outcome] at h
  | yields hmove _ => simp [hmove, Move.outcome] at h

/-- A coroutine that awaits a future without an answer does not go on. -/
theorem halts_of_awaits {f : Future} {next : Except Error Value → Point}
    (hmove : P p = .awaits f next) (hnone : ∀ r, ¬ E.answers f r) : Halts P E p := by
  intro q hstep
  cases hstep with
  | awaits hmove' hanswer =>
    obtain ⟨rfl, -⟩ : f = _ ∧ next = _ := by simpa using hmove.symm.trans hmove'
    exact hnone _ hanswer
  | yields hmove' _ => simp [hmove] at hmove'

/-- With at most one answer at each point, the coroutine goes on to at most one point. -/
theorem Decided.rightUnique (h : Decided P E) : Relator.RightUnique (Steps P E) := by
  intro p q q' hstep hstep'
  cases hstep with
  | awaits hmove hanswer =>
    cases hstep' with
    | awaits hmove' hanswer' =>
      obtain ⟨rfl, rfl⟩ : _ ∧ _ := by simpa using hmove.symm.trans hmove'
      rw [h.answers _ _ _ _ _ hmove hanswer hanswer']
    | yields hmove' _ => simp [hmove] at hmove'
  | yields hmove hreply =>
    cases hstep' with
    | awaits hmove' _ => simp [hmove] at hmove'
    | yields hmove' hreply' =>
      obtain ⟨rfl, rfl⟩ : _ ∧ _ := by simpa using hmove.symm.trans hmove'
      rw [h.replies _ _ _ _ _ hmove hreply hreply']

/-- Then there is only one point where it can stop. -/
theorem Decided.halt_unique (h : Decided P E) (hq : Leads P E p q) (hq' : Leads P E p q')
    (hhalt : Halts P E q) (hhalt' : Halts P E q') : q = q' := by
  have hstays {a b : Point} (hab : ReflTransGen (Steps P E) a b) (ha : Halts P E a) : a = b := by
    rcases hab.cases_head with heq | ⟨c, hstep, -⟩
    · exact heq
    · exact absurd hstep (ha c)
  rcases hq.total_of_right_unique h.rightUnique hq' with hqq' | hq'q
  · exact hstays hqq' hhalt
  · exact (hstays hq'q hhalt').symm

/-- Then it has at most one outcome. -/
theorem Decided.outcome_unique (h : Decided P E) {o o' : Outcome Value Error}
    (ho : Evaluates P E p o) (ho' : Evaluates P E p o') : o = o' := by
  obtain ⟨q, hq, hend⟩ := ho
  obtain ⟨q', hq', hend'⟩ := ho'
  obtain rfl := h.halt_unique hq hq' (halts_of_outcome hend) (halts_of_outcome hend')
  exact Option.some.inj (hend.symm.trans hend')

/-- Then it has no outcome if it comes to a point where it waits in vain. -/
theorem Decided.not_evaluates (h : Decided P E) (hq : Leads P E p q) (hhalt : Halts P E q)
    (hwaits : (P q).outcome = none) (o : Outcome Value Error) : ¬ Evaluates P E p o := by
  rintro ⟨q', hq', hend⟩
  obtain rfl := h.halt_unique hq hq' hhalt (halts_of_outcome hend)
  simp [hwaits] at hend

end Coroutine
