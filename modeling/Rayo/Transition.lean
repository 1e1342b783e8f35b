import Mathlib.Data.List.Basic

/-!
# Runs of labelled transition systems

A concurrent component is given by the events its threads can perform: when an event
is enabled, and the state after it. All nondeterminism lies in the choice of the next
event, so a run is a list of events. Safety is a statement about every reachable
state. Where a component is only safe under a discipline on its steps, runs are
restricted to the events that an `allowed` predicate accepts in the state before them.
-/

namespace Transition

variable {State Event : Type*}

/-- A transition system with explicit guards and effects. -/
structure System (State Event : Type*) where
  /-- The states a run may start in. -/
  init : State → Prop
  /-- Whether an event can happen in a state. -/
  enabled : State → Event → Bool
  /-- The state after an enabled event. -/
  effect : State → Event → State

/-- The states reached by runs all of whose events are allowed in the state before them. -/
inductive System.ReachesUnder (S : System State Event) (allowed : State → Event → Prop) :
    State → Prop
  | init {s : State} : S.init s → S.ReachesUnder allowed s
  | step {s : State} {e : Event} : S.ReachesUnder allowed s → allowed s e →
      S.enabled s e = true → S.ReachesUnder allowed (S.effect s e)

/-- The states reached by any run. -/
def System.Reaches (S : System State Event) : State → Prop :=
  S.ReachesUnder fun _ _ => True

/-- Execute a list of events, failing at the first one that is not enabled. -/
def System.exec (S : System State Event) : State → List Event → Option State
  | s, [] => some s
  | s, e :: es => if S.enabled s e then S.exec (S.effect s e) es else none

variable {S : System State Event} {allowed : State → Event → Prop}

/-- The invariant rule: what holds initially and is kept by every allowed event holds of
every state that allowed runs reach. -/
theorem System.ReachesUnder.invariant {I : State → Prop} {s : State}
    (hreach : S.ReachesUnder allowed s) (hinit : ∀ s, S.init s → I s)
    (hstep : ∀ s e, I s → allowed s e → S.enabled s e = true → I (S.effect s e)) : I s := by
  induction hreach with
  | init h => exact hinit _ h
  | step _ hallowed henabled ih => exact hstep _ _ ih hallowed henabled

/-- A discipline that accepts every event another one accepts along its runs allows at
least those runs. -/
theorem System.ReachesUnder.mono {allowed' : State → Event → Prop} {s : State}
    (hreach : S.ReachesUnder allowed s)
    (hle : ∀ s e, S.ReachesUnder allowed s → allowed s e → S.enabled s e = true → allowed' s e) :
    S.ReachesUnder allowed' s := by
  induction hreach with
  | init h => exact .init h
  | step hprefix hallowed henabled ih =>
    exact .step ih (hle _ _ hprefix hallowed henabled) henabled

/-- Forgetting the discipline of a run. -/
theorem System.ReachesUnder.reaches {s : State} (hreach : S.ReachesUnder allowed s) :
    S.Reaches s :=
  hreach.mono fun _ _ _ _ _ => trivial

/-- The invariant rule for unrestricted runs. -/
theorem System.Reaches.invariant {I : State → Prop} {s : State} (hreach : S.Reaches s)
    (hinit : ∀ s, S.init s → I s)
    (hstep : ∀ s e, I s → S.enabled s e = true → I (S.effect s e)) : I s :=
  System.ReachesUnder.invariant hreach hinit fun s e hI _ henabled => hstep s e hI henabled

/-- Executing events goes on with a run. -/
theorem System.Reaches.exec {s s' : State} {es : List Event} (hreach : S.Reaches s)
    (hexec : S.exec s es = some s') : S.Reaches s' := by
  induction es generalizing s with
  | nil =>
    simp only [System.exec, Option.some.injEq] at hexec
    exact hexec ▸ hreach
  | cons e es ih =>
    simp only [System.exec, Option.ite_none_right_eq_some] at hexec
    exact ih (.step hreach trivial hexec.1) hexec.2

/-- Executing events goes on with a disciplined run where the discipline accepts these events in
every state. -/
theorem System.ReachesUnder.exec_of_forall {s s' : State} {es : List Event}
    (hreach : S.ReachesUnder allowed s) (hallowed : ∀ s, ∀ e ∈ es, allowed s e)
    (hexec : S.exec s es = some s') : S.ReachesUnder allowed s' := by
  induction es generalizing s with
  | nil =>
    simp only [System.exec, Option.some.injEq] at hexec
    exact hexec ▸ hreach
  | cons e es ih =>
    simp only [System.exec, Option.ite_none_right_eq_some] at hexec
    exact ih (.step hreach (hallowed s e List.mem_cons_self) hexec.1)
      (fun s' e' he' => hallowed s' e' (List.mem_cons_of_mem _ he')) hexec.2

/-- A run can be executed in two parts. -/
theorem System.exec_append {s s' : State} {es : List Event} (hexec : S.exec s es = some s')
    (es' : List Event) : S.exec s (es ++ es') = S.exec s' es' := by
  induction es generalizing s with
  | nil =>
    simp only [System.exec, Option.some.injEq] at hexec
    exact hexec ▸ rfl
  | cons e es ih =>
    simp only [System.exec, Option.ite_none_right_eq_some] at hexec
    simp only [List.cons_append, System.exec, hexec.1, if_true]
    exact ih hexec.2

/-- The run of these events takes the event in this state. -/
def System.Takes (S : System State Event) (s₀ : State) (es : List Event) (s : State)
    (e : Event) : Prop :=
  ∃ before after, es = before ++ e :: after ∧ S.exec s₀ before = some s

/-- A run that goes on takes its events from where it is. -/
theorem System.ReachesUnder.exec_takes {s₀ s s' : State} {before after : List Event}
    (hbefore : S.exec s₀ before = some s)
    (hreach : S.ReachesUnder (S.Takes s₀ (before ++ after)) s)
    (hexec : S.exec s after = some s') : S.ReachesUnder (S.Takes s₀ (before ++ after)) s' := by
  induction after generalizing s before with
  | nil =>
    simp only [System.exec, Option.some.injEq] at hexec
    exact hexec ▸ hreach
  | cons e after ih =>
    simp only [System.exec, Option.ite_none_right_eq_some] at hexec
    have hnext : S.exec s₀ (before ++ [e]) = some (S.effect s e) := by
      rw [S.exec_append hbefore]
      simp [System.exec, hexec.1]
    have hsplit : before ++ e :: after = before ++ [e] ++ after := by simp
    have hstep : S.ReachesUnder (S.Takes s₀ (before ++ e :: after)) (S.effect s e) :=
      .step hreach ⟨before, after, rfl, hbefore⟩ hexec.1
    rw [hsplit] at hstep ⊢
    exact ih hnext hstep hexec.2

/-- An executed run keeps to the steps that it takes. -/
theorem System.ReachesUnder.of_exec {s₀ s : State} {es : List Event} (hinit : S.init s₀)
    (hexec : S.exec s₀ es = some s) : S.ReachesUnder (S.Takes s₀ es) s :=
  System.ReachesUnder.exec_takes (show S.exec s₀ [] = some s₀ from rfl) (.init hinit) hexec

/-- The runs that go on from a given state. -/
def System.startingAt (S : System State Event) (s : State) : System State Event :=
  { S with init := fun s' => s' = s }

/-- The system whose events are also accepted by a decidable discipline. -/
def System.restrict (S : System State Event) (p : State → Event → Bool) : System State Event where
  init := S.init
  enabled s e := S.enabled s e && p s e
  effect := S.effect

/-- Executing a restricted system extends a disciplined run. -/
theorem System.ReachesUnder.exec {p : State → Event → Bool} {s s' : State} {es : List Event}
    (hreach : S.ReachesUnder (fun s e => p s e = true) s)
    (hexec : (S.restrict p).exec s es = some s') :
    S.ReachesUnder (fun s e => p s e = true) s' := by
  induction es generalizing s with
  | nil =>
    simp only [System.exec, Option.some.injEq] at hexec
    exact hexec ▸ hreach
  | cons e es ih =>
    simp only [System.exec, System.restrict, Bool.and_eq_true,
      Option.ite_none_right_eq_some] at hexec
    exact ih (.step hreach hexec.1.2 hexec.1.1) hexec.2

/-- A decidable property of the last state of an executed disciplined run holds of a state
that such runs reach. -/
theorem System.exists_reachesUnder_of_exec {p : State → Event → Bool} {s : State}
    {es : List Event} {q : State → Bool} (hinit : S.init s)
    (hexec : ((S.restrict p).exec s es).map q = some true) :
    ∃ s', S.ReachesUnder (fun s e => p s e = true) s' ∧ q s' = true := by
  obtain ⟨s', hs', hq⟩ := Option.map_eq_some_iff.mp hexec
  exact ⟨s', System.ReachesUnder.exec (.init hinit) hs', hq⟩

/-- A decidable property of the last state of an executed run holds of a reachable state. -/
theorem System.exists_reaches_of_exec {s : State} {es : List Event} {q : State → Bool}
    (hinit : S.init s)
    (hexec : ((S.restrict fun _ _ => true).exec s es).map q = some true) :
    ∃ s', S.Reaches s' ∧ q s' = true := by
  obtain ⟨s', hs', hq⟩ := S.exists_reachesUnder_of_exec hinit hexec
  exact ⟨s', hs'.reaches, hq⟩

/-- From a state on, events of a kind can lead to a goal. -/
inductive System.CanReach (S : System State Event) (own : Event → Prop) (goal : State → Prop) :
    State → Prop
  | done {s : State} : goal s → S.CanReach own goal s
  | step {s : State} (e : Event) : own e → S.enabled s e = true →
      S.CanReach own goal (S.effect s e) → S.CanReach own goal s

variable {own : Event → Prop} {goal goal' : State → Prop}

/-- What leads to one goal leads to every goal that it implies. -/
theorem System.CanReach.mono {s : State} (h : S.CanReach own goal s)
    (hgoal : ∀ s, goal s → goal' s) : S.CanReach own goal' s := by
  induction h with
  | done h => exact .done (hgoal _ h)
  | step e hown henabled _ ih => exact .step e hown henabled ih

/-- Goals are reached one after the other, by runs that keep to a discipline. -/
theorem System.CanReach.trans {s : State} (h : S.CanReach own goal s)
    (hreach : S.ReachesUnder allowed s) (hown : ∀ s e, own e → allowed s e)
    (hnext : ∀ s, S.ReachesUnder allowed s → goal s → S.CanReach own goal' s) :
    S.CanReach own goal' s := by
  induction h with
  | done h => exact hnext _ hreach h
  | step e he henabled _ ih =>
    exact .step e he henabled (ih (.step hreach (hown _ e he) henabled))

/-- The events that lead to the goal. -/
theorem System.CanReach.exists_exec {s : State} (h : S.CanReach own goal s) :
    ∃ es s', (∀ e ∈ es, own e) ∧ S.exec s es = some s' ∧ goal s' := by
  induction h with
  | @done s h => exact ⟨[], s, nofun, rfl, h⟩
  | @step s e hown henabled _ ih =>
    obtain ⟨es, s', hes, hexec, hgoal⟩ := ih
    refine ⟨e :: es, s', fun e' he' => ?_, ?_, hgoal⟩
    · rcases List.mem_cons.mp he' with rfl | he'
      · exact hown
      · exact hes e' he'
    · simp only [System.exec, henabled, if_true]
      exact hexec

/-- The projection rule: if every step of the whole is an allowed step of a component or leaves it as
it is, the component runs as it could alone. -/
theorem System.ReachesUnder.project {State' Event' : Type*} {T : System State' Event'}
    {allowed' : State' → Event' → Prop} (component : State → State') {s : State}
    (hreach : S.ReachesUnder allowed s) (hinit : ∀ s, S.init s → T.init (component s))
    (hstep : ∀ s e, allowed s e → S.enabled s e = true →
      component (S.effect s e) = component s ∨ ∃ e', allowed' (component s) e' ∧
        T.enabled (component s) e' = true ∧ component (S.effect s e) = T.effect (component s) e') :
    T.ReachesUnder allowed' (component s) := by
  induction hreach with
  | init h => exact .init (hinit _ h)
  | step _ hallowed henabled ih =>
    rcases hstep _ _ hallowed henabled with heq | ⟨e', hallowed', henabled', heq⟩
    · rw [heq]
      exact ih
    · rw [heq]
      exact .step ih hallowed' henabled'

variable {State' : Type*}

/-- Two systems that perform the same events, from start states that belong together. An
event happens as soon as one of them can perform it. -/
def System.lockstep (S : System State Event) (T : System State' Event)
    (together : State → State' → Prop) : System (State × State') Event where
  init s := S.init s.1 ∧ T.init s.2 ∧ together s.1 s.2
  enabled s e := S.enabled s.1 e || T.enabled s.2 e
  effect s e := (S.effect s.1 e, T.effect s.2 e)

/-- The simulation rule: a relation that related systems start in, that makes the same events
possible in both, and that is kept by every event possible in both, holds along all runs. -/
theorem System.ReachesUnder.simulation {S : System State Event} {T : System State' Event}
    {together : State → State' → Prop} {allowed : State × State' → Event → Prop}
    {R : State → State' → Prop} {s : State × State'}
    (hreach : (S.lockstep T together).ReachesUnder allowed s)
    (hinit : ∀ a b, S.init a → T.init b → together a b → R a b)
    (hsame : ∀ a b e, R a b → allowed (a, b) e → S.enabled a e = T.enabled b e)
    (hstep : ∀ a b e, R a b → allowed (a, b) e → S.enabled a e = true →
      T.enabled b e = true → R (S.effect a e) (T.effect b e)) : R s.1 s.2 := by
  refine hreach.invariant (fun s h => hinit _ _ h.1 h.2.1 h.2.2) fun s e hR hallowed henabled => ?_
  have hboth := hsame s.1 s.2 e hR hallowed
  have henabled' : S.enabled s.1 e = true ∨ T.enabled s.2 e = true := by
    simpa [System.lockstep] using henabled
  rcases henabled' with h | h
  · exact hstep _ _ e hR hallowed h (hboth ▸ h)
  · exact hstep _ _ e hR hallowed (hboth.trans h) h

end Transition
