import Rayo.Task.FaithfulRuns

/-!
# What the requests of a loop end with

Every task keeps to the code of its handler through every event of its loop. A request is
therefore answered with what the handler evaluates to, and when the loop has nothing left to do
the requests without an answer are those whose handlers wait for a future that is not done.
-/

namespace Rayo

open Asyncio Asyncio.World HandlerTask Coroutine TaskState

variable {Point : Type}

section

variable {respond : Value → HandlerResponse} {P : HandlerCode Point} {values : FutureId → Value}
  {entry : TaskId → Except Asyncio.Exception Point} {s : Serving Point} {t : TaskId}
  {k : HandlerTask}

/-- **Requests end as their handlers say.** On every run, a request that is over was answered
once, with the response to what its task records. This is what the code of its handler evaluates
to, where the awaited futures have answered as they have ended and a cancellation that somebody
has asked for may have shown as a `CancelledError` at an await or a yield. The exceptions are a
task that was cancelled before its handler was called, and one that was aborted because a call that
the driver made for it on this run failed. -/
theorem finished_task_ends_as_meant {s₀ : Serving Point} {es : List Serving.Event}
    (hinit : (Serving.system respond P values entry).init s₀)
    (hexec : (Serving.system respond P values entry).exec s₀ es = some s)
    (htask : s.loop.tasks t = some k) (hfinished : k.state.finished = true) :
    ∃ c, k.state.verdict = verdictOf c ∧
      s.loop.world.shared.responses.filter (·.1 = t) = [(t, c.response respond)] ∧
      (Denotes P (environment values s.loop.world t) (entry t) c ∨
        (∃ message, c = .cancelled message ∧ k.factoryCalls = 0 ∧ Asked s.loop.world t) ∨
        (c = .aborted ∧ ∃ s₁ e,
          (Serving.system respond P values entry).Takes s₀ es s₁ e ∧ e.FailsFor t s₁)) := by
  obtain ⟨-, hfaithful⟩ := Faithful.of_reachesUnder
    (fun t => ∃ s₁ e, (Serving.system respond P values entry).Takes s₀ es s₁ e ∧ e.FailsFor t s₁)
    (.of_exec hinit hexec) fun s₁ e t htakes hfails => ⟨s₁, e, htakes, hfails⟩
  obtain ⟨c, hverdict, hsent, hends⟩ := (hfaithful.tasks t k htask).ended hfinished
  refine ⟨c, hverdict, hsent, ?_⟩
  cases hends with
  | meant h => exact .inl h
  | unstarted message hzero hasked => exact .inr (.inl ⟨message, rfl, hzero, hasked⟩)
  | aborted hfault => exact .inr (.inr ⟨rfl, hfault⟩)

end

/-- A handler that awaits future 3 and returns what it gets. -/
def awaitingHandler : HandlerCode ℕ
  | 0 => .awaits 3 fun
    | .ok value => value + 1
    | .error _ => 0
  | p + 1 => .returns p

/-- The handler parks, future 3 gets its result, and the handler returns. -/
def awaitingRun : List Serving.Event :=
  [.act (.schedule 0), .run .none, .build .none 7 8, .execute .none, .act (.complete 3 .result),
    .run .none, .execute .none]

/-- Every handler starts at its point 0. -/
def startingAtZero (_ : TaskId) : Except Asyncio.Exception ℕ := .ok 0

/-- Nothing has happened yet. -/
def idleServing : Serving ℕ where
  loop := Loop.fresh (driver fun _ => .noContent) 0 awaitedFutures
  frames _ := none

/-- The loop is one that has just been started. -/
theorem idleServing_init : (Serving.system (fun _ => .noContent) awaitingHandler (fun _ => 9)
    startingAtZero).init idleServing :=
  ⟨Loop.Fresh.fresh _ fun _ => rfl, fun _ => rfl⟩

/-- The run ends with the first task finished. -/
theorem awaitingRun_exec :
    ∃ s, (Serving.system (fun _ => .noContent) awaitingHandler (fun _ => 9) startingAtZero).exec
        idleServing awaitingRun = some s ∧
      ∃ k, s.loop.tasks 0 = some k ∧ k.state.finished = true ∧
        foreign s.loop.world 3 = false ∧ s.loop.world.log = [.sent 0, .sent 0] := by
  have hexec : ((Serving.system (fun _ => .noContent) awaitingHandler (fun _ => 9)
      startingAtZero).exec idleServing awaitingRun).map (fun s =>
        decide ((s.loop.tasks 0).any (·.state.finished) = true ∧
          foreign s.loop.world 3 = false ∧ s.loop.world.log = [.sent 0, .sent 0])) =
      some true := by decide
  obtain ⟨s, hs, hend⟩ := Option.map_eq_some_iff.mp hexec
  obtain ⟨htask, hlocal, hlog⟩ := of_decide_eq_true hend
  obtain ⟨k, hk, hfinished⟩ := (Option.any_eq_true _ _).mp htask
  exact ⟨s, hs, k, hk, hfinished, hlocal, hlog⟩

/-- The first task of the run has ended as its handler means. -/
theorem finished_task_ends_as_meant_awaitingRun : ∃ s : Serving ℕ, ∃ k, s.loop.tasks 0 = some k ∧
    ∃ c, k.state.verdict = verdictOf c ∧
      s.loop.world.shared.responses.filter (·.1 = 0) = [(0, c.response fun _ => .noContent)] ∧
      (Denotes awaitingHandler (environment (fun _ => 9) s.loop.world 0) (startingAtZero 0) c ∨
        (∃ message, c = .cancelled message ∧ k.factoryCalls = 0 ∧ Asked s.loop.world 0) ∨
        (c = .aborted ∧ ∃ s₁ e, (Serving.system (fun _ => .noContent) awaitingHandler (fun _ => 9)
          startingAtZero).Takes idleServing awaitingRun s₁ e ∧ e.FailsFor 0 s₁)) := by
  obtain ⟨s, hs, k, hk, hfinished, -⟩ := awaitingRun_exec
  exact ⟨s, k, hk, finished_task_ends_as_meant idleServing_init hs hk hfinished⟩

section

variable {respond : Value → HandlerResponse} {P : HandlerCode Point} {values : FutureId → Value}
  {entry : TaskId → Except Asyncio.Exception Point} {s : Serving Point} {t : TaskId}
  {k : HandlerTask}

/-- Handlers that reach futures through `await` only, and only those of their own loop. -/
structure Proper (P : HandlerCode Point) (w : World LoopHandles) : Prop where
  yields : ∀ p f next, P p ≠ .yields (.future f) next
  awaits : ∀ p f next, P p = .awaits f next → foreign w f = false

/-- What such a handler is answered is decided by the futures alone, as long as nobody cancels. -/
theorem Proper.decided {w : World LoopHandles} (h : Proper P w) (hcalm : ¬Asked w t) :
    Decided P (environment values w t) := by
  have hnever {e : Asyncio.Exception} : ¬Interrupts w t e := fun h => hcalm h.2
  constructor
  · intro p f next r r' hmove hr hr'
    have honly {r : Except Asyncio.Exception Value} (hr : Answers values w t f r) :
        settled values w f = some r := by
      rcases hr with hsettled | ⟨hforeign, -⟩ | ⟨e, -, hinterrupts⟩
      · exact hsettled
      · simp [h.awaits p f next hmove] at hforeign
      · exact absurd hinterrupts hnever
    exact Option.some.inj ((honly hr).symm.trans (honly hr'))
  · intro p y next r r' hmove hr hr'
    rcases hr with hr | ⟨e, -, hinterrupts⟩
    · rcases hr' with hr' | ⟨e, -, hinterrupts⟩
      · cases y with
        | none => exact hr.trans hr'.symm
        | object typeName => exact hr.trans hr'.symm
        | future f => exact absurd hmove (h.yields p f next)
      · exact absurd hinterrupts hnever
    · exact absurd hinterrupts hnever

/-- A handler in a decided environment has one meaning. -/
theorem denotes_unique {E : Environment FutureId Value Asyncio.Exception Yielded}
    (h : Decided P E) {start : Except Asyncio.Exception Point} {c c' : CompletionKind}
    (hc : Denotes P E start c) (hc' : Denotes P E start c') : c = c' := by
  cases hc with
  | failedCall e =>
    cases hc'
    rfl
  | returned hev =>
    cases hc' with
    | returned hev' => simpa using h.outcome_unique hev hev'
    | raised hev' => simpa using h.outcome_unique hev hev'
  | raised hev =>
    cases hc' with
    | returned hev' => simpa using h.outcome_unique hev hev'
    | raised hev' =>
      obtain rfl : _ = _ := by simpa using h.outcome_unique hev hev'
      rfl

/-- A task that is parked on a pending future waits for it at the point where its handler is. -/
theorem Follows.waits_in_vain {faulty : Prop} {frame : Option (CoroutineFrame Point)} {f : FutureId}
    {w : World LoopHandles} (h : Follows respond P values entry faulty t ⟨w, k⟩ frame)
    (hproper : Proper P w) (hcalm : ¬Asked w t) (hidle : k.phase = .idle)
    (hopen : k.state.finished = false) (hwaiting : k.state.waitingOn = some f)
    (hpending : (w.futures f).status = .pending) (c : CompletionKind) :
    ¬Denotes P (environment values w t) (entry t) c := by
  have hdecided : Decided P (environment values w t) := hproper.decided hcalm
  cases h.placed with
  | settled _ hdone => simp [hopen] at hdone
  | unbuilt _ _ hnone => simp [hwaiting] at hnone
  | running p hstepping => simp [hidle] at hstepping
  | closing entered hclosing => simp [hidle] at hclosing
  | suspended p _ _ _ hcomes hdue =>
    obtain ⟨p₀, hentry, hleads⟩ := hcomes
    obtain ⟨next, hmove⟩ : ∃ next, P p = .awaits f next := by
      cases hmove : P p with
      | returns value => simp [Due, hmove] at hdue
      | raises e => simp [Due, hmove] at hdue
      | awaits f' next =>
        simp only [Due, hmove] at hdue
        cases hdue with
        | parked _ hparked _ =>
          obtain rfl : f = f' := Option.some.inj (hwaiting.symm.trans hparked)
          exact ⟨next, rfl⟩
        | plain _ hflag => exact absurd trivial hflag
        | elsewhere _ _ hnone => simp [hwaiting] at hnone
      | yields y next =>
        simp only [Due, hmove] at hdue
        cases hdue with
        | again hnone => simp [hwaiting] at hnone
        | unknown _ hnone => simp [hwaiting] at hnone
        | parked f' => exact absurd hmove (hproper.yields p f' next)
        | plain _ _ hnone => simp [hwaiting] at hnone
        | elsewhere _ _ hnone => simp [hwaiting] at hnone
    have hhalts : Halts P (environment values w t) p := by
      refine halts_of_awaits hmove fun r hr => ?_
      rcases hr with hsettled | ⟨hforeign, -⟩ | ⟨e, -, -, hasked⟩
      · exact status_of_settled hsettled hpending
      · simp [hproper.awaits p f next hmove] at hforeign
      · exact hcalm hasked
    have hwaits : (P p).outcome = none := by simp [hmove, Move.outcome]
    rw [hentry]
    intro hmeant
    cases hmeant with
    | returned hev => exact hdecided.not_evaluates hleads hhalts hwaits _ hev
    | raised hev => exact hdecided.not_evaluates hleads hhalts hwaits _ hev

/-- Where nothing fails and nobody cancels, a task ends as its handler says. -/
theorem Follows.meant {frame : Option (CoroutineFrame Point)} {w : World LoopHandles}
    (h : Follows respond P values entry False t ⟨w, k⟩ frame) (hcalm : ¬Asked w t)
    (hfinished : k.state.finished = true) :
    ∃ c, Denotes P (environment values w t) (entry t) c ∧ k.state.verdict = verdictOf c ∧
      w.shared.responses.filter (·.1 = t) = [(t, c.response respond)] := by
  obtain ⟨c, hverdict, hsent, hends⟩ := h.ended hfinished
  cases hends with
  | meant h => exact ⟨c, h, hverdict, hsent⟩
  | unstarted message _ hasked => exact absurd hasked hcalm
  | aborted hfalse => exact hfalse.elim

/-- Once the loop has nothing left to run, a task whose handler comes to an end is over. -/
theorem Follows.finished_of_denotes {faulty : Prop} {frame : Option (CoroutineFrame Point)}
    {c : CompletionKind} (h : Follows respond P values entry faulty t ⟨s.loop.world, k⟩ frame)
    (hwakeful : Wakeful s.loop) (htask : s.loop.tasks t = some k) (hproper : Proper P s.loop.world)
    (hcalm : ¬Asked s.loop.world t) (hidle : s.loop.running = none)
    (hempty : s.loop.world.ready = [])
    (hc : Denotes P (environment values s.loop.world t) (entry t) c) :
    k.state.finished = true := by
  by_contra hnot
  have hopen : k.state.finished = false := by simpa using hnot
  have hphase := hwakeful.idle hidle htask
  rcases hwakeful.waits hidle htask hopen with ⟨f, hwaiting, hpending, -⟩ | ⟨handle, hmem, -⟩
  · exact h.waits_in_vain hproper hcalm hphase hopen hwaiting hpending c hc
  · simp [hempty] at hmem

/-- **Nothing but the handler decides.** Where no call of the driver fails, nobody cancels the
request and its handler reaches futures as it should, the handler has at most one meaning. A request
that is over has ended with it, and once the loop has nothing left to run, the requests that are
over are exactly those whose handlers come to an end. -/
theorem requests_end_as_meant
    (hreach : (Serving.system respond P values entry).ReachesUnder (fun _ e => e.Faultless) s)
    (hproper : Proper P s.loop.world) (hcalm : ¬Asked s.loop.world t)
    (htask : s.loop.tasks t = some k) :
    (∀ c c', Denotes P (environment values s.loop.world t) (entry t) c →
      Denotes P (environment values s.loop.world t) (entry t) c' → c = c') ∧
    (k.state.finished = true →
      ∃ c, Denotes P (environment values s.loop.world t) (entry t) c ∧
        k.state.verdict = verdictOf c ∧
        s.loop.world.shared.responses.filter (·.1 = t) = [(t, c.response respond)]) ∧
    (s.loop.running = none → s.loop.world.ready = [] →
      (k.state.finished = true ↔
        ∃ c, Denotes P (environment values s.loop.world t) (entry t) c)) := by
  obtain ⟨hloop, hfaithful⟩ := Faithful.of_reachesUnder (fun _ => False) hreach
    fun _ _ _ hfaultless hfails => hfails.1 hfaultless
  have hfollows := hfaithful.tasks t k htask
  refine ⟨fun c c' => denotes_unique (hproper.decided hcalm), hfollows.meant hcalm,
    fun hidle hempty => ⟨fun hfinished => (hfollows.meant hcalm hfinished).imp fun _ h => h.1, ?_⟩⟩
  rintro ⟨c, hc⟩
  exact hfollows.finished_of_denotes (Wakeful.of_reaches hloop) htask hproper hcalm hidle hempty hc

end

/-- The first request of the run has ended as its handler means. -/
theorem requests_end_as_meant_awaitingRun : ∃ s : Serving ℕ, ∃ k, s.loop.tasks 0 = some k ∧
    ∃ c, Denotes awaitingHandler (environment (fun _ => 9) s.loop.world 0) (startingAtZero 0) c ∧
      k.state.verdict = verdictOf c ∧
      s.loop.world.shared.responses.filter (·.1 = 0) = [(0, c.response fun _ => .noContent)] := by
  obtain ⟨s, hs, k, hk, hfinished, hlocal, hlog⟩ := awaitingRun_exec
  have hreach : (Serving.system (fun _ => .noContent) awaitingHandler (fun _ => 9)
      startingAtZero).ReachesUnder (fun _ e => e.Faultless) s :=
    Transition.System.ReachesUnder.exec_of_forall (.init idleServing_init)
      (by simp [awaitingRun, Serving.Event.Faultless]) hs
  have hproper : Proper awaitingHandler s.loop.world := by
    refine ⟨fun p f next hmove => ?_, fun p f next hmove => ?_⟩ <;> cases p <;>
      simp [awaitingHandler] at hmove
    rw [← hmove.1]
    exact hlocal
  have hcalm : ¬Asked s.loop.world 0 := by
    rintro ⟨reply, hmem⟩
    simp [hlog] at hmem
  exact ⟨s, k, hk, (requests_end_as_meant hreach hproper hcalm hk).2.1 hfinished⟩

end Rayo
