import Rayo.Server.LoopThread

/-!
# What the exception of a handler does to the server

The requests of a server, as far as handlers run for them: tasks on the event loops of its pool,
calls of sync handlers on threads of their own, and the coroutines that `EventLoop::stop` closes.
An exception that comes out of a handler is fetched, and printed before the request gets its
answer, unless it is the `CancelledError` that ends a step. Printing an instance of `SystemExit`
terminates the process, and fetching a `PanicException` unwinds the turn of a task before its
request is answered. Every other exception is contained.
-/

namespace Rayo.Containment

open Asyncio HandlerTask

/-- How far the call of a sync handler is. -/
inductive SyncCall
  | idle
  | running
  | answered (response : HandlerResponse)
  deriving DecidableEq

/-- A request for an async handler, by its loop and its task, or for a sync handler. -/
inductive Request
  | async (i : ℕ) (t : TaskId)
  | sync (r : ℕ)
  deriving DecidableEq

/-- Where the code of a handler runs: the call that builds its coroutine, an advance of the
coroutine by `send` or `throw`, its `close()`, or the call of a sync handler. -/
inductive Place
  | factory
  | step
  | close
  | sync
  deriving DecidableEq

/-- The process of a server. -/
structure Server where
  /-- The process has not been terminated. -/
  alive : Bool
  loops : ℕ → LoopThread
  sync : ℕ → SyncCall

/-- What happens in the process. -/
inductive Event
  | onLoop (i : ℕ) (e : LoopEvent)
  | callSync (r : ℕ)
  | syncReturns (r : ℕ) (outcome : Except Exception Value)

/-- The exception of a handler that is fetched. -/
def Event.fetched : Event → Option Exception
  | .onLoop _ e => e.fetched
  | .syncReturns _ (.error e) => some e
  | .callSync _ | .syncReturns _ (.ok _) => none

/-- The exception of a handler that is passed to `PyErr::print`. -/
def Event.printed : Event → Option Exception
  | .onLoop _ e => e.printed
  | .syncReturns _ (.error e) => some e
  | .callSync _ | .syncReturns _ (.ok _) => none

namespace Server

section

variable {F : Type} (ops : FloatOps F) (object : Value → PyValue F) (fate : Exception → Fate)

/-- When an event can happen. -/
def enabled (s : Server) (e : Event) : Bool :=
  s.alive && match e with
    | .onLoop i e => (s.loops i).enabled (responseOf ops object) e
    | .callSync r => s.sync r = .idle
    | .syncReturns r _ => s.sync r = .running

/-- What an event does in a process that survives it. -/
def carryOn (s : Server) : Event → Server
  | .onLoop i e =>
    { s with
      loops := Function.update s.loops i ((s.loops i).effect (responseOf ops object) e) }
  | .callSync r => { s with sync := Function.update s.sync r .running }
  | .syncReturns r outcome =>
    { s with
      sync := Function.update s.sync r (.answered (executeSyncHandler ops object outcome)) }

/-- What an event does whose exception resumes a panic. The closure of a sync call takes the sender
of its response with it, for which the connection answers with the opaque 500. -/
def unwind (s : Server) : Event → Server
  | .onLoop i e =>
    { s with
      loops := Function.update s.loops i ((s.loops i).unwind (responseOf ops object) e) }
  | .callSync _ => s
  | .syncReturns r _ => { s with sync := Function.update s.sync r (.answered .internalError) }

/-- What an event does. An exception is fetched and printed first. Fetching one that `panics`
unwinds the thread, and printing one that `exits` ends the process there. -/
def effect (s : Server) (e : Event) : Server :=
  if e.fetched.any (fate · = .panics) then s.unwind ops object e
  else if e.printed.any (fate · = .exits) then { s with alive := false }
  else s.carryOn ops object e

/-- A server that has just been started. -/
structure Fresh (s : Server) : Prop where
  alive : s.alive = true
  loops : ∀ i, LoopThread.Fresh (responseOf ops object) (s.loops i)
  sync : ∀ r, s.sync r = .idle

/-- All runs of a server. -/
def system : Transition.System Server Event where
  init := Fresh ops object
  enabled := enabled ops object
  effect := effect ops object fate

end

/-- What a request was answered. -/
def answers (s : Server) : Request → List HandlerResponse
  | .async i t => ((s.loops i).loop.world.shared.responses.filter (·.1 = t)).map (·.2)
  | .sync r => match s.sync r with
    | .answered response => [response]
    | .idle | .running => []

/-- The code of a handler raises an exception for a request. -/
inductive Raises (s : Server) : Event → Request → Place → Exception → Prop
  | factory {i : ℕ} {faults : Faults} {t : TaskId} {k : HandlerTask} {turn : Turn}
    {e : Exception} : (s.loops i).loop.running = some t → (s.loops i).loop.tasks t = some k →
      k.phase = .building turn →
      Raises s (.onLoop i (.loop (.resume faults (.factoryRaised e)))) (.async i t) .factory e
  | step {i : ℕ} {faults : Faults} {t : TaskId} {k : HandlerTask} {e : Exception} :
    (s.loops i).loop.running = some t → (s.loops i).loop.tasks t = some k →
      k.phase = .stepping →
      Raises s (.onLoop i (.loop (.resume faults (.raised e)))) (.async i t) .step e
  | close {i : ℕ} {faults : Faults} {t : TaskId} {k : HandlerTask} {entered : Bool}
    {e : Exception} : (s.loops i).loop.running = some t → (s.loops i).loop.tasks t = some k →
      k.phase = .closing entered →
      Raises s (.onLoop i (.closeRaised faults e)) (.async i t) .close e
  | dispose {i : ℕ} {faults : Faults} {t : TaskId} {e : Exception} :
    Raises s (.onLoop i (.dispose faults t (some e))) (.async i t) .close e
  | sync {r : ℕ} {e : Exception} : Raises s (.syncReturns r (.error e)) (.sync r) .sync e

/-- Nothing has happened to the requests other than this one. -/
structure Unaffected (s s' : Server) (q : Request) : Prop where
  loops : ∀ i, (∀ t, q ≠ .async i t) → s'.loops i = s.loops i
  /-- The loop threads go on. -/
  ended : ∀ i, (s'.loops i).ended = (s.loops i).ended
  tasks : ∀ i t, q ≠ .async i t → (s'.loops i).loop.tasks t = (s.loops i).loop.tasks t
  aside : ∀ i t, q ≠ .async i t → Aside t (s.loops i).loop.world (s'.loops i).loop.world
  /-- What wakes the tasks is still there. -/
  sources : ∀ i, World.Undisturbed (s.loops i).loop.world (s'.loops i).loop.world
  sync : ∀ r, q ≠ .sync r → s'.sync r = s.sync r

/-- The process goes on, the request is answered with the opaque 500 and no loop is in its code
any more, and no other request is affected. -/
structure Contained (s s' : Server) (q : Request) : Prop where
  alive : s'.alive = true
  answered : s'.answers q = [.internalError]
  free : ∀ i t, q = .async i t → (s'.loops i).loop.running = none
  unaffected : Unaffected s s' q

end Server

namespace Server

variable {F : Type} {ops : FloatOps F} {object : Value → PyValue F} {fate : Exception → Fate}
  {s : Server} {event : Event} {q : Request} {place : Place} {e : Exception}

/-- Every loop is sound in every state that is reached. -/
theorem sound_of_reaches (hreach : (system ops object fate).Reaches s) (i : ℕ) :
    (s.loops i).Sound := by
  refine Transition.System.Reaches.invariant (I := fun s => ∀ i, (s.loops i).Sound) hreach
    (fun s hfresh i => ?_) (fun s event hsound henabled i => ?_) i
  · exact .of_fresh (hfresh.loops i)
  · have hkept : ((s.carryOn ops object event).loops i).Sound := by
      cases event with
      | onLoop j e =>
        by_cases hi : i = j
        · subst hi
          simp only [system, enabled, Bool.and_eq_true] at henabled
          simp only [carryOn, Function.update_self]
          exact (hsound i).effect henabled.2
        · simp only [carryOn, Function.update_of_ne hi]
          exact hsound i
      | callSync r => exact hsound i
      | syncReturns r outcome => exact hsound i
    have hunwound : ((s.unwind ops object event).loops i).Sound := by
      cases event with
      | onLoop j e =>
        by_cases hi : i = j
        · subst hi
          simp only [unwind, Function.update_self]
          exact (hsound i).unwind e
        · simp only [unwind, Function.update_of_ne hi]
          exact hsound i
      | callSync r => exact hsound i
      | syncReturns r outcome => exact hsound i
    simp only [system, effect]
    split
    · exact hunwound
    split
    · exact hsound i
    · exact hkept

/-- The exception that a handler raises is fetched. -/
theorem Raises.fetched_eq (h : Raises s event q place e) : event.fetched = some e := by
  cases h <;> rfl

/-- What is printed of an exception that a handler raises: all but the `CancelledError` that ends
a step. -/
theorem Raises.printed_eq (h : Raises s event q place e) :
    event.printed = if place = .step ∧ e.isCancelled = true then none else some e := by
  cases h with
  | step => simp [Event.printed, LoopEvent.printed]
  | factory | close | dispose | sync => rfl

/-- A loop resolves a request, and the process with it. -/
theorem contained_of_resolved {i : ℕ} {t : TaskId} {loop : LoopThread} (halive : s.alive = true)
    (h : (s.loops i).Resolved loop t) :
    Contained s { s with loops := Function.update s.loops i loop } (.async i t) := by
  have hself : Function.update s.loops i loop i = loop := Function.update_self _ _ _
  have hother {j : ℕ} (hj : j ≠ i) : Function.update s.loops i loop j = s.loops j :=
    Function.update_of_ne hj _ _
  refine ⟨halive, ?_, ?_, ⟨fun j hj => hother ?_, fun j => ?_, fun j t' ht => ?_,
    fun j t' ht => ?_, fun j => ?_, fun _ _ => rfl⟩⟩
  · simp [answers, h.answered]
  · rintro j t' ⟨⟩
    simp only [hself]
    exact h.running
  · rintro rfl
    exact hj t rfl
  all_goals by_cases hj : j = i
  · subst hj
    simp only [hself]
    exact h.ended
  · simp only [hother hj]
  · subst hj
    simp only [hself]
    exact h.tasks t' fun heq => ht (heq ▸ rfl)
  · simp only [hother hj]
  · subst hj
    simp only [hself]
    exact h.aside t' fun heq => ht (heq ▸ rfl)
  · simp only [hother hj]
    exact .refl t' _
  · subst hj
    simp only [hself]
    exact h.sources
  · simp only [hother hj]
    exact .refl _

/-- A turn that ends with the opaque 500 is contained. -/
theorem contained_of_ending {i : ℕ} {t : TaskId} {k : HandlerTask} {faults : Faults}
    {input : Input} {completion : CompletionKind} {entered : Bool}
    {respond : Value → HandlerResponse} (hsound : (s.loops i).Sound) (halive : s.alive = true)
    (hrunning : (s.loops i).loop.running = some t) (hk : (s.loops i).loop.tasks t = some k)
    (hending : endingOfInput respond k.phase input =
      some ⟨.internalError, completion, entered⟩) :
    Contained s { s with
      loops := Function.update s.loops i { s.loops i with
        loop := (s.loops i).loop.effect (driver respond) (.resume faults input) } }
      (.async i t) :=
  contained_of_resolved halive (hsound.resolved_of_ending hrunning hk hending)

/-- A sync call that is answered with the opaque 500 is contained. -/
theorem contained_of_answered (halive : s.alive = true) (r : ℕ) :
    Contained s { s with sync := Function.update s.sync r (.answered .internalError) }
      (.sync r) := by
  refine ⟨halive, ?_, ?_, ⟨fun _ _ => rfl, fun _ => rfl, fun _ _ _ => rfl,
    fun _ t _ => .refl t _, fun _ => .refl _, fun r' hr => ?_⟩⟩
  · simp [answers]
  · rintro j t ⟨⟩
  · have hne : r' ≠ r := by
      rintro rfl
      exact hr rfl
    exact Function.update_of_ne hne _ _

/-- In a process that survives it, the exception of a handler is contained. -/
theorem contained_carryOn (hreach : (system ops object fate).Reaches s)
    (henabled : enabled ops object s event = true) (hraises : Raises s event q place e) :
    Contained s (s.carryOn ops object event) q := by
  have hsound := sound_of_reaches hreach
  simp only [enabled, Bool.and_eq_true] at henabled
  obtain ⟨halive, hcan⟩ := henabled
  cases hraises with
  | factory hrunning hk hphase =>
    exact contained_of_ending (hsound _) halive hrunning hk (by rw [hphase]; rfl)
  | step hrunning hk hphase =>
    exact contained_of_ending (hsound _) halive hrunning hk (by rw [hphase]; rfl)
  | close hrunning hk hphase =>
    exact contained_of_ending (hsound _) halive hrunning hk (by rw [hphase]; rfl)
  | @dispose i faults t e =>
    simp only [LoopThread.enabled, Bool.and_eq_true, decide_eq_true_eq] at hcan
    exact contained_of_resolved halive ((hsound i).resolved_of_disposal hcan.1.1 hcan.1.2)
  | @sync r e => exact contained_of_answered halive r

/-- A panic that unwinds out of the turn of a task, or out of its disposal, leaves its request
without an answer. -/
theorem unanswered_unwind (hreach : (system ops object fate).Reaches s)
    (henabled : enabled ops object s event = true) (hraises : Raises s event q place e)
    (hplace : place ≠ .sync) : (s.unwind ops object event).answers q = [] := by
  have hsound := sound_of_reaches hreach
  simp only [enabled, Bool.and_eq_true] at henabled
  have hnone {i : ℕ} {t : TaskId} {e : LoopEvent}
      (hresponses : (s.loops i).loop.world.shared.responses.filter (·.1 = t) = []) :
      (s.unwind ops object (.onLoop i e)).answers (.async i t) = [] := by
    simp [answers, unwind, LoopThread.unwind_responses, hresponses]
  cases hraises with
  | factory hrunning hk | step hrunning hk | close hrunning hk =>
    exact hnone ((hsound _).unanswered_of_running hrunning hk)
  | @dispose i faults t e =>
    have hcan := henabled.2
    simp only [LoopThread.enabled, Bool.and_eq_true, decide_eq_true_eq] at hcan
    exact hnone ((hsound i).unanswered_of_live hcan.1.2)
  | sync => exact absurd rfl hplace

/-- A panic in the closure of a sync call is contained: the pool goes on, and the connection
answers. -/
theorem contained_unwind_sync (halive : s.alive = true) (hraises : Raises s event q .sync e) :
    Contained s (s.unwind ops object event) q := by
  cases hraises with
  | @sync r e => exact contained_of_answered halive r

/-- **What the exception of a handler does.** Wherever the code of a handler raises, in whatever
state of the server, the exception is contained exactly if it is printed and the process survives
that, or it is the `CancelledError` that ends a step, or it resumes a panic in the closure of a sync
call. -/
theorem contained_iff_survives_print (hreach : (system ops object fate).Reaches s)
    (henabled : enabled ops object s event = true) (hraises : Raises s event q place e) :
    Contained s (effect ops object fate s event) q ↔
      fate e = .printed ∨ (fate e = .exits ∧ place = .step ∧ e.isCancelled = true) ∨
        (fate e = .panics ∧ place = .sync) := by
  have hcarry := contained_carryOn hreach henabled hraises
  have hfetched := hraises.fetched_eq
  have hprinted := hraises.printed_eq
  cases hfate : fate e with
  | printed =>
    have hsurvives : event.printed.any (fate · = .exits) = false := by
      rw [hprinted]
      split <;> simp [hfate]
    have heffect : effect ops object fate s event = s.carryOn ops object event := by
      simp [effect, hfetched, hfate, hsurvives]
    rw [heffect]
    exact ⟨fun _ => .inl rfl, fun _ => hcarry⟩
  | exits =>
    by_cases hquiet : place = .step ∧ e.isCancelled = true
    · rw [if_pos hquiet] at hprinted
      have heffect : effect ops object fate s event = s.carryOn ops object event := by
        simp [effect, hfetched, hfate, hprinted]
      rw [heffect]
      exact ⟨fun _ => .inr (.inl ⟨rfl, hquiet⟩), fun _ => hcarry⟩
    · rw [if_neg hquiet] at hprinted
      have hdead : (effect ops object fate s event).alive = false := by
        simp [effect, hfetched, hprinted, hfate]
      constructor
      · intro hcontained
        cases hdead.symm.trans hcontained.alive
      · rintro (⟨⟨⟩⟩ | ⟨-, h⟩ | ⟨⟨⟩, -⟩)
        exact absurd h hquiet
  | panics =>
    have heffect : effect ops object fate s event = s.unwind ops object event := by
      simp [effect, hfetched, hfate]
    rw [heffect]
    by_cases hplace : place = .sync
    · subst hplace
      have halive : s.alive = true := by
        simp only [enabled, Bool.and_eq_true] at henabled
        exact henabled.1
      exact ⟨fun _ => .inr (.inr ⟨rfl, rfl⟩), fun _ => contained_unwind_sync halive hraises⟩
    · constructor
      · intro hcontained
        have hanswered := hcontained.answered
        rw [unanswered_unwind hreach henabled hraises hplace] at hanswered
        cases hanswered
      · rintro (⟨⟨⟩⟩ | ⟨⟨⟩, -⟩ | ⟨-, h⟩)
        exact absurd h hplace

/-- A process in which no printed exception is an instance of `SystemExit` keeps running. -/
theorem alive_of_reachesUnder (hreach : (system ops object fate).ReachesUnder
    (fun _ event => event.printed.any (fate · = .exits) = false) s) : s.alive = true := by
  refine hreach.invariant (fun s hfresh => hfresh.alive) fun s event halive hsurvives _ => ?_
  have hkept : (s.carryOn ops object event).alive = true := by
    cases event <;> exact halive
  have hunwound : (s.unwind ops object event).alive = true := by
    cases event <;> exact halive
  simp only [system, effect, hsurvives]
  split
  · exact hunwound
  · exact hkept

/-- Handlers that all return `None`, unless they raise. -/
def quietServer : Server where
  alive := true
  loops i :=
    ⟨Loop.fresh (driver (responseOf (F := Empty) ⟨Empty.elim, Empty.elim⟩ fun _ => .none)) i
      Lifecycle.unawaited, false⟩
  sync _ := .idle

/-- The quiet server has just been started. -/
theorem Fresh.quietServer :
    Fresh (F := Empty) ⟨Empty.elim, Empty.elim⟩ (fun _ => .none) quietServer :=
  ⟨rfl, fun _ => ⟨Loop.Fresh.fresh _ fun _ => rfl, rfl⟩, fun _ => rfl⟩

/-- Two requests on loop 0, of which the first is in its first step, and a sync handler. -/
def twoRequests : List Event :=
  [.callSync 3, .onLoop 0 (.loop (.act (.schedule 0))), .onLoop 0 (.loop (.act (.schedule 1))),
    .onLoop 0 (.loop (.run .none)),
    .onLoop 0 (.loop (.resume .none (.factoryReturned 7 10)))]

/-- Exception 9 is an instance of `SystemExit`, and exception 8 is a `PanicException`. -/
def fateOf : Exception → Fate
  | .other 9 => .exits
  | .other 8 => .panics
  | _ => .printed

/-- The first request is in the middle of a step, and nothing has been answered. -/
theorem exists_stepping : ∃ s, (system (F := Empty) ⟨Empty.elim, Empty.elim⟩ (fun _ => .none)
      fateOf).Reaches s ∧ s.alive = true ∧ (s.loops 0).ended = false ∧
    (∃ k, (s.loops 0).loop.running = some 0 ∧ (s.loops 0).loop.tasks 0 = some k ∧
      k.phase = .stepping) ∧
    (s.loops 0).loop.tasks 1 = some new ∧ s.sync 3 = .running ∧
    s.answers (.async 0 0) = [] ∧ s.answers (.async 0 1) = [] ∧ s.answers (.sync 3) = [] := by
  have hexec : (((system (F := Empty) ⟨Empty.elim, Empty.elim⟩ (fun _ => .none)
      fateOf).restrict fun _ _ => true).exec quietServer twoRequests).map (fun s =>
        decide (s.alive = true ∧ (s.loops 0).ended = false ∧
          (s.loops 0).loop.running = some 0 ∧
          ((s.loops 0).loop.tasks 0).any (·.phase = .stepping) = true ∧
          (s.loops 0).loop.tasks 1 = some new ∧ s.sync 3 = .running ∧
          s.answers (.async 0 0) = [] ∧ s.answers (.async 0 1) = [] ∧
          s.answers (.sync 3) = [])) = some true := by
    decide
  obtain ⟨s, hreach, hend⟩ := Transition.System.exists_reaches_of_exec Fresh.quietServer hexec
  obtain ⟨halive, hended, hrunning, hstepping, hrest⟩ := of_decide_eq_true hend
  obtain ⟨k, hk, hphase⟩ := (Option.any_eq_true _ _).mp hstepping
  exact ⟨s, hreach, halive, hended, ⟨k, hrunning, hk, of_decide_eq_true hphase⟩, hrest⟩

/-- The step of the first request raises. -/
def firstRaises (e : Exception) : Event := .onLoop 0 (.loop (.resume .none (.raised e)))

/-- The handler of the running task may raise. -/
theorem enabled_firstRaises {k : HandlerTask} (halive : s.alive = true)
    (hended : (s.loops 0).ended = false) (hrunning : (s.loops 0).loop.running = some 0)
    (hk : (s.loops 0).loop.tasks 0 = some k) (hphase : k.phase = .stepping) :
    enabled ops object s (firstRaises e) = true := by
  have haccepts : k.accepts (.raised e) = true := by
    simp [HandlerTask.accepts, hphase]
  simp [enabled, firstRaises, halive, LoopThread.enabled, hended, Loop.enabled, hrunning, hk,
    driver, haccepts]

/-- An exception that is no instance of `SystemExit` costs the second request nothing. -/
theorem contained_iff_survives_print_firstRaises : ∃ s,
    (system (F := Empty) ⟨Empty.elim, Empty.elim⟩ (fun _ => .none) fateOf).Reaches s ∧
    Contained s (effect (F := Empty) ⟨Empty.elim, Empty.elim⟩ (fun _ => .none) fateOf s
      (firstRaises (.other 1))) (.async 0 0) := by
  obtain ⟨s, hreach, halive, hended, ⟨k, hrunning, hk, hphase⟩, -⟩ := exists_stepping
  have henabled : enabled (F := Empty) ⟨Empty.elim, Empty.elim⟩ (fun _ => .none) s
      (firstRaises (.other 1)) = true := enabled_firstRaises halive hended hrunning hk hphase
  exact ⟨s, hreach, (contained_iff_survives_print hreach henabled
    (.step hrunning hk hphase)).mpr (.inl (by decide))⟩

/-- A handler that raises `SystemExit` takes the server down: its request is never answered, and
neither are the others. -/
theorem systemExit_ends_process : ∃ s s',
    (system (F := Empty) ⟨Empty.elim, Empty.elim⟩ (fun _ => .none) fateOf).Reaches s ∧
    enabled (F := Empty) ⟨Empty.elim, Empty.elim⟩ (fun _ => .none) s
      (firstRaises (.other 9)) = true ∧
    Raises s (firstRaises (.other 9)) (.async 0 0) .step (.other 9) ∧
    s' = effect (F := Empty) ⟨Empty.elim, Empty.elim⟩ (fun _ => .none) fateOf s
      (firstRaises (.other 9)) ∧
    ¬Contained s s' (.async 0 0) ∧ s'.alive = false ∧
    s'.answers (.async 0 0) = [] ∧ s'.answers (.async 0 1) = [] ∧ s'.answers (.sync 3) = [] ∧
    ∀ event, enabled (F := Empty) ⟨Empty.elim, Empty.elim⟩ (fun _ => .none) s' event = false := by
  obtain ⟨s, hreach, halive, hended, ⟨k, hrunning, hk, hphase⟩, -, -, hfirst, hsecond, hsync⟩ :=
    exists_stepping
  have heffect : effect (F := Empty) ⟨Empty.elim, Empty.elim⟩ (fun _ => .none) fateOf s
      (firstRaises (.other 9)) = { s with alive := false } := rfl
  refine ⟨s, { s with alive := false }, hreach,
    enabled_firstRaises halive hended hrunning hk hphase, .step hrunning hk hphase, heffect.symm,
    fun hcontained => ?_, rfl, hfirst, hsecond, hsync, fun event => rfl⟩
  cases hcontained.alive

end Server

end Rayo.Containment
