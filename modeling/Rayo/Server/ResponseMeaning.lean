import Rayo.Routing.ParserAgreement
import Rayo.Schema.RoundTrip
import Rayo.Server.Exchanges

/-!
# Every response is one that the application means

A response comes from the router, from the arguments of a request, from the call of a sync handler
or from a task, whose response is the one that the code of its handler evaluates to.
-/

namespace Rayo.Site

open Asyncio HandlerTask

variable {m : Matchit} {F Point : Type} {n : ℕ} {app : Application m F Point}
  {values : Fin n → FutureId → Value} {s : Site Point n} {r : TaskId}

/-- `handle` hands the request to a thread. -/
def ExecutesSync (app : Application m F Point) (r : TaskId) : Prop :=
  ∃ handler kwargs, dispatch app r = .executeSyncHandler handler kwargs

/-- A response that was not received from a task. -/
inductive Direct (app : Application m F Point) (faulty : Prop)
    (outcome : Option (Except Asyncio.Exception Value)) (r : TaskId) : Response → Prop
  | notFound : dispatch app r = .notFound →
    Direct app faulty outcome r (plainResponse 404 "Not Found")
  | invalid {errorResponse : HandlerResponse} : dispatch app r = .respond errorResponse →
    Direct app faulty outcome r (responseFromHandler errorResponse)
  | sync {o : Except Asyncio.Exception Value} : ExecutesSync app r → outcome = some o →
    Direct app faulty outcome r (responseFromHandler (executeSyncHandler app.ops app.object o))
  | failed : Schedules app r ∨ ExecutesSync app r → faulty →
    Direct app faulty outcome r internalServerError

/-- What every run keeps of the exchanges that do not wait for a task. -/
structure Sound (app : Application m F Point) (faulty : TaskId → Prop) (s : Site Point n) : Prop where
  blocking : ∀ r, s.exchanges r = .blocking → ExecutesSync app r
  ready : ∀ r response, s.exchanges r = .ready response →
    Direct app (faulty r) (s.outcomes r) r response
  answered : ∀ r response, s.exchanges r = .answered response →
    Direct app (faulty r) (s.outcomes r) r response ∨ ∃ i handlerResponse, HasTask s i r ∧
      Schedules app r ∧ (r, handlerResponse) ∈ (s.loops i).loop.world.shared.responses ∧
      response = responseFromHandler handlerResponse

/-- The handler of a request that is no longer on a thread comes to nothing else. -/
theorem outcomes_effect {e : Event n} (henabled : enabled app s e = true)
    (hexchange : s.exchanges r ≠ .blocking) :
    (effect app values s e).outcomes r = s.outcomes r := by
  cases e with
  | syncEnds r' outcome =>
    have hne : r ≠ r' := by
      rintro rfl
      cases hcase : s.exchanges r <;> simp [enabled, hcase] at henabled
      exact hexchange hcase
    simp [effect, Function.update_of_ne hne]
  | receive r' i fault =>
    simp only [effect, receive]
    split <;> try rfl
    unfold schedule
    split <;> rfl
  | disconnect r' =>
    simp only [effect, disconnect]
    split <;> try rfl
    split <;> rfl
  | respond r' =>
    simp only [effect]
    split <;> rfl
  | onLoop | syncPanics | stop | strand => rfl

/-- What a task has sent can still be received. -/
theorem mem_responses_effect {e : Event n} {i : Fin n} {sent : TaskId × HandlerResponse}
    (h : sent ∈ (s.loops i).loop.world.shared.responses) :
    sent ∈ ((effect app values s e).loops i).loop.world.shared.responses := by
  rw [effect_loops]
  cases loopEvent app s e with
  | none => exact h
  | some event =>
    obtain ⟨j, e'⟩ := event
    dsimp only
    rcases eq_or_ne i j with rfl | hne
    · rw [onLoop_loops_self]
      exact Serving.answered_effect.subset h
    · rw [onLoop_loops_of_ne hne]
      exact h

/-- **One step** of a server keeps its responses sound. -/
theorem Sound.effect {e : Event n} {faulty : TaskId → Prop} (h : Sound app faulty s)
    (htracked : Tracked app s) (henabled : enabled app s e = true)
    (hfaulty : ∀ r, e.FailsFor r s → faulty r) : Sound app faulty (effect app values s e) := by
  refine ⟨fun r hblocking => ?_, fun r response hresponse => ?_, fun r response hresponse => ?_⟩
  · rcases exchange_step henabled r with hsame | hpasses
    · exact h.blocking r (hsame.symm.trans hblocking)
    · rw [hblocking] at hpasses
      cases hpasses with
      | blocking _ hdispatch => exact ⟨_, _, hdispatch⟩
  · rcases exchange_step henabled r with hsame | hpasses
    · rw [hsame] at hresponse
      rw [outcomes_effect henabled (by simp [hresponse])]
      exact h.ready r response hresponse
    · rw [hresponse] at hpasses
      cases hpasses with
      | notFound _ hdispatch => exact .notFound hdispatch
      | invalid _ hdispatch => exact .invalid hdispatch
      | refused _ hschedules =>
        exact .failed (.inl hschedules) (hfaulty r (by simp [Event.FailsFor]))
      | syncEnded hblocking =>
        exact .sync (h.blocking r hblocking) (by simp [Site.effect])
      | syncPanicked hblocking =>
        exact .failed (.inr (h.blocking r hblocking)) (hfaulty r rfl)
      | stranded hdispatched =>
        exact .failed (.inl (htracked.dispatched r _ hdispatched).2) (hfaulty r rfl)
  · rcases exchange_step henabled r with hsame | hpasses
    · rw [hsame] at hresponse
      rw [outcomes_effect henabled (by simp [hresponse])]
      rcases h.answered r response hresponse with hdirect | ⟨i, sent, htask, hschedules, hmem, heq⟩
      · exact .inl hdirect
      · exact .inr ⟨i, sent, hasTask_effect.mpr (.inr htask), hschedules,
          mem_responses_effect hmem, heq⟩
    · rw [hresponse] at hpasses
      obtain ⟨heq, hresolved⟩ : e = .respond r ∧ s.resolved r = some response := by
        cases hpasses with
        | responded hresolved => exact ⟨rfl, hresolved⟩
      cases hexchange : s.exchanges r with
      | ready response' =>
        obtain rfl : response' = response := by simpa [resolved, hexchange] using hresolved
        rw [outcomes_effect henabled (by simp [hexchange])]
        exact .inl (h.ready r response' hexchange)
      | dispatched i =>
        obtain ⟨sent, hreceived, heq⟩ : ∃ sent, s.received i r = some sent ∧
            responseFromHandler sent = response := by
          simpa [resolved, hexchange] using hresolved
        obtain ⟨⟨r', sent'⟩, hfind, hsent⟩ := Option.map_eq_some_iff.mp hreceived
        obtain rfl : r' = r := by simpa using List.find?_some hfind
        obtain rfl : sent' = sent := hsent
        obtain ⟨htask, hschedules⟩ := htracked.dispatched r' i hexchange
        exact .inr ⟨i, sent', hasTask_effect.mpr (.inr htask), hschedules,
          mem_responses_effect (List.mem_of_find?_eq_some hfind), heq.symm⟩
      | unreceived | blocking | answered response' | dropped =>
        simp [resolved, hexchange] at hresolved

/-- On every run the responses of a server are sound. -/
theorem Sound.of_reachesUnder {allowed : Site Point n → Event n → Prop} {faulty : TaskId → Prop}
    (hreach : (system app values).ReachesUnder allowed s)
    (hfaulty : ∀ s e r, allowed s e → e.FailsFor r s → faulty r) : Sound app faulty s := by
  induction hreach with
  | init hfresh =>
    have hunreceived := hfresh.exchanges
    refine ⟨fun r h => ?_, fun r response h => ?_, fun r response h => ?_⟩ <;>
      simp [hunreceived r] at h
  | step hreach hallowed henabled ih =>
    exact ih.effect (.of_reachesUnder hreach) henabled fun r => hfaulty _ _ r hallowed

/-- A response that the application means: the router's 404, the 422 of a parameter, the outcome of
a sync handler, what the code of an async handler evaluates to, and the opaque 500 of a request that
was cancelled before its handler was called or has failed itself. -/
inductive Means (app : Application m F Point) (values : Fin n → FutureId → Value) (faulty : Prop)
    (s : Site Point n) (r : TaskId) : Response → Prop
  | direct {response : Response} : Direct app faulty (s.outcomes r) r response →
    Means app values faulty s r response
  | async {i : Fin n} {handler : Handler} {kwargs : Kwargs F} {c : CompletionKind} :
    HasTask s i r → dispatch app r = .schedule handler kwargs →
    Denotes app.code (environment (values i) (s.loops i).loop.world r) (app.call handler kwargs) c →
    Means app values faulty s r (responseFromHandler (c.response (respondTo app)))
  /-- The handler of a task that has been cancelled was never called. -/
  | cancelled {i : Fin n} {k : HandlerTask} : (s.loops i).loop.tasks r = some k →
    k.factoryCalls = 0 → Schedules app r → Asked (s.loops i).loop.world r →
    Means app values faulty s r internalServerError

/-- The response of a task is one that its handler means. -/
theorem means_of_sent {allowed : Site Point n → Event n → Prop} {i : Fin n}
    {sent : HandlerResponse} (hreach : (system app values).ReachesUnder allowed s)
    (htask : HasTask s i r) (hschedules : Schedules app r)
    (hsent : (r, sent) ∈ (s.loops i).loop.world.shared.responses) :
    Means app values (∃ s e, allowed s e ∧ e.FailsFor r s) s r (responseFromHandler sent) := by
  have hloop := loop_reaches hreach i
  obtain ⟨k, hk⟩ := Option.isSome_iff_exists.mp htask
  obtain ⟨-, hfaithful⟩ := Faithful.of_reachesUnder
    (fun r => ∃ s e, allowed s e ∧ e.FailsFor r s) hloop fun _ e r hallowed hfails => by
      rcases hallowed with hfaultless | ⟨s₀, rfl, hallowed⟩
      · exact absurd hfaultless hfails.1
      · exact ⟨s₀, .onLoop i e, hallowed, hfails⟩
  have hfollows := hfaithful.tasks r k hk
  have hmem : (r, sent) ∈ (s.loops i).loop.world.shared.responses.filter (·.1 = r) := by
    simpa using hsent
  have hfinished : k.state.finished = true := by
    by_contra hopen
    have hnone := (hfollows.unanswered (by simpa using hopen)).2.1
    simp only [hnone, List.not_mem_nil] at hmem
  obtain ⟨c, -, honly, hends⟩ := hfollows.ended hfinished
  rw [honly] at hmem
  obtain rfl : sent = c.response (respondTo app) := by simpa using hmem
  obtain ⟨handler, kwargs, hdispatch⟩ := hschedules
  cases hends with
  | meant hdenotes =>
    have hentry : entry app r = app.call handler kwargs := by rw [entry, hdispatch]
    rw [hentry] at hdenotes
    exact .async htask hdispatch hdenotes
  | unstarted message huncalled hasked =>
    rw [CompletionKind.response, responseFromHandler_internalError]
    exact .cancelled hk huncalled ⟨handler, kwargs, hdispatch⟩ hasked
  | aborted hfaulty =>
    rw [CompletionKind.response, responseFromHandler_internalError]
    exact .direct (.failed (.inl ⟨handler, kwargs, hdispatch⟩) hfaulty)

/-- **Every response is one that the application means.** On every run of a server, however its
requests, loops and threads take turns, the response that a client has received is the one of its
own request: from the router, from the arguments, from the sync handler, or from what the code of
its async handler evaluates to on the one loop that the request was given to. Any other response is
the opaque 500 of a request that was cancelled before its handler was called, or that has failed
itself on this run. -/
theorem responses_are_meant {s₀ : Site Point n} {es : List (Event n)} {response : Response}
    (hinit : (system app values).init s₀) (hexec : (system app values).exec s₀ es = some s)
    (hanswered : s.exchanges r = .answered response) :
    Means app values (∃ s₁ e, (system app values).Takes s₀ es s₁ e ∧ e.FailsFor r s₁)
        s r response ∧
      ∀ i j, HasTask s i r → HasTask s j r → i = j := by
  have hreach : (system app values).ReachesUnder ((system app values).Takes s₀ es) s :=
    .of_exec hinit hexec
  have hsound : Sound app
      (fun r => ∃ s₁ e, (system app values).Takes s₀ es s₁ e ∧ e.FailsFor r s₁) s :=
    .of_reachesUnder hreach fun s₁ e r htakes hfails => ⟨s₁, e, htakes, hfails⟩
  refine ⟨?_, (Tracked.of_reachesUnder hreach).unique r⟩
  rcases hsound.answered r response hanswered with hdirect | ⟨i, sent, htask, hschedules, hmem, rfl⟩
  · exact .direct hdirect
  · exact means_of_sent hreach htask hschedules hmem

/-- A server with the route of an item, whose handler awaits future 3. -/
def itemApplication : Application templateList (Option ℤ) ℕ where
  service := itemService ['/', '{', 'i', 'd', '}']
  parseF64 _ := none
  ops := wholeFloats
  object _ := .none
  code := awaitingHandler
  call _ _ := .ok 0
  request _ := { method := "GET", path := ['/', '4', '2'] }

/-- It has received nothing. -/
def idleSite : Site ℕ 1 where
  loops _ := idleServing
  stopped _ := false
  exchanges _ := .unreceived
  outcomes _ := none

/-- Its loop. -/
def onlyLoop : Fin 1 := ⟨0, Nat.one_pos⟩

/-- A request is received, its handler parks, future 3 gets its result, and the handler returns. -/
def itemRun : List (Event 1) :=
  .receive 0 onlyLoop none :: awaitingRun.tail.map (.onLoop onlyLoop)

/-- The server of the item has just been started. -/
theorem idleSite_fresh : Fresh itemApplication (fun _ _ => 9) idleSite where
  loops _ := ⟨Loop.Fresh.fresh _ fun _ => rfl, fun _ => rfl⟩
  stopped _ := rfl
  exchanges _ := rfl
  outcomes _ := rfl

/-- The run has ended with the response on the channel. -/
structure ItemServed (s : Site ℕ 1) : Prop where
  executed : (system itemApplication fun _ _ => 9).exec idleSite itemRun = some s
  reaches : (system itemApplication fun _ _ => 9).ReachesUnder (fun _ e => e.Faultless) s
  dispatched : s.exchanges 0 = .dispatched onlyLoop
  resolved : s.resolved 0 = some ⟨204, some "text/plain; charset=utf-8", []⟩
  idle : (s.loops onlyLoop).loop.running = none
  empty : (s.loops onlyLoop).loop.world.ready = []
  local_ : foreign (s.loops onlyLoop).loop.world 3 = false
  calm : (s.loops onlyLoop).loop.world.log = [.sent 0, .sent 0]

/-- The item can be served. -/
theorem exists_itemServed : ∃ s, ItemServed s := by
  have hexec : ((system itemApplication fun _ _ => 9).exec idleSite itemRun).map (fun s =>
      decide ((s.exchanges 0).loop = some onlyLoop ∧
        s.resolved 0 = some ⟨204, some "text/plain; charset=utf-8", []⟩ ∧
        (s.loops onlyLoop).loop.running = none ∧ (s.loops onlyLoop).loop.world.ready = [] ∧
        foreign (s.loops onlyLoop).loop.world 3 = false ∧
        (s.loops onlyLoop).loop.world.log = [.sent 0, .sent 0])) = some true := by
    decide +kernel
  obtain ⟨s, hs, hend⟩ := Option.map_eq_some_iff.mp hexec
  obtain ⟨hdispatched, hresolved, hidle, hempty, hlocal, hcalm⟩ := of_decide_eq_true hend
  have hreach : (system itemApplication fun _ _ => 9).ReachesUnder (fun _ e => e.Faultless) s :=
    Transition.System.ReachesUnder.exec_of_forall (.init idleSite_fresh)
      (by simp [itemRun, awaitingRun, Event.Faultless, Serving.Event.Faultless]) hs
  exact ⟨s, hs, hreach, Exchange.eq_dispatched hdispatched, hresolved, hidle, hempty, hlocal, hcalm⟩

/-- The client gets the response. -/
theorem ItemServed.respond {s : Site ℕ 1} (h : ItemServed s) :
    (system itemApplication fun _ _ => 9).exec idleSite (itemRun ++ [.respond 0]) =
        some (effect itemApplication (fun _ _ => 9) s (.respond 0)) ∧
      (effect itemApplication (fun _ _ => 9) s (.respond 0)).exchanges 0 =
        .answered ⟨204, some "text/plain; charset=utf-8", []⟩ := by
  have henabled : (system itemApplication fun _ _ => 9).enabled s (.respond 0) = true := by
    simp [system, enabled, h.resolved]
  refine ⟨?_, by simp [effect, h.resolved]⟩
  rw [Transition.System.exec_append h.executed]
  simp only [Transition.System.exec, henabled, if_true]
  rfl

/-- The response to the item is one that its request means. -/
theorem responses_are_meant_itemServed : ∃ s : Site ℕ 1, ∃ response,
    s.exchanges 0 = .answered response ∧ response.status = 204 ∧
      Means itemApplication (fun _ _ => 9) (∃ s₁ e, (system itemApplication fun _ _ => 9).Takes
        idleSite (itemRun ++ [.respond 0]) s₁ e ∧ e.FailsFor 0 s₁) s 0 response := by
  obtain ⟨s, hserved⟩ := exists_itemServed
  obtain ⟨hexec, hanswered⟩ := hserved.respond
  exact ⟨_, _, hanswered, rfl, (responses_are_meant idleSite_fresh hexec hanswered).1⟩

/-- **No request is lost.** Where nothing fails, the response of a request resolves to what its
handler means as soon as its loop has nothing left to run: its handler has at most one meaning, and
the request goes on waiting exactly if the handler does. -/
theorem quiet_loop_answers {i : Fin n} {handler : Handler} {kwargs : Kwargs F}
    (hreach : (system app values).ReachesUnder (fun _ e => e.Faultless) s)
    (hdispatched : s.exchanges r = .dispatched i)
    (hdispatch : dispatch app r = .schedule handler kwargs)
    (hproper : Proper app.code (s.loops i).loop.world) (hcalm : ¬Asked (s.loops i).loop.world r)
    (hidle : (s.loops i).loop.running = none) (hempty : (s.loops i).loop.world.ready = [])
    (response : Response) :
    s.resolved r = some response ↔ ∃ c,
      Denotes app.code (environment (values i) (s.loops i).loop.world r)
        (app.call handler kwargs) c ∧
      response = responseFromHandler (c.response (respondTo app)) := by
  have hloop := loop_reaches hreach i
  obtain ⟨hreaches, hfaithful⟩ := Faithful.of_reachesUnder (fun _ => False) hloop
    fun _ _ _ hallowed hfails => by
      rcases hallowed with hfaultless | ⟨_, -, hfaultless⟩
      · exact hfails.1 hfaultless
      · exact hfails.1 hfaultless
  obtain ⟨k, hk⟩ := Option.isSome_iff_exists.mp ((Tracked.of_reachesUnder hreach).dispatched r i
    hdispatched).1
  have hfollows := hfaithful.tasks r k hk
  have hentry : entry app r = app.call handler kwargs := by rw [entry, hdispatch]
  have hresolved : s.resolved r = (s.received i r).map responseFromHandler := by
    rw [resolved, hdispatched]
  have hreceived (hfinished : k.state.finished = true) : ∃ c,
      Denotes app.code (environment (values i) (s.loops i).loop.world r)
        (app.call handler kwargs) c ∧
      s.resolved r = some (responseFromHandler (c.response (respondTo app))) := by
    obtain ⟨c, hc, -, hsent⟩ := hfollows.meant hcalm hfinished
    refine ⟨c, hentry ▸ hc, ?_⟩
    rw [hresolved, received, ← List.head?_filter, hsent]
    rfl
  constructor
  · intro hresponse
    have hfinished : k.state.finished = true := by
      by_contra hopen
      have hnone := (hfollows.unanswered (by simpa using hopen)).2.1
      rw [hresolved, received, ← List.head?_filter, hnone] at hresponse
      simp at hresponse
    obtain ⟨c, hc, hmeant⟩ := hreceived hfinished
    exact ⟨c, hc, Option.some.inj (hresponse.symm.trans hmeant)⟩
  · rintro ⟨c, hc, rfl⟩
    have hfinished := hfollows.finished_of_denotes (Wakeful.of_reaches hreaches) hk hproper hcalm
      hidle hempty (hentry.symm ▸ hc)
    obtain ⟨c', hc', hmeant⟩ := hreceived hfinished
    rw [hmeant, denotes_unique (hproper.decided hcalm) hc' hc]

/-- The request of the item is resolved as its handler means. -/
theorem quiet_loop_answers_itemServed : ∃ s : Site ℕ 1, ∃ response,
    s.resolved 0 = some response ∧ ∃ c,
      Denotes awaitingHandler (environment (fun _ => 9) (s.loops onlyLoop).loop.world 0) (.ok 0) c ∧
      response = responseFromHandler (c.response (respondTo itemApplication)) := by
  obtain ⟨s, hserved⟩ := exists_itemServed
  have hproper : Proper itemApplication.code (s.loops onlyLoop).loop.world := by
    refine ⟨fun p f next hmove => ?_, fun p f next hmove => ?_⟩ <;> cases p <;>
      simp [itemApplication, awaitingHandler] at hmove
    rw [← hmove.1]
    exact hserved.local_
  have hcalm : ¬Asked (s.loops onlyLoop).loop.world 0 := by
    rintro ⟨reply, hmem⟩
    simp [hserved.calm] at hmem
  have hdispatch : dispatch itemApplication 0 =
      .schedule showItem [(['i', 'd'], .int 42)] := by rfl
  exact ⟨s, _, hserved.resolved, (quiet_loop_answers hserved.reaches hserved.dispatched hdispatch
    hproper hcalm hserved.idle hserved.empty _).mp hserved.resolved⟩

end Rayo.Site
