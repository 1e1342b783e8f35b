import Rayo.Server.Shutdown

/-!
# Stopping the event loops

However calls of `wait`, `shutdown` and `drop` overlap, each loop is told to stop by the one call
that takes its join handle, and every call disposes of what it finds on a loop. When a call has
returned and no other one is still stopping loops, the loop threads have ended and no task is
left. Only a loop that a call on its own thread has tried to join escapes, as that join panics.
-/

namespace Rayo

/-- The loops that a caller has not come to in `stop`. -/
def CallerPc.ahead : CallerPc → List LoopIndex
  | .stopping loops | .telling _ loops | .joining _ loops | .disposing _ loops => loops
  | _ => []

/-- The caller has the join handle of a loop. -/
def CallerPc.winds (l : LoopIndex) : CallerPc → Bool
  | .telling l' _ | .joining l' _ => l' = l
  | _ => false

/-- The caller is about to dispose of what is left on a loop. -/
def CallerPc.disposes (l : LoopIndex) : CallerPc → Bool
  | .disposing l' _ => l' = l
  | _ => false

namespace Server

/-- Somebody has the join handle of a loop, or the thread has ended and what is left on the loop is
disposed of or about to be, or a call on the thread of the loop has tried to join it. -/
def TakenCare (s : Server) (l : LoopIndex) : Prop :=
  (∃ c, (s.callers c).winds l = true) ∨
    (s.threads l = .ended ∧
      ((∃ c, (s.callers c).disposes l = true) ∨ ∀ r ∈ s.live, s.home r ≠ l)) ∨
    l ∈ s.selfJoined

/-- What holds of the loops while calls stop them. -/
structure Winding (s : Server) : Prop where
  /-- A loop whose join handle is still there is ahead of every call that stops loops. -/
  ahead : ∀ c, (s.callers c).past = true → ∀ l < s.size, s.handles l = true →
    l ∈ (s.callers c).ahead
  taken : ∀ l < s.size, s.handles l = false → TakenCare s l
  home : ∀ r ∈ s.live, s.home r < s.size

variable {s s' : Server} {c : CallerId} {l : LoopIndex}

/-- Nothing is wound down on a server that has just been started. -/
theorem winding_start (size : ℕ) : Winding (start size) where
  ahead _ hpast := by cases hpast
  taken _ _ hhandle := by cases hhandle
  home _ hr := absurd hr List.not_mem_nil

/-- The care that other callers take of a loop. -/
theorem TakenCare.mono (h : TakenCare s l) (hselfJoined : s.selfJoined ⊆ s'.selfJoined)
    (hended : s.threads l = .ended → s'.threads l = .ended)
    (hlive : (∀ r ∈ s.live, s.home r ≠ l) → ∀ r ∈ s'.live, s'.home r ≠ l)
    (hwinds : ∀ c, (s.callers c).winds l = true → TakenCare s' l)
    (hdisposes : ∀ c, (s.callers c).disposes l = true →
      (∃ c', (s'.callers c').disposes l = true) ∨ ∀ r ∈ s'.live, s'.home r ≠ l) :
    TakenCare s' l := by
  rcases h with ⟨c, hc⟩ | ⟨hthread, ⟨c, hc⟩ | hempty⟩ | hself
  · exact hwinds c hc
  · exact .inr (.inl ⟨hended hthread, hdisposes c hc⟩)
  · exact .inr (.inl ⟨hended hthread, .inr (hlive hempty)⟩)
  · exact .inr (.inr (hselfJoined hself))

/-- A caller moves on, and tasks perhaps go. -/
theorem Winding.goto (h : Winding s) {pc : CallerPc} (hsize : s'.size = s.size)
    (hcallers : s'.callers = Function.update s.callers c pc) (hhandles : s'.handles = s.handles)
    (hthreads : s'.threads = s.threads) (hlive : s'.live ⊆ s.live) (hhome : s'.home = s.home)
    (hselfJoined : s.selfJoined ⊆ s'.selfJoined)
    (hahead : pc.past = true → ∀ l < s.size, s.handles l = true → l ∈ pc.ahead)
    (hwinds : ∀ l, (s.callers c).winds l = true → pc.winds l = true ∨
      (s.threads l = .ended ∧ pc.disposes l = true) ∨ l ∈ s'.selfJoined)
    (hdisposes : ∀ l, (s.callers c).disposes l = true → pc.disposes l = true ∨
      ∀ r ∈ s'.live, s.home r ≠ l) : Winding s' := by
  have hself : s'.callers c = pc := by rw [hcallers, Function.update_self]
  have hother {c' : CallerId} (hc : c' ≠ c) : s'.callers c' = s.callers c' := by
    rw [hcallers, Function.update_of_ne hc]
  refine ⟨fun c' hpast l hl hhandle => ?_, fun l hl hhandle => ?_, fun r hr => ?_⟩
  · rw [hhandles] at hhandle
    rw [hsize] at hl
    by_cases hc : c' = c
    · subst hc
      rw [hself] at hpast ⊢
      exact hahead hpast l hl hhandle
    · rw [hother hc] at hpast ⊢
      exact h.ahead c' hpast l hl hhandle
  · refine (h.taken l (hsize ▸ hl) (hhandles ▸ hhandle)).mono hselfJoined
      (fun hthread => hthreads ▸ hthread) (fun hempty r hr => hhome ▸ hempty r (hlive hr))
      (fun c' hc' => ?_) fun c' hc' => ?_
    · by_cases hc : c' = c
      · subst hc
        rcases hwinds l hc' with hpc | ⟨hthread, hpc⟩ | hjoined
        · exact .inl ⟨c', hself ▸ hpc⟩
        · exact .inr (.inl ⟨hthreads ▸ hthread, .inl ⟨c', hself ▸ hpc⟩⟩)
        · exact .inr (.inr hjoined)
      · exact .inl ⟨c', by rwa [hother hc]⟩
    · by_cases hc : c' = c
      · subst hc
        rcases hdisposes l hc' with hpc | hempty
        · exact .inl ⟨c', hself ▸ hpc⟩
        · exact .inr fun r hr => hhome ▸ hempty r hr
      · exact .inl ⟨c', by rwa [hother hc]⟩
  · rw [hhome, hsize]
    exact h.home r (hlive hr)

/-- A caller that stops no loop goes on, and does not come past the stop of one. -/
theorem Winding.advance (h : Winding s) {pc : CallerPc} (hsize : s'.size = s.size)
    (hcallers : s'.callers = Function.update s.callers c pc) (hhandles : s'.handles = s.handles)
    (hthreads : s'.threads = s.threads) (hlive : s'.live = s.live) (hhome : s'.home = s.home)
    (hselfJoined : s'.selfJoined = s.selfJoined) (hbefore : (s.callers c).past = false)
    (hahead : pc.past = false ∨ pc = .stopping (List.range s.size)) : Winding s' := by
  have hidle (l : LoopIndex) :
      (s.callers c).winds l = false ∧ (s.callers c).disposes l = false := by
    cases hpc : s.callers c <;>
      simp [hpc, CallerPc.past, CallerPc.winds, CallerPc.disposes] at hbefore ⊢
  refine h.goto hsize hcallers hhandles hthreads (by rw [hlive]; exact fun _ => id) hhome
    (by rw [hselfJoined]; exact fun _ => id) (fun hpast l hl hhandle => ?_)
    (fun l hwinds => by simp [hidle l] at hwinds) fun l hdisposes => by simp [hidle l] at hdisposes
  rcases hahead with hpc | rfl
  · simp [hpc] at hpast
  · exact List.mem_range.mpr hl

/-- Nobody moves, and tasks perhaps go. -/
theorem Winding.world (h : Winding s) (hsize : s'.size = s.size) (hcallers : s'.callers = s.callers)
    (hhandles : s'.handles = s.handles) (hthreads : s'.threads = s.threads)
    (hlive : s'.live ⊆ s.live) (hhome : s'.home = s.home)
    (hselfJoined : s'.selfJoined = s.selfJoined) : Winding s' := by
  refine h.goto (c := 0) hsize (by rw [hcallers, Function.update_eq_self]) hhandles hthreads hlive
    hhome (by rw [hselfJoined]; exact fun _ => id) (h.ahead 0) (fun l hl => .inl hl)
    fun l hl => .inl hl

/-- A caller takes the join handle of a loop. -/
theorem Winding.takeHandle (h : Winding s) {loops : List LoopIndex}
    (hpc : s.callers c = .stopping (l :: loops)) :
    Winding
      { s.goto c (.telling l loops) with handles := Function.update s.handles l false } := by
  have hother {c' : CallerId} (hc : c' ≠ c) :
      (s.goto c (.telling l loops)).callers c' = s.callers c' := Function.update_of_ne hc ..
  have hself : (s.goto c (.telling l loops)).callers c = .telling l loops :=
    Function.update_self ..
  have hkept {l' : LoopIndex} (hhandle : Function.update s.handles l false l' = true) :
      l' ≠ l ∧ s.handles l' = true := by
    by_cases hl : l' = l
    · simp [hl] at hhandle
    · exact ⟨hl, by simpa [hl] using hhandle⟩
  refine ⟨fun c' hpast l' hl' hhandle => ?_, fun l' hl' hhandle => ?_, h.home⟩
  · obtain ⟨hne, hbefore⟩ := hkept hhandle
    by_cases hc : c' = c
    · subst hc
      have hmem := h.ahead c' (by rw [hpc]; rfl) l' hl' hbefore
      rw [hpc] at hmem
      rw [hself]
      exact (List.mem_cons.mp hmem).resolve_left hne
    · rw [hother hc] at hpast ⊢
      exact h.ahead c' hpast l' hl' hbefore
  · by_cases hl : l' = l
    · exact .inl ⟨c, by rw [hself]; simp [CallerPc.winds, hl]⟩
    · have hmoves {c' : CallerId} {p : CallerPc → Bool}
          (hstopping : p (.stopping (l :: loops)) = false) (hc' : p (s.callers c') = true) :
          p ((s.goto c (.telling l loops)).callers c') = true := by
        have hc : c' ≠ c := by
          rintro rfl
          rw [hpc, hstopping] at hc'
          cases hc'
        rwa [hother hc]
      exact (h.taken l' hl' (by simpa [hl] using hhandle)).mono (fun _ => id) id id
        (fun c' hc' => .inl ⟨c', hmoves rfl hc'⟩) fun c' hc' => .inl ⟨c', hmoves rfl hc'⟩

/-- The thread of a loop goes on, and perhaps the caller that has its join handle. -/
theorem Winding.thread (h : Winding s) {t : LoopThread} (hhome : s'.home = s.home)
    (hsize : s'.size = s.size) (hhandles : s'.handles = s.handles)
    (hthreads : s'.threads = Function.update s.threads l t) (hlive : s'.live = s.live)
    (hselfJoined : s'.selfJoined = s.selfJoined)
    (hpast : ∀ c, (s'.callers c).past = true → (s.callers c).past = true ∧
      (s'.callers c).ahead = (s.callers c).ahead)
    (hcare : TakenCare s l → TakenCare s' l)
    (hcallers : ∀ c l', l' ≠ l → (s'.callers c).winds l' = (s.callers c).winds l' ∧
      (s'.callers c).disposes l' = (s.callers c).disposes l') : Winding s' := by
  refine ⟨fun c hc l' hl' hhandle => ?_, fun l' hl' hhandle => ?_, fun r hr => ?_⟩
  · obtain ⟨hbefore, hahead⟩ := hpast c hc
    rw [hahead]
    exact h.ahead c hbefore l' (hsize ▸ hl') (hhandles ▸ hhandle)
  · have htaken := h.taken l' (hsize ▸ hl') (hhandles ▸ hhandle)
    by_cases hl : l' = l
    · subst hl
      exact hcare htaken
    · refine htaken.mono (by rw [hselfJoined]; exact fun _ => id) (fun hended => ?_)
        (fun hempty => ?_) (fun c hc => .inl ⟨c, ?_⟩) fun c hc => .inl ⟨c, ?_⟩
      · rwa [hthreads, Function.update_of_ne hl]
      · rw [hlive, hhome]
        exact hempty
      · rwa [(hcallers c l' hl).1]
      · rwa [(hcallers c l' hl).2]
  · rw [hhome, hsize]
    exact h.home r (hlive ▸ hr)

/-- A caller goes on to join the loop, whether or not it could be told to stop. -/
theorem Winding.tellAgain (h : Winding s) {loops : List LoopIndex}
    (hpc : s.callers c = .telling l loops) : Winding (s.goto c (.joining l loops)) := by
  refine h.goto rfl rfl rfl rfl (List.Subset.refl _) rfl (fun _ => id) (fun _ l' hl' hhandle => ?_)
    (fun l' hl' => ?_) fun l' hl' => by simp [hpc, CallerPc.disposes] at hl'
  · have hmem := h.ahead c (by rw [hpc]; rfl) l' hl' hhandle
    rwa [hpc] at hmem
  · exact .inl (by simpa [hpc, CallerPc.winds] using hl')

/-- **One step.** -/
theorem Winding.effect (h : Winding s) {e : Event} (henabled : s.enabled e = true) :
    Winding (s.effect e) := by
  cases e with
  | accept | close | leaveAccept | serveFinishes | callsOnLoop =>
    exact h.world rfl rfl rfl rfl (List.Subset.refl _) rfl rfl
  | finish r => exact h.world rfl rfl rfl rfl (List.filter_subset_self _) rfl rfl
  | dispatch r k l =>
    simp only [enabled, decide_eq_true_eq] at henabled
    obtain ⟨-, -, hsize, hthread⟩ := henabled
    refine ⟨h.ahead, fun l' hl' hhandle => ?_, fun r' hr' => ?_⟩
    · rcases h.taken l' hl' hhandle with hwinds | ⟨hended, hdisposed⟩ | hself
      · exact .inl hwinds
      · refine .inr (.inl ⟨hended, hdisposed.imp_right fun hempty r' hr' => ?_⟩)
        -- no request is dispatched on a loop that has ended
        have hother : l ≠ l' := fun heq => hthread (heq ▸ hended)
        by_cases hr : r' = r
        · simpa [Server.effect, hr] using hother
        · have hold : r' ∈ s.live := (List.mem_cons.mp hr').resolve_left hr
          simpa [Server.effect, hr] using hempty r' hold
      · exact .inr (.inr hself)
    · by_cases hr : r' = r
      · simpa [Server.effect, hr] using hsize
      · have hold : r' ∈ s.live := (List.mem_cons.mp hr').resolve_left hr
        simpa [Server.effect, hr] using h.home r' hold
  | loopEnds l =>
    refine h.thread (l := l) (t := .ended) rfl rfl rfl rfl rfl rfl
      (fun c hc => ⟨hc, rfl⟩) (fun htaken => ?_) fun c l' hl' => ⟨rfl, rfl⟩
    exact htaken.mono (fun _ => id) (fun _ => Function.update_self ..) id
      (fun c hc => .inl ⟨c, hc⟩) fun c hc => .inl ⟨c, hc⟩
  | subscribe c | call c | callRefused c | ctrlC c seen | send c | collect c l loops
  | posted c l loops | postCancel c r tasks l loops | cancelFails c r tasks l loops
  | allCancelled c =>
    simp only [enabled, decide_eq_true_eq] at henabled
    exact h.advance rfl rfl rfl rfl rfl rfl rfl (by rw [henabled]; rfl) (.inl rfl)
  | changed c seen | graceExpires c =>
    simp only [enabled, decide_eq_true_eq] at henabled
    exact h.advance rfl rfl rfl rfl rfl rfl rfl (by rw [henabled.1]; rfl) (.inl rfl)
  | drained c =>
    simp only [enabled, decide_eq_true_eq] at henabled
    have hbefore : (s.callers c).past = false := by
      rcases henabled.1 with hpc | hpc <;> rw [hpc] <;> rfl
    exact h.advance rfl rfl rfl rfl rfl rfl rfl hbefore (.inr rfl)
  | windowExpires c =>
    simp only [enabled, decide_eq_true_eq] at henabled
    exact h.advance rfl rfl rfl rfl rfl rfl rfl (by rw [henabled.1]; rfl) (.inr rfl)
  | takeReceiver c =>
    simp only [enabled, decide_eq_true_eq] at henabled
    have hbefore : (s.callers c).past = false := by rw [henabled]; rfl
    simp only [Server.effect]
    split
    · split <;> exact h.advance rfl rfl rfl rfl rfl rfl rfl hbefore (.inl rfl)
    · exact h.advance rfl rfl rfl rfl rfl rfl rfl hbefore (.inr rfl)
  | takeHandle c l loops =>
    have hpc : s.callers c = .stopping (l :: loops) := by simpa [enabled] using henabled
    simp only [Server.effect]
    split
    · exact h.takeHandle hpc
    · next hhandle =>
      refine h.goto rfl rfl rfl rfl (List.Subset.refl _) rfl (fun _ => id)
        (fun _ l' hl' hbefore => ?_) (fun l' hl' => by simp [hpc, CallerPc.winds] at hl')
        fun l' hl' => by simp [hpc, CallerPc.disposes] at hl'
      have hmem := h.ahead c (by rw [hpc]; rfl) l' hl' hbefore
      rw [hpc] at hmem
      refine (List.mem_cons.mp hmem).resolve_left fun heq => hhandle ?_
      exact heq ▸ hbefore
  | tellFails c l loops => exact h.tellAgain (by simpa [enabled] using henabled)
  | tell c l loops =>
    have hpc : s.callers c = .telling l loops := by simpa [enabled] using henabled
    -- the loop moves when the caller has gone on to join it
    have hjoining := h.tellAgain hpc
    refine hjoining.thread (l := l) (t := .told) rfl rfl rfl rfl rfl rfl (fun c' hc' => ⟨hc', rfl⟩)
      (fun _ => .inl ⟨c, ?_⟩) fun c' l' hl' => ⟨rfl, rfl⟩
    simp [Server.effect, Server.goto, CallerPc.winds]
  | join c l loops =>
    simp only [enabled, decide_eq_true_eq] at henabled
    obtain ⟨hpc, hended⟩ := henabled
    refine h.goto rfl rfl rfl rfl (List.Subset.refl _) rfl (fun _ => id)
      (fun _ l' hl' hhandle => ?_) (fun l' hl' => ?_)
      fun l' hl' => by simp [hpc, CallerPc.disposes] at hl'
    · have hmem := h.ahead c (by rw [hpc]; rfl) l' hl' hhandle
      rwa [hpc] at hmem
    · obtain rfl : l = l' := by simpa [hpc, CallerPc.winds] using hl'
      exact .inr (.inl ⟨hended, by simp [CallerPc.disposes]⟩)
  | joinItself c l loops =>
    simp only [enabled, decide_eq_true_eq] at henabled
    obtain ⟨hpc, -⟩ := henabled
    refine h.goto rfl rfl rfl rfl (List.Subset.refl _) rfl (List.subset_cons_self _ _) nofun
      (fun l' hl' => ?_) fun l' hl' => by simp [hpc, CallerPc.disposes] at hl'
    obtain rfl : l = l' := by simpa [hpc, CallerPc.winds] using hl'
    exact .inr (.inr List.mem_cons_self)
  | dispose c l loops =>
    have hpc : s.callers c = .disposing l loops := by simpa [enabled] using henabled
    refine h.goto rfl rfl rfl rfl (List.filter_subset_self _) rfl (fun _ => id)
      (fun _ l' hl' hhandle => ?_) (fun l' hl' => by simp [hpc, CallerPc.winds] at hl')
      fun l' hl' => .inr ?_
    · have hmem := h.ahead c (by rw [hpc]; rfl) l' hl' hhandle
      rwa [hpc] at hmem
    · obtain rfl : l = l' := by simpa [hpc, CallerPc.disposes] using hl'
      intro r hr
      simpa using (List.mem_filter.mp hr).2
  | stopped c =>
    have hpc : s.callers c = .stopping [] := by simpa [enabled] using henabled
    refine h.goto rfl rfl rfl rfl (List.Subset.refl _) rfl (fun _ => id)
      (fun _ l' hl' hhandle => ?_) (fun l' hl' => by simp [hpc, CallerPc.winds] at hl')
      fun l' hl' => by simp [hpc, CallerPc.disposes] at hl'
    have hmem := h.ahead c (by rw [hpc]; rfl) l' hl' hhandle
    rwa [hpc] at hmem

/-- On every run the callers wind the server down. -/
theorem winding_of_reaches (hreach : system.Reaches s) : Winding s := by
  refine hreach.invariant (fun s hs => ?_) fun _ _ h henabled => h.effect henabled
  rw [hs.2]
  exact winding_start _

/-- The loop has ended for good: its thread is gone, and so is every task on it. -/
def LoopDown (s : Server) (l : LoopIndex) : Prop :=
  s.threads l = .ended ∧ ∀ r ∈ s.live, s.home r ≠ l

/-- Once a call has returned, the loops are in nobody's hands but those of the calls that are
still stopping them. -/
theorem Winding.loopDown (h : Winding s) (hreturned : s.callers c = .returned)
    (hothers : ∀ c', (s.callers c').past = true → s.callers c' = .returned) (hl : l < s.size) :
    l ∈ s.selfJoined ∨ LoopDown s l := by
  have hidle (c' : CallerId) :
      (s.callers c').winds l = false ∧ (s.callers c').disposes l = false := by
    cases hpc : s.callers c' with
    | telling l' loops | joining l' loops | disposing l' loops =>
      have hnot := hothers c' (by rw [hpc]; rfl)
      rw [hpc] at hnot
      cases hnot
    | _ => exact ⟨rfl, rfl⟩
  have hhandle : s.handles l = false := by
    by_contra hstill
    have hmem := h.ahead c (by rw [hreturned]; rfl) l hl (by simpa using hstill)
    rw [hreturned] at hmem
    cases hmem
  rcases h.taken l hl hhandle with ⟨c', hc'⟩ | ⟨hended, ⟨c', hc'⟩ | hempty⟩ | hself
  · simp [(hidle c').1] at hc'
  · simp [(hidle c').2] at hc'
  · exact .inr ⟨hended, hempty⟩
  · exact .inl hself

/-- The call that takes a step. -/
def Event.caller : Event → Option CallerId
  | .accept _ | .close _ | .dispatch .. | .leaveAccept | .serveFinishes | .finish _
  | .loopEnds _ | .callsOnLoop .. => none
  | .subscribe c | .changed c _ | .ctrlC c _ | .call c | .callRefused c | .send c
  | .takeReceiver c | .drained c | .graceExpires c | .collect c _ _ | .postCancel c ..
  | .cancelFails c .. | .posted c _ _ | .allCancelled c | .windowExpires c | .takeHandle c _ _
  | .tell c _ _ | .tellFails c _ _ | .join c _ _ | .joinItself c _ _ | .dispose c _ _
  | .stopped c => some c

/-- A step of one call leaves the others where they are. -/
theorem callers_effect {e : Event} (he : e.caller ≠ some c) :
    (s.effect e).callers c = s.callers c := by
  cases e with
  | accept | close | dispatch | leaveAccept | serveFinishes | finish | loopEnds | callsOnLoop =>
    rfl
  | takeReceiver c' =>
    have hc : c ≠ c' := fun heq => he (by rw [heq]; rfl)
    simp only [Server.effect]
    split
    · split <;> exact Function.update_of_ne hc ..
    · exact Function.update_of_ne hc ..
  | takeHandle c' l loops =>
    have hc : c ≠ c' := fun heq => he (by rw [heq]; rfl)
    simp only [Server.effect]
    split <;> exact Function.update_of_ne hc ..
  | _ =>
    simp only [Event.caller, ne_eq, Option.some.injEq] at he
    exact Function.update_of_ne (Ne.symm he) ..

/-- The steps of a run leave a caller alone that takes none of them. -/
theorem callers_exec {es : List Event} (hes : ∀ e ∈ es, e.caller ≠ some c)
    (hexec : system.exec s es = some s') : s'.callers c = s.callers c := by
  induction es generalizing s with
  | nil => rw [Option.some.inj hexec]
  | cons e es ih =>
    simp only [Transition.System.exec, Option.ite_none_right_eq_some] at hexec
    refine (ih (fun e he => hes e (List.mem_cons_of_mem _ he)) hexec.2).trans ?_
    exact callers_effect (hes e List.mem_cons_self)

/-- **A shutdown leaves nothing running.** However calls of `wait`, `shutdown` and `drop` overlap,
when one has returned and no other is still stopping loops, every loop has ended with no task on it
and takes no request any more, but for the loops whose thread a call on that very thread has tried
to join. -/
theorem shutdown_leaves_nothing (hreach : system.Reaches s) (hreturned : s.callers c = .returned)
    (hothers : ∀ c', (s.callers c').past = true → s.callers c' = .returned) (hl : l < s.size) :
    l ∈ s.selfJoined ∨
      (LoopDown s l ∧ ∀ r k, s.enabled (.dispatch r k l) = false) := by
  refine ((winding_of_reaches hreach).loopDown hreturned hothers hl).imp_right fun hdown => ?_
  refine ⟨hdown, fun r k => ?_⟩
  by_contra henabled
  simp only [enabled, Bool.not_eq_false, decide_eq_true_eq] at henabled
  exact henabled.2.2.2 hdown.1

/-- Two calls on a server with two loops: the second one finds the receiver taken and stops the
first loop while the first call still waits. -/
def overlappingRun : List Event :=
  [.accept 0, .dispatch 0 0 0, .call 1, .send 1, .takeReceiver 1, .call 2, .send 2,
    .takeReceiver 2, .takeHandle 2 0 [1], .leaveAccept, .graceExpires 1, .collect 1 0 [1],
    .postCancel 1 0 [] 0 [1], .posted 1 0 [1], .collect 1 1 [], .posted 1 1 [], .allCancelled 1,
    .tell 2 0 [1], .loopEnds 0, .windowExpires 1, .takeHandle 1 0 [1], .dispose 1 0 [1],
    .takeHandle 1 1 [], .join 2 0 [1], .dispose 2 0 [1], .takeHandle 2 1 [], .dispose 2 1 [],
    .stopped 2, .tell 1 1 [], .loopEnds 1, .join 1 1 [], .dispose 1 1 [], .stopped 1]

/-- Two calls that overlap have both returned, and the first loop has ended. -/
theorem shutdown_leaves_nothing_overlappingRun :
    ∃ s : Server, s.callers 1 = .returned ∧ s.callers 2 = .returned ∧ s.selfJoined = [] ∧
      (0 ∈ s.selfJoined ∨ (LoopDown s 0 ∧ ∀ r k, s.enabled (.dispatch r k 0) = false)) := by
  have hexec : (system.exec (start 2) overlappingRun).map (fun s => decide
      (s.callers 1 = .returned ∧ s.callers 2 = .returned ∧ s.selfJoined = [] ∧ s.size = 2)) =
      some true := by decide
  obtain ⟨s, hs, hend⟩ := Option.map_eq_some_iff.mp hexec
  obtain ⟨hone, htwo, hself, hsize⟩ := of_decide_eq_true hend
  have hreach : system.Reaches s := .exec (.init ⟨by decide, rfl⟩) hs
  refine ⟨s, hone, htwo, hself, shutdown_leaves_nothing hreach hone (fun c hpast => ?_)
    (by rw [hsize]; decide)⟩
  by_cases hc : c = 1 ∨ c = 2
  · rcases hc with rfl | rfl <;> assumption
  · rw [not_or] at hc
    have hidle : s.callers c = .idle := callers_exec
      (by simp [overlappingRun, Event.caller, Ne.symm hc.1, Ne.symm hc.2]) hs
    simp [hidle, CallerPc.past] at hpast

/-- A handler shuts its server down on the thread of its loop, and the join of that thread panics.
Another call then finds no join handle and returns, while the thread of the loop still runs. -/
def ownThreadRun : List Event :=
  [.accept 0, .dispatch 0 0 0, .callsOnLoop 0 1, .call 1, .send 1, .takeReceiver 1,
    .graceExpires 1, .collect 1 0 [], .postCancel 1 0 [] 0 [], .posted 1 0 [], .allCancelled 1,
    .windowExpires 1, .takeHandle 1 0 [], .tellFails 1 0 [], .joinItself 1 0 [], .call 2, .send 2,
    .takeReceiver 2, .takeHandle 2 0 [], .dispose 2 0 [], .stopped 2]

example : (system.exec (start 1) ownThreadRun).map (fun s => decide
    (s.callers 2 = .returned ∧ s.threads 0 = .running ∧ s.selfJoined = [0])) = some true := by
  decide

end Server

end Rayo
