import Rayo.Server.Winding

/-!
# Running a server down

Where no call is made on the thread of a loop and every loop can be told to stop, no call that stops
the server waits for a client, for a handler or for another call to come to its end. Only a `wait`
that has seen the last send stays, until it hears of Ctrl+C.
-/

namespace Rayo

/-- The call is over. -/
def CallerPc.over : CallerPc → Bool
  | .returned | .panicked => true
  | _ => false

/-- The call neither joins a thread, nor waits, nor has unwound. -/
def CallerPc.quiet : CallerPc → Bool
  | .joining .. | .waiting _ | .panicked => false
  | _ => true

/-- The call cannot come to its end by itself any more, or has not begun. -/
def CallerPc.settled (version : ℕ) (pc : CallerPc) : Prop :=
  pc = .idle ∨ pc.over = true ∨ pc = .waiting version

namespace Server

variable {s s' : Server} {c : CallerId} {l : LoopIndex}

/-- No loop runs, and no task is left. -/
def RanDown (s : Server) : Prop := (∀ l < s.size, s.threads l = .ended) ∧ s.live = []

/-- Calls come from threads that are not those of the loops, and every loop can be told to stop. -/
def keepsClear : Event → Bool
  | .callsOnLoop .. | .tellFails .. => false
  | _ => true

/-- The steps of calls that have begun and of loops that were told to stop. No client, no handler,
no new call and no Ctrl+C takes part, and nothing fails. -/
def Event.windsDown : Event → Bool
  | .accept _ | .close _ | .dispatch .. | .leaveAccept | .serveFinishes | .finish _
  | .callsOnLoop .. | .subscribe _ | .ctrlC .. | .call _ | .callRefused _ | .cancelFails ..
  | .tellFails .. | .joinItself .. => false
  | _ => true

/-- What winds a server down keeps clear. -/
theorem keepsClear_of_windsDown {e : Event} (he : e.windsDown = true) :
    keepsClear e = true := by
  cases e with
  | callsOnLoop | tellFails => cases he
  | _ => rfl

/-- What keeps the way of every call clear. -/
structure Unhindered (s : Server) : Prop where
  /-- Whoever joins a loop has told it to stop. -/
  told : ∀ c l loops, s.callers c = .joining l loops → s.threads l ≠ .running
  free : ∀ l, s.inner l = none
  selfJoined : s.selfJoined = []
  panicked : ∀ c, s.callers c = .panicked → c ∈ s.refused
  /-- Nobody has seen a send that has not happened. -/
  seen : ∀ c seen, s.callers c = .waiting seen → seen ≤ s.version

/-- Nothing hinders the calls on a server that has just been started. -/
theorem unhindered_start (size : ℕ) : Unhindered (start size) where
  told := nofun
  free _ := rfl
  selfJoined := rfl
  panicked := nofun
  seen := nofun

/-- A caller moves on. -/
theorem Unhindered.goto (h : Unhindered s) {pc : CallerPc}
    (hcallers : s'.callers = Function.update s.callers c pc)
    (hthreads : ∀ l, s.threads l ≠ .running → s'.threads l ≠ .running)
    (hinner : ∀ l, s.inner l = none → s'.inner l = none)
    (hselfJoined : s'.selfJoined = s.selfJoined)
    (hrefused : s.refused ⊆ s'.refused) (hversion : s.version ≤ s'.version)
    (htold : ∀ l loops, pc = .joining l loops → s'.threads l ≠ .running)
    (hpanicked : pc = .panicked → c ∈ s'.refused)
    (hseen : ∀ seen, pc = .waiting seen → seen ≤ s'.version) : Unhindered s' := by
  have hself : s'.callers c = pc := by rw [hcallers, Function.update_self]
  have hother {c' : CallerId} (hc : c' ≠ c) : s'.callers c' = s.callers c' := by
    rw [hcallers, Function.update_of_ne hc]
  refine ⟨fun c' l loops hpc => ?_, fun l => hinner l (h.free l), hselfJoined.trans h.selfJoined,
    fun c' hpc => ?_, fun c' seen hpc => ?_⟩
  all_goals by_cases hc : c' = c
  · subst hc
    exact htold l loops (hself.symm.trans hpc)
  · exact hthreads l (h.told c' l loops ((hother hc).symm.trans hpc))
  · subst hc
    exact hpanicked (hself.symm.trans hpc)
  · exact hrefused (h.panicked c' ((hother hc).symm.trans hpc))
  · subst hc
    exact hseen seen (hself.symm.trans hpc)
  · exact Nat.le_trans (h.seen c' seen ((hother hc).symm.trans hpc)) hversion

/-- A caller moves on to where it is quiet. -/
theorem Unhindered.advance (h : Unhindered s) {pc : CallerPc}
    (hcallers : s'.callers = Function.update s.callers c pc) (hthreads : s'.threads = s.threads)
    (hinner : ∀ l, s.inner l = none → s'.inner l = none)
    (hselfJoined : s'.selfJoined = s.selfJoined)
    (hrefused : s.refused ⊆ s'.refused) (hversion : s.version ≤ s'.version)
    (hquiet : pc.quiet = true) : Unhindered s' := by
  refine h.goto hcallers (fun l hl => by rwa [hthreads]) hinner hselfJoined hrefused hversion
    (fun l loops hpc => ?_) (fun hpc => ?_) fun seen hpc => ?_
  all_goals
    subst hpc
    cases hquiet

/-- Nobody moves. -/
theorem Unhindered.world (h : Unhindered s) (hcallers : s'.callers = s.callers)
    (hthreads : ∀ l, s.threads l ≠ .running → s'.threads l ≠ .running)
    (hinner : s'.inner = s.inner) (hselfJoined : s'.selfJoined = s.selfJoined)
    (hrefused : s'.refused = s.refused) (hversion : s'.version = s.version) : Unhindered s' where
  told c l loops hpc := hthreads l (h.told c l loops (by rwa [hcallers] at hpc))
  free l := by rw [hinner, h.free]
  selfJoined := hselfJoined.trans h.selfJoined
  panicked c hpc := hrefused ▸ h.panicked c (by rwa [hcallers] at hpc)
  seen c seen hpc := hversion ▸ h.seen c seen (by rwa [hcallers] at hpc)

/-- The thread that a call was made on is free again, which no loop needs to hear. -/
theorem inner_leave (pc : CallerPc) (h : s.inner l = none) : (s.leave c pc).inner l = none := by
  simp [leave, goto, h]

/-- **One step.** -/
theorem Unhindered.effect (h : Unhindered s) {e : Event} (hallowed : keepsClear e = true)
    (henabled : s.enabled e = true) : Unhindered (s.effect e) := by
  cases e with
  | accept | close | dispatch | leaveAccept | serveFinishes | finish =>
    exact h.world rfl (fun _ => id) rfl rfl rfl rfl
  | loopEnds l =>
    refine h.world rfl (fun l' hl' => ?_) rfl rfl rfl rfl
    by_cases hl : l' = l
    · simp [Server.effect, hl]
    · simpa [Server.effect, hl] using hl'
  | callsOnLoop | tellFails => cases hallowed
  | subscribe c =>
    have hcallers : (s.effect (.subscribe c)).callers =
        Function.update s.callers c (.waiting s.version) := rfl
    refine h.goto hcallers (fun _ => id) (fun _ => id) rfl (fun _ => id) (Nat.le_refl _)
      (fun _ _ hpc => by cases hpc) (fun hpc => by cases hpc) fun seen hpc => ?_
    exact Nat.le_of_eq (CallerPc.waiting.inj hpc).symm
  | changed | ctrlC | call | drained | graceExpires | collect | postCancel | cancelFails | posted
  | allCancelled | windowExpires | join | dispose =>
    exact h.advance rfl rfl (fun _ => id) rfl (fun _ => id) (Nat.le_refl _) rfl
  | callRefused c =>
    exact h.advance rfl rfl (fun _ => id) rfl (List.subset_cons_self _ _) (Nat.le_refl _) rfl
  | send c =>
    exact h.advance rfl rfl (fun _ => id) rfl (fun _ => id) (Nat.le_succ _) rfl
  | takeReceiver c =>
    simp only [Server.effect]
    split
    · split
      · next hrefused =>
        exact h.goto rfl (fun _ => id) (fun _ => inner_leave .panicked) rfl (fun _ => id)
          (Nat.le_refl _) (fun _ _ hpc => by cases hpc) (fun _ => hrefused)
          fun _ hpc => by cases hpc
      · exact h.advance rfl rfl (fun _ => id) rfl (fun _ => id) (Nat.le_refl _) rfl
    · exact h.advance rfl rfl (fun _ => id) rfl (fun _ => id) (Nat.le_refl _) rfl
  | takeHandle c l loops =>
    simp only [Server.effect]
    split
    · exact h.advance rfl rfl (fun _ => id) rfl (fun _ => id) (Nat.le_refl _) rfl
    · exact h.advance rfl rfl (fun _ => id) rfl (fun _ => id) (Nat.le_refl _) rfl
  | tell c l loops =>
    have htold {l' : LoopIndex} (hl' : l' = l ∨ s.threads l' ≠ .running) :
        Function.update s.threads l .told l' ≠ .running := by
      by_cases hl : l' = l
      · simp [hl]
      · simpa [hl] using hl'
    have hcallers : (s.effect (.tell c l loops)).callers =
        Function.update s.callers c (.joining l loops) := rfl
    refine h.goto hcallers (fun l' hl' => htold (.inr hl')) (fun _ => id) rfl (fun _ => id)
      (Nat.le_refl _) (fun l' loops' hpc => ?_) (fun hpc => by cases hpc) fun _ hpc => by cases hpc
    exact htold (.inl (CallerPc.joining.inj hpc).1.symm)
  | joinItself c l loops =>
    simp only [enabled, decide_eq_true_eq, h.free] at henabled
    exact absurd henabled.2.symm (Option.some_ne_none c)
  | stopped c =>
    exact h.advance rfl rfl (fun _ => inner_leave _) rfl (fun _ => id) (Nat.le_refl _) rfl

/-- On every run that keeps clear nothing hinders the calls. -/
theorem unhindered_of_reachesUnder
    (hreach : system.ReachesUnder (fun _ e => keepsClear e = true) s) : Unhindered s := by
  refine hreach.invariant (fun s hs => ?_) fun _ _ h hallowed => h.effect hallowed
  rw [hs.2]
  exact unhindered_start _

/-- The steps that run a server down note no new call down, and no send is undone. -/
theorem exec_windsDown {es : List Event} (hes : ∀ e ∈ es, e.windsDown = true)
    (hexec : system.exec s es = some s') : s'.refused = s.refused ∧ s.version ≤ s'.version := by
  induction es generalizing s with
  | nil =>
    rw [Option.some.inj hexec]
    exact ⟨rfl, Nat.le_refl _⟩
  | cons e es ih =>
    simp only [Transition.System.exec, Option.ite_none_right_eq_some] at hexec
    obtain ⟨hrefused, hversion⟩ := ih (fun e he => hes e (List.mem_cons_of_mem _ he)) hexec.2
    have hown := hes e List.mem_cons_self
    have hstep : (s.effect e).refused = s.refused ∧ s.version ≤ (s.effect e).version := by
      cases e with
      | callRefused => cases hown
      | send => exact ⟨rfl, Nat.le_succ _⟩
      | takeReceiver =>
        simp only [Server.effect]
        split
        · split <;> exact ⟨rfl, Nat.le_refl _⟩
        · exact ⟨rfl, Nat.le_refl _⟩
      | takeHandle =>
        simp only [Server.effect]
        split <;> exact ⟨rfl, Nat.le_refl _⟩
      | _ => exact ⟨rfl, Nat.le_refl _⟩
    exact ⟨hrefused.trans hstep.1, Nat.le_trans hstep.2 hversion⟩

/-- Without the help of clients, handlers and other calls, the call can come to its end, and the
other calls are then where they were. -/
def Ends (c : CallerId) (s : Server) : Prop :=
  system.CanReach (fun e => e.windsDown = true) (fun s' => (s'.callers c).over = true ∧
    ∀ c' ≠ c, s'.callers c' = s.callers c') s

/-- A step of the call or of a loop. -/
theorem Ends.step {e : Event} (h : Ends c (s.effect e)) (hown : e.windsDown = true)
    (hcaller : ∀ c', e.caller = some c' → c' = c) (henabled : s.enabled e = true) : Ends c s := by
  refine Transition.System.CanReach.step e hown henabled
    (Transition.System.CanReach.mono h fun s' hs' => ⟨hs'.1, fun c' hc' => ?_⟩)
  rw [hs'.2 c' hc']
  exact callers_effect fun heq => hc' (hcaller c' heq)

/-- A step of the call itself, by where it comes to. -/
theorem Ends.own {e : Event} (h : Ends c (s.effect e)) (hown : e.windsDown = true)
    (hcaller : e.caller = some c) (henabled : s.enabled e = true) : Ends c s :=
  h.step hown (fun _ hc' => Option.some.inj (hc'.symm.trans hcaller)) henabled

/-- A call that disposes of what is left on a loop comes to its end if it does so with the other
loops. -/
theorem ends_disposing {loops : List LoopIndex} (hpc : s.callers c = .disposing l loops)
    (hfree : ∀ l, s.inner l = none)
    (hnext : ∀ s : Server, s.callers c = .stopping loops → (∀ l, s.inner l = none) → Ends c s) :
    Ends c s := by
  have h : Ends c (s.effect (.dispose c l loops)) := hnext _ (Function.update_self ..) hfree
  exact h.own rfl rfl (by simpa [enabled] using hpc)

/-- A loop that was told to stop ends. -/
theorem ends_joining {loops : List LoopIndex} (hpc : s.callers c = .joining l loops)
    (hthread : s.threads l ≠ .running) (hfree : ∀ l, s.inner l = none)
    (hnext : ∀ s : Server, s.callers c = .stopping loops → (∀ l, s.inner l = none) → Ends c s) :
    Ends c s := by
  have hended : ∀ s : Server, s.callers c = .joining l loops → s.threads l = .ended →
      (∀ l, s.inner l = none) → Ends c s := by
    intro s hpc hthread hfree
    have h : Ends c (s.effect (.join c l loops)) :=
      ends_disposing (Function.update_self ..) hfree hnext
    exact h.own rfl rfl (by simp [enabled, hpc, hthread])
  cases htold : s.threads l with
  | running => exact absurd htold hthread
  | told =>
    have h : Ends c (s.effect (.loopEnds l)) := hended _ hpc (Function.update_self ..) hfree
    exact h.step rfl (fun _ hcaller => by cases hcaller) (by simp [enabled, htold, hfree l])
  | ended => exact hended s hpc htold hfree

/-- A call that tells a loop to stop comes to its end if it does so with the other loops. -/
theorem ends_telling {loops : List LoopIndex} (hpc : s.callers c = .telling l loops)
    (hfree : ∀ l, s.inner l = none)
    (hnext : ∀ s : Server, s.callers c = .stopping loops → (∀ l, s.inner l = none) → Ends c s) :
    Ends c s := by
  have h : Ends c (s.effect (.tell c l loops)) := by
    refine ends_joining (Function.update_self ..) ?_ hfree hnext
    simp [Server.effect]
  exact h.own rfl rfl (by simpa [enabled] using hpc)

/-- The loop of `EventLoopPool::stop`, by induction on the loops that are left. -/
theorem ends_stopping {loops : List LoopIndex} (hpc : s.callers c = .stopping loops)
    (hfree : ∀ l, s.inner l = none) : Ends c s := by
  induction loops generalizing s with
  | nil =>
    have hover : ((s.effect (.stopped c)).callers c).over = true := by
      simp [Server.effect, leave, goto, CallerPc.over]
    have h : Ends c (s.effect (.stopped c)) := .done ⟨hover, fun _ _ => rfl⟩
    exact h.own rfl rfl (by simpa [enabled] using hpc)
  | cons l loops ih =>
    have h : Ends c (s.effect (.takeHandle c l loops)) := by
      simp only [Server.effect]
      split
      · exact ends_telling (Function.update_self ..) hfree fun _ => ih
      · exact ends_disposing (Function.update_self ..) hfree fun _ => ih
    exact h.own rfl rfl (by simpa [enabled] using hpc)

/-- Either the drain has come, or the window can expire. -/
theorem ends_window (hpc : s.callers c = .window) (hfree : ∀ l, s.inner l = none) : Ends c s := by
  by_cases hserve : s.serve = .finished
  · have h : Ends c (s.effect (.drained c)) := ends_stopping (Function.update_self ..) hfree
    exact h.own rfl rfl (by simp [enabled, hpc, hserve])
  · have h : Ends c (s.effect (.windowExpires c)) := ends_stopping (Function.update_self ..) hfree
    exact h.own rfl rfl (by simp [enabled, hpc, hserve])

/-- The loop over the tasks of an event loop in `cancel_in_flight`. -/
theorem ends_posting {tasks : List RequestId} {loops : List LoopIndex}
    (hpc : s.callers c = .posting tasks l loops) (hfree : ∀ l, s.inner l = none)
    (hnext : ∀ s : Server, s.callers c = .cancelling loops → (∀ l, s.inner l = none) → Ends c s) :
    Ends c s := by
  induction tasks generalizing s with
  | nil =>
    have h : Ends c (s.effect (.posted c l loops)) := hnext _ (Function.update_self ..) hfree
    exact h.own rfl rfl (by simpa [enabled] using hpc)
  | cons r tasks ih =>
    have h : Ends c (s.effect (.postCancel c r tasks l loops)) := ih (Function.update_self ..) hfree
    exact h.own rfl rfl (by simpa [enabled] using hpc)

/-- The loop of `EventLoopPool::cancel_in_flight`. -/
theorem ends_cancelling {loops : List LoopIndex} (hpc : s.callers c = .cancelling loops)
    (hfree : ∀ l, s.inner l = none) : Ends c s := by
  induction loops generalizing s with
  | nil =>
    have h : Ends c (s.effect (.allCancelled c)) := ends_window (Function.update_self ..) hfree
    exact h.own rfl rfl (by simpa [enabled] using hpc)
  | cons l loops ih =>
    have h : Ends c (s.effect (.collect c l loops)) :=
      ends_posting (Function.update_self ..) hfree fun _ => ih
    exact h.own rfl rfl (by simpa [enabled] using hpc)

/-- Either the drain has come, or the natural grace period can expire. -/
theorem ends_grace (hpc : s.callers c = .grace) (hfree : ∀ l, s.inner l = none) : Ends c s := by
  by_cases hserve : s.serve = .finished
  · have h : Ends c (s.effect (.drained c)) := ends_stopping (Function.update_self ..) hfree
    exact h.own rfl rfl (by simp [enabled, hpc, hserve])
  · have h : Ends c (s.effect (.graceExpires c)) :=
      ends_cancelling (Function.update_self ..) hfree
    exact h.own rfl rfl (by simp [enabled, hpc, hserve])

/-- A call that takes the receiver and cannot wait unwinds. -/
theorem ends_sent (hpc : s.callers c = .sent) (hfree : ∀ l, s.inner l = none) : Ends c s := by
  have h : Ends c (s.effect (.takeReceiver c)) := by
    simp only [Server.effect]
    split
    · split
      · exact .done ⟨by simp [leave, goto, CallerPc.over], fun _ _ => rfl⟩
      · exact ends_grace (Function.update_self ..) hfree
    · exact ends_stopping (Function.update_self ..) hfree
  exact h.own rfl rfl (by simpa [enabled] using hpc)

/-- A call that has entered comes to its end. -/
theorem ends_entered (hpc : s.callers c = .entered) (hfree : ∀ l, s.inner l = none) :
    Ends c s := by
  have h : Ends c (s.effect (.send c)) := ends_sent (Function.update_self ..) hfree
  exact h.own rfl rfl (by simpa [enabled] using hpc)

/-- A call can come to its end from wherever it is, unless it waits for a send to come. -/
theorem Unhindered.ends (h : Unhindered s) (hpc : ¬ (s.callers c).settled s.version) :
    Ends c s := by
  cases hc : s.callers c with
  | idle => exact absurd (.inl hc) hpc
  | waiting seen =>
    have hseen : seen < s.version := by
      refine Nat.lt_of_le_of_ne (h.seen c seen hc) fun heq => hpc (.inr (.inr ?_))
      rw [hc, heq]
    have h : Ends c (s.effect (.changed c seen)) := ends_entered (Function.update_self ..) h.free
    exact h.own rfl rfl (by simp [enabled, hc, hseen])
  | entered => exact ends_entered hc h.free
  | sent => exact ends_sent hc h.free
  | grace => exact ends_grace hc h.free
  | cancelling loops => exact ends_cancelling hc h.free
  | posting tasks l loops => exact ends_posting hc h.free fun _ => ends_cancelling
  | window => exact ends_window hc h.free
  | stopping loops => exact ends_stopping hc h.free
  | telling l loops => exact ends_telling hc h.free fun _ => ends_stopping
  | joining l loops => exact ends_joining hc (h.told c l loops hc) h.free fun _ => ends_stopping
  | disposing l loops => exact ends_disposing hc h.free fun _ => ends_stopping
  | returned | panicked => exact absurd (.inr (.inl (by rw [hc]; rfl))) hpc

/-- Only finitely many calls have begun. -/
theorem exists_begun (hreach : system.Reaches s) :
    ∃ calls : List CallerId, ∀ c ∉ calls, s.callers c = .idle := by
  refine hreach.invariant (I := fun s => ∃ calls : List CallerId, ∀ c ∉ calls,
    s.callers c = .idle) (fun s hs => ?_) fun s e h _ => ?_
  · rw [hs.2]
    exact ⟨[], fun _ _ => rfl⟩
  · obtain ⟨calls, hcalls⟩ := h
    cases hcaller : e.caller with
    | none =>
      refine ⟨calls, fun c hc => (callers_effect ?_).trans (hcalls c hc)⟩
      simp [hcaller]
    | some c =>
      refine ⟨c :: calls, fun c' hc' => ?_⟩
      rw [List.mem_cons, not_or] at hc'
      refine (callers_effect ?_).trans (hcalls c' hc'.2)
      simp [hcaller, Ne.symm hc'.1]

/-- One call after the other comes to its end, by induction on those that have not. The send of one
of them may wake others. -/
theorem canReach_settled {pending : List CallerId}
    (hreach : system.ReachesUnder (fun _ e => keepsClear e = true) s)
    (hpending : ∀ c ∉ pending, s.callers c = .idle ∨ (s.callers c).over = true) :
    system.CanReach (fun e => e.windsDown = true) (fun s' => ∀ c,
      (s'.callers c).settled s'.version ∧
        (((s'.callers c).over = true ∧ s.callers c ≠ .idle) ∨ s'.callers c = s.callers c)) s := by
  induction hn : pending.length generalizing pending s with
  | zero =>
    rw [List.length_eq_zero_iff.mp hn] at hpending
    refine .done fun c => ⟨?_, .inr rfl⟩
    exact (hpending c List.not_mem_nil).imp_right .inl
  | succ n ih =>
    by_cases hall : ∀ c, (s.callers c).settled s.version
    · exact .done fun c => ⟨hall c, .inr rfl⟩
    · obtain ⟨c, hc⟩ := not_forall.mp hall
      have hends := (unhindered_of_reachesUnder hreach).ends hc
      refine hends.trans hreach (fun _ _ => keepsClear_of_windsDown) fun s₁ hs₁ hover => ?_
      obtain ⟨hover, hothers⟩ := hover
      have hmem : c ∈ pending := by
        by_contra hnot
        exact hc ((hpending c hnot).imp_right .inl)
      have hfewer : (pending.erase c).length = n := by
        rw [List.length_erase_of_mem hmem, hn, Nat.add_sub_cancel]
      refine (ih hs₁ (fun c' hc' => ?_) hfewer).mono fun s₂ hs₂ c' => ⟨(hs₂ c').1, ?_⟩
      all_goals by_cases heq : c' = c
      · exact .inr (heq ▸ hover)
      · rw [hothers c' heq]
        exact hpending c' fun hin => hc' ((List.mem_erase_of_ne heq).mpr hin)
      · subst heq
        have hbegun : s.callers c' ≠ .idle := fun hidle => hc (.inl hidle)
        rcases (hs₂ c').2 with ⟨hkept, -⟩ | hkept
        · exact .inl ⟨hkept, hbegun⟩
        · exact .inl ⟨hkept ▸ hover, hbegun⟩
      · rw [← hothers c' heq]
        exact (hs₂ c').2

/-- A call that is over has returned, or it could not wait. -/
theorem Unhindered.over (h : Unhindered s) (hover : (s.callers c).over = true) :
    s.callers c = .returned ∨ (s.callers c = .panicked ∧ c ∈ s.refused) := by
  cases hpc : s.callers c with
  | returned => exact .inl rfl
  | panicked => exact .inr ⟨rfl, h.panicked c hpc⟩
  | _ => simp [hpc, CallerPc.over] at hover

/-- Where a call is that cannot go on by itself. -/
theorem Unhindered.settled (h : Unhindered s) (hsettled : (s.callers c).settled s.version) :
    s.callers c = .idle ∨ s.callers c = .returned ∨ (s.callers c = .panicked ∧ c ∈ s.refused) ∨
      s.callers c = .waiting s.version := by
  rcases hsettled with hidle | hover | hwaits
  · exact .inl hidle
  · exact .inr ((h.over hover).imp_right .inl)
  · exact .inr (.inr (.inr hwaits))

/-- A server is run down when one call has returned and no call can go on by itself. -/
theorem Unhindered.ranDown (h : Unhindered s) (hwinding : Winding s)
    (hreturned : s.callers c = .returned) (hsettled : ∀ c, (s.callers c).settled s.version) :
    RanDown s := by
  have hothers (c' : CallerId) (hpast : (s.callers c').past = true) :
      s.callers c' = .returned := by
    rcases h.settled (hsettled c') with hc' | hc' | ⟨hc', -⟩ | hc'
    · simp [hc', CallerPc.past] at hpast
    · exact hc'
    · simp [hc', CallerPc.past] at hpast
    · simp [hc', CallerPc.past] at hpast
  have hdown (l : LoopIndex) (hl : l < s.size) : LoopDown s l := by
    refine (hwinding.loopDown hreturned hothers hl).resolve_left ?_
    simp [h.selfJoined]
  refine ⟨fun l hl => (hdown l hl).1, List.eq_nil_iff_forall_not_mem.mpr fun r hr => ?_⟩
  exact (hdown _ (hwinding.home r hr)).2 r hr rfl

end Server

end Rayo
