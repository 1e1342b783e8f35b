import Rayo.Server.Shutdown

/-!
# Waking `wait` up

The watch of `wait` marks the value it finds as seen, so a call that subscribes after the
last send sleeps through the shutdown. `serve` holds its receiver from the start and cannot
miss it. A `wait` that subscribes before any send, or while a send is still to come, is
always woken.
-/

namespace Rayo.Server

/-- What `wait` promises: once `true` has been sent, a parked call can go on, or some call of
`shutdown_impl` is about to send and wakes it by that. -/
def Wakeable (s : Server) : Prop :=
  ∀ c seen, s.callers c = .waiting seen → s.version ≠ 0 →
    s.enabled (.changed c seen) = true ∨
      ∃ d, s.enabled (.send d) = true ∧ (s.effect (.send d)).enabled (.changed c seen) = true

/-- The discipline: `wait` subscribes before any send, or while a send is still to come. -/
def subscribesInTime (s : Server) : Event → Bool
  | .subscribe _ => s.version = 0 ∨ s.senders ≠ []
  | _ => true

/-- `senders` is what it says. -/
def SendersEntered (s : Server) : Prop :=
  ∀ c, c ∈ s.senders ↔ s.callers c = .entered

/-- A parked call has seen what was current when it subscribed, and only missed a send that
is not the last one. -/
def Watched (s : Server) : Prop :=
  ∀ c seen, s.callers c = .waiting seen →
    seen ≤ s.version ∧ (seen = s.version → s.version ≠ 0 → s.senders ≠ [])

variable {s s' : Server} {c : CallerId} {pc : CallerPc}

/-- A caller moves on outside the beginning of `shutdown_impl`. -/
theorem SendersEntered.goto (h : SendersEntered s) (hsenders : s'.senders = s.senders)
    (hcallers : s'.callers = Function.update s.callers c pc) (hpc : pc ≠ .entered)
    (hbefore : s.callers c ≠ .entered) : SendersEntered s' := by
  intro c'
  rw [hsenders, h c', hcallers]
  by_cases hc : c' = c
  · subst hc
    rw [Function.update_self]
    exact iff_of_false hbefore hpc
  · rw [Function.update_of_ne hc]

/-- A caller begins `shutdown_impl`. -/
theorem SendersEntered.enter (h : SendersEntered s) {refused : List CallerId} :
    SendersEntered
      { s.goto c .entered with senders := c :: s.senders, refused := refused } := by
  intro c'
  by_cases hc : c' = c
  · simp [Server.goto, hc]
  · simp [Server.goto, hc, h c']

/-- A call that has sent is no sender any more. -/
theorem SendersEntered.send (h : SendersEntered s) : SendersEntered (s.effect (.send c)) := by
  intro c'
  by_cases hc : c' = c
  · simp [effect, Server.goto, hc]
  · simp [effect, Server.goto, hc, h c']

/-- **One step** keeps `senders` what it says. -/
theorem SendersEntered.effect (h : SendersEntered s) {e : Event} (henabled : s.enabled e = true) :
    SendersEntered (s.effect e) := by
  cases e with
  | changed c seen | ctrlC c seen | call c | callRefused c => exact h.enter
  | send c => exact h.send
  | takeReceiver c =>
    simp only [enabled, decide_eq_true_eq] at henabled
    simp only [Server.effect]
    split
    · split <;> exact h.goto rfl rfl nofun (by simp [henabled])
    · exact h.goto rfl rfl nofun (by simp [henabled])
  | takeHandle c l loops =>
    simp only [enabled, decide_eq_true_eq] at henabled
    simp only [Server.effect]
    split <;> exact h.goto rfl rfl nofun (by simp [henabled])
  | drained c =>
    simp only [enabled, decide_eq_true_eq] at henabled
    exact h.goto rfl rfl nofun (by rcases henabled.1 with hpc | hpc <;> simp [hpc])
  | subscribe | graceExpires | collect | postCancel | cancelFails | posted | allCancelled
  | windowExpires | tell | tellFails | join | joinItself | dispose | stopped =>
    simp only [enabled, decide_eq_true_eq] at henabled
    exact h.goto rfl rfl nofun (by simp [henabled])
  | accept | close | dispatch | leaveAccept | serveFinishes | finish | loopEnds | callsOnLoop =>
    exact h

/-- A call that moves on keeps the watch as long as it has subscribed in time. -/
theorem Watched.goto (h : Watched s) (hversion : s'.version = s.version)
    (hsenders : s.senders ⊆ s'.senders) (hcallers : s'.callers = Function.update s.callers c pc)
    (hpc : ∀ seen, pc = .waiting seen → seen ≤ s.version ∧
      (seen = s.version → s.version ≠ 0 → s.senders ≠ [])) : Watched s' := by
  intro c' seen hc'
  have hold : seen ≤ s.version ∧ (seen = s.version → s.version ≠ 0 → s.senders ≠ []) := by
    by_cases hc : c' = c
    · subst hc
      rw [hcallers, Function.update_self] at hc'
      exact hpc seen hc'
    · rw [hcallers, Function.update_of_ne hc] at hc'
      exact h c' seen hc'
  rw [hversion]
  refine ⟨hold.1, fun heq hne hnil => hold.2 heq hne ?_⟩
  simpa [hnil] using hsenders

/-- A send reaches every call that is parked. -/
theorem Watched.send (h : Watched s) : Watched (s.effect (.send c)) := by
  intro c' seen hc'
  have hlt : seen < s.version + 1 := by
    by_cases hc : c' = c
    · simp [effect, Server.goto, hc] at hc'
    · simp only [effect, Server.goto, Function.update_of_ne hc] at hc'
      exact Nat.lt_succ_of_le (h c' seen hc').1
  exact ⟨Nat.le_of_lt hlt, fun heq => absurd heq (Nat.ne_of_lt hlt)⟩

/-- **One step** in which nobody subscribes too late keeps the watch. -/
theorem Watched.effect (h : Watched s) {e : Event} (hallowed : subscribesInTime s e = true) :
    Watched (s.effect e) := by
  cases e with
  | subscribe c =>
    simp only [subscribesInTime, decide_eq_true_eq] at hallowed
    refine h.goto rfl (List.Subset.refl _) rfl fun seen hseen => ?_
    obtain rfl : s.version = seen := CallerPc.waiting.inj hseen
    exact ⟨Nat.le_refl _, fun _ hne => hallowed.resolve_left hne⟩
  | changed c seen | ctrlC c seen | call c | callRefused c =>
    exact h.goto rfl (List.subset_cons_self _ _) rfl nofun
  | send c => exact h.send
  | takeReceiver c =>
    simp only [Server.effect]
    split
    · split <;> exact h.goto rfl (List.Subset.refl _) rfl nofun
    · exact h.goto rfl (List.Subset.refl _) rfl nofun
  | takeHandle c l loops =>
    simp only [Server.effect]
    split <;> exact h.goto rfl (List.Subset.refl _) rfl nofun
  | drained | graceExpires | collect | postCancel | cancelFails | posted | allCancelled
  | windowExpires | tell | tellFails | join | joinItself | dispose | stopped =>
    exact h.goto rfl (List.Subset.refl _) rfl nofun
  | accept | close | dispatch | leaveAccept | serveFinishes | finish | loopEnds | callsOnLoop =>
    exact h

/-- On every run `senders` is what it says. -/
theorem sendersEntered_of_reaches (hreach : system.Reaches s) : SendersEntered s := by
  refine hreach.invariant (fun s hs => ?_) fun _ _ h henabled => h.effect henabled
  rw [hs.2]
  exact fun _ => by simp [start]

/-- **No lost wake-up** along every run in which `wait` subscribes in time. -/
theorem wakeable_of_subscribesInTime {s : Server}
    (hreach : system.ReachesUnder (fun s e => subscribesInTime s e = true) s) : Wakeable s := by
  have hsenders := sendersEntered_of_reaches hreach.reaches
  have hwatched : Watched s := by
    refine hreach.invariant (fun s hs => ?_) fun _ _ h hallowed _ => h.effect hallowed
    rw [hs.2]
    exact fun _ _ => nofun
  intro c seen hc hsent
  obtain ⟨hle, hcurrent⟩ := hwatched c seen hc
  rcases Nat.lt_or_eq_of_le hle with hlt | heq
  · exact Or.inl (by simp [enabled, hc, hlt])
  · obtain ⟨d, hd⟩ := List.exists_mem_of_ne_nil _ (hcurrent heq hsent)
    have hentered := (hsenders d).mp hd
    have hother : c ≠ d := fun hcd => by simp [← hcd, hc] at hentered
    exact Or.inr ⟨d, by simp [enabled, hentered], by
      simp [enabled, Server.effect, Server.goto, hother, hc, Nat.lt_succ_of_le hle]⟩

/-- Two calls of `shutdown`, between whose sends a `wait` subscribes. -/
def overtakenRun : List Event :=
  [.call 1, .call 2, .send 1, .subscribe 3]

/-- A call that subscribes between two sends is woken by the second one. -/
theorem wakeable_overtakenRun :
    ∃ s : Server, s.callers 3 = .waiting 1 ∧ s.version = 1 ∧
      (s.enabled (.changed 3 1) = true ∨ ∃ d, s.enabled (.send d) = true ∧
        (s.effect (.send d)).enabled (.changed 3 1) = true) := by
  have hexec : ((system.restrict subscribesInTime).exec (start 1) overtakenRun).map (fun s =>
      decide (s.callers 3 = .waiting 1 ∧ s.version = 1)) = some true := by decide
  obtain ⟨s, hs, hend⟩ := system.exists_reachesUnder_of_exec ⟨by decide, rfl⟩ hexec
  obtain ⟨hwaiting, hversion⟩ := of_decide_eq_true hend
  exact ⟨s, hwaiting, hversion, wakeable_of_subscribesInTime hs 3 1 hwaiting (by simp [hversion])⟩

/-- The discipline is exact: a call that subscribes too late is parked for good, as nobody is
about to send. -/
theorem not_wakeable_of_late_subscribe {s : Server} (hreach : system.Reaches s) {c : CallerId}
    (hlate : subscribesInTime s (.subscribe c) = false) :
    ¬ Wakeable (s.effect (.subscribe c)) := by
  obtain ⟨hsent, hnobody⟩ : s.version ≠ 0 ∧ s.senders = [] := by
    simpa [subscribesInTime] using hlate
  intro hwakeable
  have hwaiting : (s.effect (.subscribe c)).callers c = .waiting s.version :=
    Function.update_self _ _ _
  rcases hwakeable c s.version hwaiting hsent with hnow | ⟨d, hd, -⟩
  · simp [enabled, Server.effect, Server.goto] at hnow
  · have hentered : (s.effect (.subscribe c)).callers d = .entered := by
      simpa [enabled] using hd
    have hother : d ≠ c := fun hdc => by simp [hdc, hwaiting] at hentered
    have hmem := (sendersEntered_of_reaches hreach d).mpr
      (by simpa [Server.effect, Server.goto, hother] using hentered)
    simp [hnobody] at hmem

/-- A `shutdown` in the start-up window, before the main thread calls `wait`. -/
def earlyRun : List Event :=
  [.call 1, .send 1, .takeReceiver 1, .leaveAccept, .serveFinishes, .drained 1, .takeHandle 1 0 [],
    .tell 1 0 [], .loopEnds 0, .join 1 0 [], .dispose 1 0 [], .stopped 1]

/-- A `wait` that begins after a complete shutdown is never woken. -/
theorem wait_sleeps_through_shutdown :
    ∃ s : Server, system.Reaches s ∧ ¬ Wakeable s ∧ s.callers 1 = .returned ∧
      s.callers 2 = .waiting 1 ∧ s.version = 1 := by
  have hexec : ((system.restrict fun _ _ => true).exec (start 1) earlyRun).map (fun s =>
      decide (s.callers 1 = .returned ∧ s.callers 2 = .idle ∧ s.version = 1 ∧
        subscribesInTime s (.subscribe 2) = false)) = some true := by decide
  obtain ⟨s, hs, hend⟩ := system.exists_reaches_of_exec ⟨by decide, rfl⟩ hexec
  obtain ⟨hreturned, hidle, hversion, hlate⟩ := of_decide_eq_true hend
  have hsubscribed := hs.step (e := Event.subscribe 2) trivial (by
    simp [system, enabled, hidle])
  exact ⟨_, hsubscribed, not_wakeable_of_late_subscribe hs hlate, by
    simpa [system, Server.effect, Server.goto] using hreturned, by
    simp [system, Server.effect, Server.goto, hversion], hversion⟩

end Rayo.Server
