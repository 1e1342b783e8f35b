import Rayo.Server.Shutdown

/-!
# Stopping a loop with unfinished tasks

A loop is told to stop under an unfinished task only after a whole shutdown sequence has
run for that task. This needs a discipline that the code does not enforce: one caller waits
for all and can do so, a drain is not reported while tasks without a client are unfinished, a
running loop takes every cancellation, and nothing is dispatched on a loop between the
cancellations and the stop.
-/

namespace Rayo.Server

/-- What `shutdown` promises: a loop is told to stop under an unfinished task only when
somebody's natural grace period has expired, that caller has posted a cancellation to the
task, and its window for the drain has expired too. -/
def GraceHonoured (s : Server) : Prop :=
  ∀ c l loops, s.enabled (.tell c l loops) = true → ∀ r ∈ s.live, s.home r = l →
    ∃ c', c' ∈ s.graceExpired ∧ (c', r) ∈ s.cancelled ∧ c' ∈ s.windowExpired

/-- The discipline: nobody finds the receiver taken while its holder still waits, or takes it
without being able to wait. No drain is reported while a task is unfinished, and unless the loop has
been told to stop, no cancellation is refused, and no request is dispatched on a loop whose tasks
have been collected for cancellation. -/
def oneWaitsForAll (s : Server) : Event → Bool
  | .takeReceiver c => (s.receiver = .slot ∧ c ∉ s.refused) ∨ s.receiver = .dropped
  | .drained _ => s.live = []
  | .dispatch _ _ l => l ∉ s.snapshots ∨ s.threads l ≠ .running
  | .cancelFails _ _ _ l _ => s.threads l ≠ .running
  | _ => true

/-- Apart from `tasks`, `c` has posted cancellations to all tasks of a loop that can still be
told to stop. -/
structure Covered (s : Server) (c : CallerId) (tasks : List RequestId) (l : LoopIndex) : Prop where
  snapshot : l ∈ s.snapshots
  cancelled : s.threads l = .running → ∀ r ∈ s.live, s.home r = l →
    r ∈ tasks ∨ (c, r) ∈ s.cancelled

/-- How far a caller has got with the cancellations. -/
def Progress (s : Server) (c : CallerId) : CallerPc → Prop
  | .cancelling loops => c ∈ s.graceExpired ∧ ∀ l < s.size, l ∉ loops → Covered s c [] l
  | .posting tasks l loops => c ∈ s.graceExpired ∧ Covered s c tasks l ∧
      ∀ l' < s.size, l' ≠ l → l' ∉ loops → Covered s c [] l'
  | .window => c ∈ s.graceExpired ∧ ∀ l < s.size, Covered s c [] l
  | _ => True

/-- The waits are over: everything is drained, or every task has been cancelled in time. -/
def Settled (s : Server) : Prop :=
  (s.serve = .finished ∧ s.live = []) ∨
    ∃ c, c ∈ s.graceExpired ∧ c ∈ s.windowExpired ∧ ∀ l < s.size, Covered s c [] l

/-- The invariant of disciplined runs. -/
structure Graceful (s : Server) : Prop where
  drained : s.serve = .finished → s.connections = []
  registered : ∀ r ∈ s.live, r ∈ s.dispatched ∧ s.home r < s.size
  holds : ∀ c, (s.callers c).holds = true → s.receiver = .heldBy c
  past : ∀ c, (s.callers c).past = true → s.receiver = .dropped
  progress : ∀ c, Progress s c (s.callers c)
  settled : s.receiver = .dropped → Settled s

/-- A step that undoes none of the waiting and cancelling. -/
structure Fades (s s' : Server) : Prop where
  size : s'.size = s.size
  graceExpired : s.graceExpired ⊆ s'.graceExpired
  windowExpired : s.windowExpired ⊆ s'.windowExpired
  snapshots : s.snapshots ⊆ s'.snapshots
  cancelled : s.cancelled ⊆ s'.cancelled
  running : ∀ l, s'.threads l = .running → s.threads l = .running
  live : ∀ l ∈ s.snapshots, s'.threads l = .running → ∀ r ∈ s'.live, s'.home r = l →
    r ∈ s.live ∧ s.home r = l
  quiet : s.serve = .finished → s.live = [] → s'.serve = .finished ∧ s'.live = []

variable {s s' : Server} {c : CallerId} {l : LoopIndex}

/-- Only what the waiting and cancelling depends on matters. -/
theorem Fades.of_eq (hsize : s'.size = s.size) (hgrace : s.graceExpired ⊆ s'.graceExpired)
    (hwindow : s.windowExpired ⊆ s'.windowExpired) (hsnapshots : s.snapshots ⊆ s'.snapshots)
    (hcancelled : s.cancelled ⊆ s'.cancelled)
    (hrunning : ∀ l, s'.threads l = .running → s.threads l = .running)
    (hlive : s'.live ⊆ s.live) (hhome : s'.home = s.home)
    (hserve : s.serve = .finished → s'.serve = .finished) : Fades s s' where
  size := hsize
  graceExpired := hgrace
  windowExpired := hwindow
  snapshots := hsnapshots
  cancelled := hcancelled
  running := hrunning
  live _ _ _ r hr hl := ⟨hlive hr, hhome ▸ hl⟩
  quiet hfinished hempty := ⟨hserve hfinished, by simpa [hempty] using hlive⟩

/-- What has been cancelled stays so over a step that undoes nothing. -/
theorem Fades.covered (h : Fades s s') {tasks : List RequestId} (hcovered : Covered s c tasks l) :
    Covered s' c tasks l where
  snapshot := h.snapshots hcovered.snapshot
  cancelled hrunning r hr hl := by
    obtain ⟨hr, hl⟩ := h.live l hcovered.snapshot hrunning r hr hl
    exact (hcovered.cancelled (h.running l hrunning) r hr hl).imp_right (h.cancelled ·)

/-- A caller has got as far as before after a step that undoes nothing. -/
theorem Fades.progress (h : Fades s s') {pc : CallerPc} (hprogress : Progress s c pc) :
    Progress s' c pc := by
  cases pc with
  | cancelling loops =>
    exact ⟨h.graceExpired hprogress.1, fun l hl hnot =>
      h.covered (hprogress.2 l (h.size ▸ hl) hnot)⟩
  | posting tasks l loops =>
    exact ⟨h.graceExpired hprogress.1, h.covered hprogress.2.1, fun l' hl hne hnot =>
      h.covered (hprogress.2.2 l' (h.size ▸ hl) hne hnot)⟩
  | window =>
    exact ⟨h.graceExpired hprogress.1, fun l hl => h.covered (hprogress.2 l (h.size ▸ hl))⟩
  | _ => trivial

/-- The waits are over still after a step that undoes nothing. -/
theorem Fades.settled (h : Fades s s') (hsettled : Settled s) : Settled s' := by
  rcases hsettled with ⟨hserve, hlive⟩ | ⟨c, hgrace, hwindow, hcovered⟩
  · exact Or.inl (h.quiet hserve hlive)
  · exact Or.inr ⟨c, h.graceExpired hgrace, h.windowExpired hwindow, fun l hl =>
      h.covered (hcovered l (h.size ▸ hl))⟩

/-- One caller moves, and the receiver perhaps with it. -/
theorem Graceful.move (h : Graceful s) (hfades : Fades s s')
    (hdrained : s'.serve = .finished → s'.connections = [])
    (hregistered : ∀ r ∈ s'.live, r ∈ s'.dispatched ∧ s'.home r < s'.size)
    (hothers : ∀ c', c' ≠ c → s'.callers c' = s.callers c')
    (hkept : ∀ c', c' ≠ c → s.receiver = .heldBy c' → s'.receiver = .heldBy c')
    (hdropped : s.receiver = .dropped → s'.receiver = .dropped)
    (hholds : (s'.callers c).holds = true → s'.receiver = .heldBy c)
    (hpast : (s'.callers c).past = true → s'.receiver = .dropped)
    (hprogress : Progress s' c (s'.callers c))
    (hsettled : s.receiver ≠ .dropped → s'.receiver = .dropped → Settled s') : Graceful s' where
  drained := hdrained
  registered := hregistered
  holds c' hc' := by
    by_cases hc : c' = c
    · subst hc
      exact hholds hc'
    · rw [hothers c' hc] at hc'
      exact hkept c' hc (h.holds c' hc')
  past c' hc' := by
    by_cases hc : c' = c
    · subst hc
      exact hpast hc'
    · rw [hothers c' hc] at hc'
      exact hdropped (h.past c' hc')
  progress c' := by
    by_cases hc : c' = c
    · subst hc
      exact hprogress
    · rw [hothers c' hc]
      exact hfades.progress (h.progress c')
  settled hnow := by
    by_cases hbefore : s.receiver = .dropped
    · exact hfades.settled (h.settled hbefore)
    · exact hsettled hbefore hnow

/-- No caller moves. -/
theorem Graceful.world (h : Graceful s) (hfades : Fades s s')
    (hdrained : s'.serve = .finished → s'.connections = [])
    (hregistered : ∀ r ∈ s'.live, r ∈ s'.dispatched ∧ s'.home r < s'.size)
    (hcallers : s'.callers = s.callers) (hreceiver : s'.receiver = s.receiver) : Graceful s' :=
  h.move (c := 0) hfades hdrained hregistered (fun _ _ => by rw [hcallers])
    (fun _ _ => hreceiver.trans) hreceiver.trans
    (fun hc => hreceiver.trans (h.holds 0 (hcallers ▸ hc)))
    (fun hc => hreceiver.trans (h.past 0 (hcallers ▸ hc)))
    (hfades.progress (hcallers ▸ h.progress 0))
    fun hne heq => absurd (hreceiver ▸ heq) hne

/-- One caller moves on without the receiver moving. -/
theorem Graceful.goto (h : Graceful s) (hfades : Fades s s') {pc : CallerPc}
    (hserve : s'.serve = s.serve) (hconnections : s'.connections = s.connections)
    (hlive : s'.live ⊆ s.live) (hdispatched : s'.dispatched = s.dispatched)
    (hhome : s'.home = s.home) (hcallers : s'.callers = Function.update s.callers c pc)
    (hreceiver : s'.receiver = s.receiver)
    (hholds : pc.holds = true → (s.callers c).holds = true)
    (hpast : pc.past = true → s.receiver = .dropped) (hprogress : Progress s' c pc) :
    Graceful s' := by
  have hself : s'.callers c = pc := by rw [hcallers, Function.update_self]
  refine h.move (c := c) hfades (fun hfinished => ?_) (fun r hr => ?_) (fun c' hc => ?_)
    (fun _ _ => hreceiver.trans) hreceiver.trans (fun hpc => ?_) (fun hpc => ?_) (hself ▸ hprogress)
    fun hne heq => absurd (hreceiver ▸ heq) hne
  · rw [hconnections]
    exact h.drained (hserve ▸ hfinished)
  · rw [hdispatched, hhome, hfades.size]
    exact h.registered r (hlive hr)
  · rw [hcallers, Function.update_of_ne hc]
  · exact hreceiver.trans (h.holds c (hholds (hself ▸ hpc)))
  · exact hreceiver.trans (hpast (hself ▸ hpc))

/-- The holder of the receiver is done with its waits. -/
theorem Graceful.gotoStop (h : Graceful s) (hfades : Fades s s')
    (hserve : s'.serve = s.serve) (hconnections : s'.connections = s.connections)
    (hlive : s'.live = s.live) (hdispatched : s'.dispatched = s.dispatched)
    (hhome : s'.home = s.home)
    (hcallers : s'.callers = Function.update s.callers c (.stopping (List.range s.size)))
    (hreceiver : s'.receiver = .dropped) (hholds : (s.callers c).holds = true)
    (hsettled : Settled s') : Graceful s' := by
  have hself : s'.callers c = .stopping (List.range s.size) := by
    rw [hcallers, Function.update_self]
  refine h.move (c := c) hfades (fun hfinished => ?_) (fun r hr => ?_) (fun c' hc => ?_)
    (fun c' hc hheld => ?_) (fun _ => hreceiver) (fun hpc => ?_) (fun _ => hreceiver) ?_
    fun _ _ => hsettled
  · rw [hconnections]
    exact h.drained (hserve ▸ hfinished)
  · rw [hdispatched, hhome, hfades.size]
    exact h.registered r (hlive ▸ hr)
  · rw [hcallers, Function.update_of_ne hc]
  · have hsame := (h.holds c hholds).symm.trans hheld
    exact absurd (ReceiverPlace.heldBy.inj hsame).symm hc
  · rw [hself] at hpc
    cases hpc
  · rw [hself]
    trivial

/-- A server that has just been started is graceful. -/
theorem graceful_start (size : ℕ) : Graceful (start size) where
  drained := nofun
  registered := nofun
  holds _ := nofun
  past _ := nofun
  progress _ := trivial
  settled := nofun

/-- A request that is dispatched before the cancellations keeps a run graceful. -/
theorem Graceful.dispatch (h : Graceful s) {r : RequestId} {k : ConnectionId}
    (hallowed : oneWaitsForAll s (.dispatch r k l) = true)
    (henabled : s.enabled (.dispatch r k l) = true) : Graceful (s.effect (.dispatch r k l)) := by
  simp only [oneWaitsForAll, decide_eq_true_eq] at hallowed
  simp only [enabled, decide_eq_true_eq] at henabled
  obtain ⟨hopen, hfresh, hsize, -⟩ := henabled
  have hother {r' : RequestId} (hr' : r' ∈ s.live) : r' ≠ r := fun heq =>
    hfresh (heq ▸ (h.registered r' hr').1)
  refine h.world ⟨rfl, fun _ => id, fun _ => id, fun _ => id, fun _ => id, fun _ => id,
    fun l' hl' hrunning r' hr' hhome => ?_, fun hserve => ?_⟩ h.drained (fun r' hr' => ?_) rfl rfl
  · rcases List.mem_cons.mp hr' with rfl | hr'
    · obtain rfl : l = l' := by simpa [effect] using hhome
      exact absurd hallowed (by simp only [not_or, not_not]; exact ⟨hl', hrunning⟩)
    · exact ⟨hr', by simpa [effect, hother hr'] using hhome⟩
  · rw [h.drained hserve] at hopen
    cases hopen
  · rcases List.mem_cons.mp hr' with rfl | hr'
    · exact ⟨List.mem_cons_self, by simpa [effect] using hsize⟩
    · obtain ⟨hold, hbound⟩ := h.registered r' hr'
      exact ⟨List.mem_cons_of_mem _ hold, by simpa [effect, hother hr'] using hbound⟩

/-- A caller who takes the receiver, or finds it after its holder, keeps a run graceful. -/
theorem Graceful.takeReceiver (h : Graceful s)
    (hallowed : oneWaitsForAll s (.takeReceiver c) = true) :
    Graceful (s.effect (.takeReceiver c)) := by
  simp only [oneWaitsForAll, decide_eq_true_eq] at hallowed
  by_cases hslot : s.receiver = .slot
  · have hconverts : c ∉ s.refused := by simpa [hslot] using hallowed
    have heq : s.effect (.takeReceiver c) = { s.goto c .grace with receiver := .heldBy c } := by
      simp only [effect, hslot, hconverts, if_true, if_false]
    rw [heq]
    refine h.move (c := c) (.of_eq rfl (fun _ => id) (fun _ => id) (fun _ => id) (fun _ => id)
      (fun _ => id) (fun _ => id) rfl id) h.drained h.registered
      (fun c' hc => Function.update_of_ne hc _ _) (fun c' _ hheld => ?_) (fun hdropped => ?_)
      (fun _ => rfl) (fun hpast => ?_) ?_ (fun _ hdropped => ?_)
    · simp [hslot] at hheld
    · simp [hslot] at hdropped
    · simp [Server.goto, CallerPc.past] at hpast
    · simp [Server.goto, Progress]
    · simp at hdropped
  · have heq : s.effect (.takeReceiver c) = s.goto c (.stopping (List.range s.size)) := by
      simp only [effect, hslot, if_false]
    rw [heq]
    exact h.goto (.of_eq rfl (fun _ => id) (fun _ => id) (fun _ => id) (fun _ => id)
      (fun _ => id) (fun _ => id) rfl id) rfl rfl (fun _ => id) rfl rfl rfl rfl nofun
      (fun _ => hallowed.resolve_left fun hboth => hslot hboth.1) trivial

/-- A caller who collects the tasks of a loop has still to cancel all of them. -/
theorem Graceful.collect (h : Graceful s) {loops : List LoopIndex}
    (hpc : s.callers c = .cancelling (l :: loops)) : Graceful (s.effect (.collect c l loops)) := by
  have hfades : Fades s (s.effect (.collect c l loops)) :=
    .of_eq rfl (fun _ => id) (fun _ => id) (List.subset_cons_self l _) (fun _ => id) (fun _ => id)
      (fun _ => id) rfl id
  have hprogress := hfades.progress (hpc ▸ h.progress c)
  refine h.goto hfades rfl rfl (fun _ => id) rfl rfl rfl rfl (fun _ => by rw [hpc]; rfl) nofun
    ⟨hprogress.1, ⟨List.mem_cons_self, fun _ r hr hl => ?_⟩, fun l' hl' hne hnot => ?_⟩
  · exact Or.inl (List.mem_filter.mpr ⟨hr, by simpa using! hl⟩)
  · exact hprogress.2 l' hl' (by simp [hne, hnot])

/-- A cancellation that is posted leaves the other tasks to cancel. -/
theorem Graceful.postCancel (h : Graceful s) {r : RequestId} {tasks : List RequestId}
    {loops : List LoopIndex} (hpc : s.callers c = .posting (r :: tasks) l loops) :
    Graceful (s.effect (.postCancel c r tasks l loops)) := by
  have hfades : Fades s (s.effect (.postCancel c r tasks l loops)) :=
    .of_eq rfl (fun _ => id) (fun _ => id) (fun _ => id) (List.subset_cons_self _ _) (fun _ => id)
      (fun _ => id) rfl id
  have hprogress := hfades.progress (hpc ▸ h.progress c)
  refine h.goto hfades rfl rfl (fun _ => id) rfl rfl rfl rfl (fun _ => by rw [hpc]; rfl) nofun
    ⟨hprogress.1, ⟨hprogress.2.1.snapshot, fun hrunning r' hr' hl => ?_⟩, hprogress.2.2⟩
  rcases hprogress.2.1.cancelled hrunning r' hr' hl with hmem | hposted
  · rcases List.mem_cons.mp hmem with rfl | hmem
    · exact Or.inr List.mem_cons_self
    · exact Or.inl hmem
  · exact Or.inr hposted

/-- A loop that is not running any more need not take a cancellation. -/
theorem Graceful.cancelFails (h : Graceful s) {r : RequestId} {tasks : List RequestId}
    {loops : List LoopIndex} (hallowed : oneWaitsForAll s (.cancelFails c r tasks l loops) = true)
    (hpc : s.callers c = .posting (r :: tasks) l loops) :
    Graceful (s.effect (.cancelFails c r tasks l loops)) := by
  have hstopped : s.threads l ≠ .running := by simpa [oneWaitsForAll] using hallowed
  have hfades : Fades s (s.effect (.cancelFails c r tasks l loops)) :=
    .of_eq rfl (fun _ => id) (fun _ => id) (fun _ => id) (fun _ => id) (fun _ => id)
      (fun _ => id) rfl id
  have hprogress := hfades.progress (hpc ▸ h.progress c)
  exact h.goto hfades rfl rfl (fun _ => id) rfl rfl rfl rfl (fun _ => by rw [hpc]; rfl) nofun
    ⟨hprogress.1, ⟨hprogress.2.1.snapshot, fun hrunning => absurd hrunning hstopped⟩,
      hprogress.2.2⟩

/-- A caller who has posted the last cancellation of a loop has covered that loop. -/
theorem Graceful.posted (h : Graceful s) {loops : List LoopIndex}
    (hpc : s.callers c = .posting [] l loops) : Graceful (s.effect (.posted c l loops)) := by
  have hfades : Fades s (s.effect (.posted c l loops)) :=
    .of_eq rfl (fun _ => id) (fun _ => id) (fun _ => id) (fun _ => id) (fun _ => id)
      (fun _ => id) rfl id
  have hprogress := hfades.progress (hpc ▸ h.progress c)
  refine h.goto hfades rfl rfl (fun _ => id) rfl rfl rfl rfl (fun _ => by rw [hpc]; rfl) nofun
    ⟨hprogress.1, fun l' hl' hnot => ?_⟩
  by_cases hl : l' = l
  · subst hl
    exact hprogress.2.1
  · exact hprogress.2.2 l' hl' hl hnot

/-- A caller goes on, and nothing that the invariant depends on changes with it. -/
theorem Graceful.advance (h : Graceful s) {pc : CallerPc} {version : ℕ} {senders : List CallerId}
    {refused : List CallerId} {inner : LoopIndex → Option CallerId} {selfJoined : List LoopIndex}
    {handles : LoopIndex → Bool} (hholds : pc.holds = true → (s.callers c).holds = true)
    (hpast : pc.past = true → (s.callers c).past = true)
    (hprogress : Progress s c (s.callers c) → Progress s c pc) :
    Graceful { s.goto c pc with
      version := version, senders := senders, refused := refused, inner := inner
      selfJoined := selfJoined, handles := handles } := by
  have hfades : Fades s { s.goto c pc with
      version := version, senders := senders, refused := refused, inner := inner
      selfJoined := selfJoined, handles := handles } :=
    .of_eq rfl (fun _ => id) (fun _ => id) (fun _ => id) (fun _ => id) (fun _ => id)
      (fun _ => id) rfl id
  exact h.goto hfades rfl rfl (fun _ => id) rfl rfl rfl rfl hholds
    (fun hpc => h.past c (hpast hpc)) (hfades.progress (hprogress (h.progress c)))

/-- **One step.** -/
theorem Graceful.effect (h : Graceful s) {e : Event} (hallowed : oneWaitsForAll s e = true)
    (henabled : s.enabled e = true) : Graceful (s.effect e) := by
  cases e with
  | dispatch r k l => exact h.dispatch hallowed henabled
  | takeReceiver c => exact h.takeReceiver hallowed
  | collect c l loops => exact h.collect (by simpa [enabled] using henabled)
  | postCancel c r tasks l loops => exact h.postCancel (by simpa [enabled] using henabled)
  | cancelFails c r tasks l loops =>
    exact h.cancelFails hallowed (by simpa [enabled] using henabled)
  | posted c l loops => exact h.posted (by simpa [enabled] using henabled)
  | accept k =>
    have haccepting : s.serve = .accepting := by
      simp only [enabled, decide_eq_true_eq] at henabled
      exact henabled.1
    refine h.world (.of_eq rfl (fun _ => id) (fun _ => id) (fun _ => id) (fun _ => id)
      (fun _ => id) (fun _ => id) rfl id) (fun hfinished => ?_) h.registered rfl rfl
    exact absurd (haccepting.symm.trans hfinished) (by simp)
  | close k =>
    refine h.world (.of_eq rfl (fun _ => id) (fun _ => id) (fun _ => id) (fun _ => id)
      (fun _ => id) (fun _ => id) rfl id) (fun hfinished => ?_) h.registered rfl rfl
    simp [Server.effect, h.drained hfinished]
  | leaveAccept =>
    have haccepting : s.serve = .accepting := by
      simp only [enabled, decide_eq_true_eq] at henabled
      exact henabled.1
    refine h.world (.of_eq rfl (fun _ => id) (fun _ => id) (fun _ => id) (fun _ => id)
      (fun _ => id) (fun _ => id) rfl fun hfinished => ?_) nofun h.registered rfl rfl
    exact absurd (haccepting.symm.trans hfinished) (by simp)
  | serveFinishes =>
    simp only [enabled, decide_eq_true_eq] at henabled
    exact h.world (.of_eq rfl (fun _ => id) (fun _ => id) (fun _ => id) (fun _ => id)
      (fun _ => id) (fun _ => id) rfl fun _ => rfl) (fun _ => henabled.2) h.registered rfl rfl
  | finish r =>
    exact h.world (.of_eq rfl (fun _ => id) (fun _ => id) (fun _ => id) (fun _ => id)
      (fun _ => id) (List.filter_subset_self _) rfl id) h.drained
      (fun r' hr' => h.registered r' (List.mem_of_mem_filter hr')) rfl rfl
  | loopEnds l =>
    refine h.world (.of_eq rfl (fun _ => id) (fun _ => id) (fun _ => id) (fun _ => id)
      (fun l' hrunning => ?_) (fun _ => id) rfl id) h.drained h.registered rfl rfl
    by_cases hl : l' = l
    · simp [Server.effect, hl] at hrunning
    · simpa [Server.effect, hl] using hrunning
  | callsOnLoop l c =>
    exact h.world (.of_eq rfl (fun _ => id) (fun _ => id) (fun _ => id) (fun _ => id)
      (fun _ => id) (fun _ => id) rfl id) h.drained h.registered rfl rfl
  | subscribe c => exact h.advance nofun nofun fun _ => trivial
  | changed c seen | ctrlC c seen => exact h.advance nofun nofun fun _ => trivial
  | call c | callRefused c => exact h.advance nofun nofun fun _ => trivial
  | send c => exact h.advance nofun nofun fun _ => trivial
  | drained c =>
    simp only [enabled, decide_eq_true_eq] at henabled
    simp only [oneWaitsForAll, decide_eq_true_eq] at hallowed
    have hholds : (s.callers c).holds = true := by
      rcases henabled.1 with hpc | hpc <;> rw [hpc] <;> rfl
    exact h.gotoStop (.of_eq rfl (fun _ => id) (fun _ => id) (fun _ => id) (fun _ => id)
      (fun _ => id) (fun _ => id) rfl id) rfl rfl rfl rfl rfl rfl rfl hholds
      (Or.inl ⟨henabled.2, hallowed⟩)
  | graceExpires c =>
    simp only [enabled, decide_eq_true_eq] at henabled
    have hfades : Fades s (s.effect (.graceExpires c)) :=
      .of_eq rfl (List.subset_cons_self _ _) (fun _ => id) (fun _ => id) (fun _ => id)
        (fun _ => id) (fun _ => id) rfl id
    exact h.goto hfades rfl rfl (fun _ => id) rfl rfl rfl rfl (fun _ => by rw [henabled.1]; rfl)
      nofun ⟨List.mem_cons_self, fun l hl hnot => absurd (List.mem_range.mpr hl) hnot⟩
  | allCancelled c =>
    have hpc : s.callers c = .cancelling [] := by simpa [enabled] using henabled
    refine h.advance (fun _ => by rw [hpc]; rfl) nofun fun hprogress => ?_
    rw [hpc] at hprogress
    exact ⟨hprogress.1, fun l hl => hprogress.2 l hl (by simp)⟩
  | windowExpires c =>
    simp only [enabled, decide_eq_true_eq] at henabled
    have hprogress := h.progress c
    rw [henabled.1] at hprogress
    have hfades : Fades s (s.effect (.windowExpires c)) :=
      .of_eq rfl (fun _ => id) (List.subset_cons_self _ _) (fun _ => id) (fun _ => id)
        (fun _ => id) (fun _ => id) rfl id
    exact h.gotoStop hfades rfl rfl rfl rfl rfl rfl rfl (by rw [henabled.1]; rfl)
      (Or.inr ⟨c, hprogress.1, List.mem_cons_self, fun l hl => hfades.covered (hprogress.2 l hl)⟩)
  | takeHandle c l loops =>
    have hpc : s.callers c = .stopping (l :: loops) := by simpa [enabled] using henabled
    have hpast : (s.callers c).past = true := by rw [hpc]; rfl
    simp only [Server.effect]
    split
    · exact h.advance nofun (fun _ => hpast) fun _ => trivial
    · exact h.advance nofun (fun _ => hpast) fun _ => trivial
  | tell c l loops =>
    have hpc : s.callers c = .telling l loops := by simpa [enabled] using henabled
    refine h.goto (.of_eq rfl (fun _ => id) (fun _ => id) (fun _ => id) (fun _ => id)
      (fun l' hrunning => ?_) (fun _ => id) rfl id) rfl rfl (fun _ => id) rfl rfl rfl rfl nofun
      (fun _ => h.past c (by rw [hpc]; rfl)) trivial
    by_cases hl : l' = l
    · simp [Server.effect, hl] at hrunning
    · simpa [Server.effect, Server.goto, hl] using hrunning
  | tellFails c l loops =>
    have hpc : s.callers c = .telling l loops := by simpa [enabled] using henabled
    exact h.advance nofun (fun _ => by rw [hpc]; rfl) fun _ => trivial
  | join c l loops =>
    simp only [enabled, decide_eq_true_eq] at henabled
    exact h.advance nofun (fun _ => by rw [henabled.1]; rfl) fun _ => trivial
  | joinItself c l loops => exact h.advance nofun nofun fun _ => trivial
  | dispose c l loops =>
    have hpc : s.callers c = .disposing l loops := by simpa [enabled] using henabled
    exact h.goto (.of_eq rfl (fun _ => id) (fun _ => id) (fun _ => id) (fun _ => id)
      (fun _ => id) (List.filter_subset_self _) rfl id) rfl rfl (List.filter_subset_self _) rfl rfl
      rfl rfl nofun (fun _ => h.past c (by rw [hpc]; rfl)) trivial
  | stopped c =>
    have hpc : s.callers c = .stopping [] := by simpa [enabled] using henabled
    exact h.advance nofun (fun _ => by rw [hpc]; rfl) fun _ => trivial

/-- Whoever is about to tell a loop to stop has its join handle, and nobody has told it yet. -/
structure OneTeller (s : Server) : Prop where
  running : ∀ l, s.handles l = true → s.threads l = .running
  telling : ∀ c l loops, s.callers c = .telling l loops →
    s.handles l = false ∧ s.threads l = .running
  unique : ∀ c c' l loops loops', s.callers c = .telling l loops →
    s.callers c' = .telling l loops' → c = c'

/-- A loop is told once as long as handles, threads and tellers stay. -/
theorem OneTeller.of_eq (h : OneTeller s) (hhandles : s'.handles = s.handles)
    (hthreads : s'.threads = s.threads)
    (hcallers : ∀ c l loops, s'.callers c = .telling l loops → s.callers c = .telling l loops) :
    OneTeller s' where
  running := by rw [hhandles, hthreads]; exact h.running
  telling c l loops hc := by
    rw [hhandles, hthreads]
    exact h.telling c l loops (hcallers c l loops hc)
  unique c c' l loops loops' hc hc' :=
    h.unique c c' l loops loops' (hcallers c l loops hc) (hcallers c' l loops' hc')

/-- A caller that goes elsewhere tells no loop. -/
theorem OneTeller.goto (h : OneTeller s) {pc : CallerPc} (hhandles : s'.handles = s.handles)
    (hthreads : s'.threads = s.threads) (hcallers : s'.callers = Function.update s.callers c pc)
    (hpc : ∀ l loops, pc ≠ .telling l loops) : OneTeller s' := by
  refine h.of_eq hhandles hthreads fun c' l loops hc' => ?_
  by_cases hc : c' = c
  · subst hc
    rw [hcallers, Function.update_self] at hc'
    exact absurd hc' (hpc l loops)
  · rwa [hcallers, Function.update_of_ne hc] at hc'

/-- Whoever takes the join handle is the only one to tell the loop. -/
theorem OneTeller.takeHandle (h : OneTeller s) {loops : List LoopIndex}
    (hhandle : s.handles l = true) :
    OneTeller
      { s.goto c (.telling l loops) with handles := Function.update s.handles l false } := by
  have hcase {c' l' loops'} (hc' : (s.goto c (.telling l loops)).callers c' = .telling l' loops') :
      (c' = c ∧ l' = l) ∨ (c' ≠ c ∧ l' ≠ l ∧ s.callers c' = .telling l' loops') := by
    by_cases hc : c' = c
    · subst hc
      simp only [Server.goto, Function.update_self, CallerPc.telling.injEq] at hc'
      exact Or.inl ⟨rfl, hc'.1.symm⟩
    · simp only [Server.goto, Function.update_of_ne hc] at hc'
      refine Or.inr ⟨hc, fun hl => ?_, hc'⟩
      have hnot := (h.telling c' l' loops' hc').1
      simp [hl, hhandle] at hnot
  refine ⟨fun l' hl' => ?_, fun c' l' loops' hc' => ?_, fun c₁ c₂ l' _ _ h₁ h₂ => ?_⟩
  · by_cases hl : l' = l
    · simp [hl] at hl'
    · exact h.running l' (by simpa [hl] using hl')
  · rcases hcase hc' with ⟨-, rfl⟩ | ⟨-, hl, hold⟩
    · exact ⟨Function.update_self _ _ _, h.running l' hhandle⟩
    · exact ⟨by simpa [hl] using (h.telling c' l' loops' hold).1, (h.telling c' l' loops' hold).2⟩
  · rcases hcase h₁ with ⟨rfl, hl⟩ | ⟨-, hl, hold⟩ <;>
      rcases hcase h₂ with ⟨hc₂, hl₂⟩ | ⟨-, hl₂, hold₂⟩
    · exact hc₂.symm
    · exact absurd hl hl₂
    · exact absurd hl₂ hl
    · exact h.unique c₁ c₂ l' _ _ hold hold₂

/-- A loop that is already running down moves on. -/
theorem OneTeller.thread (h : OneTeller s) {thread : LoopThread}
    (hhandle : s.handles l = false) (hfree : ∀ c l' loops, s'.callers c = .telling l' loops →
      s.callers c = .telling l' loops ∧ l' ≠ l) (hhandles : s'.handles = s.handles)
    (hthreads : s'.threads = Function.update s.threads l thread) : OneTeller s' where
  running l' hl' := by
    rw [hhandles] at hl'
    have hl : l' ≠ l := fun heq => by simp [heq, hhandle] at hl'
    rw [hthreads, Function.update_of_ne hl]
    exact h.running l' hl'
  telling c l' loops hc := by
    obtain ⟨hold, hl⟩ := hfree c l' loops hc
    rw [hhandles, hthreads, Function.update_of_ne hl]
    exact h.telling c l' loops hold
  unique c c' l' loops loops' hc hc' :=
    h.unique c c' l' loops loops' (hfree c l' loops hc).1 (hfree c' l' loops' hc').1

/-- **One step** keeps the tellers apart. -/
theorem OneTeller.effect (h : OneTeller s) {e : Event} (henabled : s.enabled e = true) :
    OneTeller (s.effect e) := by
  cases e with
  | takeHandle c l loops =>
    simp only [Server.effect]
    split
    · next hhandle => exact h.takeHandle hhandle
    · exact h.goto rfl rfl rfl nofun
  | tell c l loops =>
    have hpc : s.callers c = .telling l loops := by simpa [enabled] using henabled
    refine h.thread (l := l) (h.telling c l loops hpc).1 (fun c' l' loops' hc' => ?_) rfl rfl
    by_cases hc : c' = c
    · simp [Server.effect, Server.goto, hc] at hc'
    · simp only [Server.effect, Server.goto, Function.update_of_ne hc] at hc'
      refine ⟨hc', fun hl => hc ?_⟩
      subst hl
      exact h.unique c' c l' _ _ hc' hpc
  | loopEnds l =>
    have hboth : s.threads l = .told ∧ s.inner l = none := by simpa [enabled] using henabled
    have htold := hboth.1
    refine h.thread (l := l) ?_ (fun c l' loops hc => ⟨hc, fun hl => ?_⟩) rfl rfl
    · by_contra hhandle
      have hrunning := h.running l (by simpa using hhandle)
      simp [htold] at hrunning
    · subst hl
      have hrunning := (h.telling c l' loops hc).2
      simp [htold] at hrunning
  | takeReceiver c =>
    simp only [Server.effect]
    split
    · split <;> exact h.goto rfl rfl rfl nofun
    · exact h.goto rfl rfl rfl nofun
  | subscribe | changed | ctrlC | call | callRefused | send | drained | graceExpires | collect
  | postCancel | cancelFails | posted | allCancelled | windowExpires | tellFails | join
  | joinItself | dispose | stopped => exact h.goto rfl rfl rfl nofun
  | accept | close | dispatch | leaveAccept | serveFinishes | finish | callsOnLoop =>
    exact h.of_eq rfl rfl fun _ _ _ => id

/-- **The grace period is honoured** along every run whose steps keep the discipline. -/
theorem graceHonoured_of_oneWaitsForAll {s : Server}
    (hreach : system.ReachesUnder (fun s e => oneWaitsForAll s e = true) s) : GraceHonoured s := by
  have hgraceful : Graceful s := by
    refine hreach.invariant (fun s hs => ?_) fun _ _ h hallowed henabled =>
      h.effect hallowed henabled
    rw [hs.2]
    exact graceful_start _
  have hteller : OneTeller s := by
    refine hreach.reaches.invariant (fun s hs => ?_) fun _ _ h henabled => h.effect henabled
    rw [hs.2]
    exact ⟨fun _ _ => rfl, nofun, nofun⟩
  intro c l loops htell r hr hhome
  have hpc : s.callers c = .telling l loops := by simpa [enabled] using htell
  have hdropped := hgraceful.past c (by rw [hpc]; rfl)
  rcases hgraceful.settled hdropped with ⟨-, hempty⟩ | ⟨c', hgrace, hwindow, hcovered⟩
  · simp [hempty] at hr
  · have hbound := (hgraceful.registered r hr).2
    have hcovers := hcovered l (hhome ▸ hbound)
    have hposted := hcovers.cancelled (hteller.telling c l loops hpc).2 r hr hhome
    exact ⟨c', hgrace, hposted.resolve_left (by simp), hwindow⟩

/-- One caller waits for a handler that never ends. -/
def stubbornRun : List Event :=
  [.accept 0, .dispatch 0 0 0, .call 1, .send 1, .takeReceiver 1, .leaveAccept, .graceExpires 1,
    .collect 1 0 [], .postCancel 1 0 [] 0 [], .posted 1 0 [], .allCancelled 1, .windowExpires 1,
    .takeHandle 1 0 []]

/-- A caller tells a loop to stop after its waits and its cancellation of the task there. -/
theorem graceHonoured_stubbornRun :
    ∃ s : Server, s.enabled (.tell 1 0 []) = true ∧ 0 ∈ s.live ∧
      ∃ c, c ∈ s.graceExpired ∧ (c, 0) ∈ s.cancelled ∧ c ∈ s.windowExpired := by
  have hexec : ((system.restrict oneWaitsForAll).exec (start 1) stubbornRun).map (fun s =>
      decide (s.enabled (.tell 1 0 []) = true ∧ 0 ∈ s.live ∧ s.home 0 = 0)) = some true := by decide
  obtain ⟨s, hs, hend⟩ := system.exists_reachesUnder_of_exec ⟨by decide, rfl⟩ hexec
  obtain ⟨htell, hlive, hhome⟩ := of_decide_eq_true hend
  exact ⟨s, htell, hlive, graceHonoured_of_oneWaitsForAll hs 1 0 [] htell 0 hlive hhome⟩

/-- A second caller finds the receiver taken and goes on to stop the loop. -/
def impatientRun : List Event :=
  [.accept 0, .dispatch 0 0 0, .call 1, .send 1, .takeReceiver 1, .call 2, .send 2,
    .takeReceiver 2, .takeHandle 2 0 []]

/-- While one caller waits, a second one stops the loop under an unfinished task: nobody's
grace period has expired and nothing has been cancelled. -/
theorem second_caller_stops_unfinished_tasks :
    ∃ s : Server, system.Reaches s ∧ ¬ GraceHonoured s ∧
      s.callers 1 = .grace ∧ s.graceExpired = [] ∧ s.cancelled = [] := by
  have hexec : ((system.restrict fun _ _ => true).exec (start 1) impatientRun).map (fun s =>
      decide (s.enabled (.tell 2 0 []) = true ∧ 0 ∈ s.live ∧ s.home 0 = 0 ∧
        s.callers 1 = .grace ∧ s.graceExpired = [] ∧ s.cancelled = [])) = some true := by decide
  obtain ⟨s, hs, hend⟩ := system.exists_reaches_of_exec ⟨by decide, rfl⟩ hexec
  obtain ⟨htell, hlive, hhome, hgrace, hexpired, hcancelled⟩ := of_decide_eq_true hend
  refine ⟨s, hs, fun hhonoured => ?_, hgrace, hexpired, hcancelled⟩
  obtain ⟨c, hc, -⟩ := hhonoured 2 0 [] htell 0 hlive hhome
  simp [hexpired] at hc

end Rayo.Server
