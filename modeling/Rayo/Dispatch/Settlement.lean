import Rayo.Dispatch.Soundness

/-!
# Every scheduled request is settled

The error path of `schedule`, the loop thread and the disposal in `stop` may all try to
resolve the same request. The accounting shows that one of them at most succeeds. That
none is missed is a second invariant: while a channel is open, some thread or the
registry of live tasks is responsible for it. It needs a `stop` call to drain the
registry only after the loop thread has ended, which a single call guarantees.
-/

namespace Rayo.EventLoop

/-- Some thread is on its way to take the sender of request `r`. -/
def Attended (s : EventLoop) (r : RequestId) : Prop :=
  ∃ x w, s.workOf x = some w ∧ w.request = r ∧ w.beforeTake = true

/-- Someone is responsible for resolving request `r`. -/
def Responsible (s : EventLoop) (r : RequestId) : Prop :=
  s.calls r = .counted ∨ r ∈ s.registry.live ∨
    Attended s r ∨ ∃ c, r ∈ StopPc.pending (s.stops c)

/-- A `stop` call that is past its `join`, or that found no handle to join. -/
def StopPc.pastJoin : StopPc → Bool
  | .idle | .holding | .posted => false
  | .draining | .disposing _ | .working _ _ | .returned => true

/-- A `stop` call that has drained the registry. -/
def StopPc.drained : StopPc → Bool
  | .idle | .holding | .posted | .draining => false
  | .disposing _ | .working _ _ | .returned => true

/-- The discipline on `stop`: a call that finds the join handle gone has begun only after
the loop thread has ended. -/
def stopsInTurn (s : EventLoop) : Event → Bool
  | .takeHandle _ => s.thread = true ∨ s.loop = .terminated
  | _ => true

/-- The discipline of a single call of `stop`. -/
def oneStop (_ : EventLoop) : Event → Bool
  | .takeHandle c => c = 0
  | _ => true

/-- Work that is left with an open channel goes on to take its sender. -/
theorem advance_beforeTake {g : Registry} {w : Work} (hbefore : w.beforeTake = true)
    (hopen : (w.advance g).1.channel w.request = .open) :
    ∃ w', (w.advance g).2 = some w' ∧ w'.request = w.request ∧ w'.beforeTake = true := by
  cases w <;> simp only [Work.advance, Work.request] at hopen ⊢
  case finish r response => split <;> exact ⟨_, rfl, rfl, rfl⟩
  case removeLive r response => exact ⟨_, rfl, rfl, rfl⟩
  case take r response => split at hopen <;> simp_all
  all_goals cases hbefore

/-- Work that removes a task from the registry of live tasks goes on to take its sender. -/
theorem advance_live {g : Registry} {w : Work} {r : RequestId} (hlive : r ∈ g.live) :
    r ∈ (w.advance g).1.live ∨
      ∃ w', (w.advance g).2 = some w' ∧ w'.request = r ∧ w'.beforeTake = true := by
  cases w <;> simp only [Work.advance]
  case finish => split <;> exact Or.inl hlive
  case removeLive r' response =>
    by_cases hr : r = r'
    · exact Or.inr ⟨_, rfl, hr.symm, rfl⟩
    · exact Or.inl (by simp [Registry.removeLive, hlive, hr])
  case take => split <;> exact Or.inl hlive
  all_goals exact Or.inl hlive

/-- The continuation of the moving thread attends to its request. -/
theorem attended_of_workAfter {s : EventLoop} {e : Event} {w : Work}
    (hafter : s.workAfter e = some w) (hbefore : w.beforeTake = true) :
    Attended (s.effect e) w.request :=
  ⟨e.executor, w, by rw [workOf_effect, Function.update_self, hafter], rfl, hbefore⟩

/-- A request stays attended as long as its channel is open. -/
theorem attended_effect {s : EventLoop} {e : Event} (henabled : s.enabled e = true)
    {r : RequestId} (h : Attended s r) (hopen : (s.effect e).registry.channel r = .open) :
    Attended (s.effect e) r := by
  obtain ⟨x, w, hx, rfl, hbefore⟩ := h
  by_cases hmove : x = e.executor
  · subst hmove
    rw [workOf_of_enabled henabled] at hx
    cases e <;> simp only [workBefore, reduceCtorEq, Option.some.injEq] at hx
    case refusedWork | loopWork | stopWork =>
      subst hx
      obtain ⟨w', hw', hreq, hbefore'⟩ := advance_beforeTake hbefore hopen
      exact hreq ▸ attended_of_workAfter hw' hbefore'
    case collect | wake | runStop => exact attended_of_workAfter hx hbefore
  · exact ⟨x, w, by rw [workOf_effect, Function.update_of_ne hmove]; exact hx, rfl, hbefore⟩

/-- Someone stays responsible for a request in the registry. -/
theorem live_effect {s : EventLoop} {e : Event} (henabled : s.enabled e = true) {r : RequestId}
    (hlive : r ∈ s.registry.live) : Responsible (s.effect e) r := by
  have hkeep (h : r ∈ (s.effect e).registry.live) : Responsible (s.effect e) r :=
    Or.inr (Or.inl h)
  cases e
  case insert r' => exact hkeep (List.mem_insert_of_mem hlive)
  case allocationFails r' | collect r' =>
    refine hkeep ?_
    simp only [effect, Registry.dropChannel]
    split <;> exact hlive
  case refusedWork | loopWork | stopWork =>
    rcases advance_live hlive with h | ⟨w', hw', rfl, hbefore⟩
    · exact hkeep h
    · exact Or.inr (Or.inr (Or.inl (attended_of_workAfter hw' hbefore)))
  case drain c order =>
    simp only [enabled, decide_eq_true_eq] at henabled
    refine Or.inr (Or.inr (Or.inr ⟨c, ?_⟩))
    simpa [effect, setStop] using henabled.2.mem_iff.mpr hlive
  case checkClosed r' =>
    refine hkeep ?_
    simp only [effect]
    split <;> exact hlive
  all_goals exact hkeep hlive

/-- Someone stays responsible for a request that a stop call has drained. -/
theorem pending_effect {s : EventLoop} {e : Event} (henabled : s.enabled e = true)
    {r : RequestId} {c : StopId} (hpending : r ∈ StopPc.pending (s.stops c)) :
    Responsible (s.effect e) r := by
  have hkeep (h : r ∈ StopPc.pending ((s.effect e).stops c)) : Responsible (s.effect e) r :=
    Or.inr (Or.inr (Or.inr ⟨c, h⟩))
  have hset (c' : StopId) (pc : StopPc)
      (hpc : c = c' → r ∈ StopPc.pending (s.stops c') → r ∈ StopPc.pending pc) :
      r ∈ StopPc.pending (Function.update s.stops c' pc c) := by
    by_cases hc : c = c'
    · subst hc
      rw [Function.update_self]
      exact hpc rfl hpending
    · rwa [Function.update_of_ne hc]
  cases e <;> simp only [enabled, decide_eq_true_eq] at henabled
  case takeHandle c' | postStop c' | join c' | drain c' order | stopReturns c' =>
    exact hkeep (hset c' _ fun _ h => by simp [henabled] at h)
  case closeCoroutine c' r' rest =>
    by_cases hr : r = r'
    · subst hr
      have hattended : Attended (s.effect (.closeCoroutine c' r rest))
          (Work.finish r .internalError).request := attended_of_workAfter rfl rfl
      exact Or.inr (Or.inr (Or.inl hattended))
    · exact hkeep (hset c' _ fun _ h => by simpa [henabled, hr] using h)
  case stopWork c' work rest =>
    exact hkeep (hset c' _ fun _ h => by
      rw [pending_elim_stop]
      simpa [henabled] using h)
  case checkClosed r' =>
    refine hkeep ?_
    simp only [effect]
    split <;> exact hpending
  all_goals exact hkeep hpending

/-- Someone is responsible for a counted request whose channel is open. -/
theorem counted_effect {s : EventLoop} {e : Event} (henabled : s.enabled e = true)
    {r : RequestId} (hcounted : s.calls r = .counted)
    (hopen : (s.effect e).registry.channel r = .open) : Responsible (s.effect e) r := by
  have hset (r' : RequestId) (pc : SchedulePc) (hold : s.calls r' ≠ .counted) :
      Function.update s.calls r' pc r = .counted := by
    by_cases hr : r = r'
    · exact absurd (hr ▸ hcounted) hold
    · rwa [Function.update_of_ne hr]
  cases e <;> simp only [enabled, decide_eq_true_eq] at henabled
  case insert r' =>
    by_cases hr : r = r'
    · exact Or.inr (Or.inl (by simp [effect, Registry.insertLive, hr]))
    · exact Or.inl (by simpa [effect, setCall, hr] using hcounted)
  case allocationFails r' =>
    by_cases hr : r = r'
    · subst hr
      rw [show (s.effect (.allocationFails r)).registry.channel r = _ from
        Registry.dropChannel_channel_self s.registry r] at hopen
      split at hopen <;> simp_all
    · exact Or.inl (by simpa [effect, setCall, hr] using hcounted)
  case count r' | append r' | refusedWork r' _ =>
    exact Or.inl (hset r' _ (by simp [henabled]))
  case checkClosed r' =>
    refine Or.inl ?_
    simp only [effect]
    split <;> exact hset r' _ (by simp [henabled])
  all_goals exact Or.inl hcounted

/-- A channel only becomes open in `schedule`. -/
theorem channel_open_effect {s : EventLoop} {e : Event} {r : RequestId} (hcount : e ≠ .count r)
    (hopen : (s.effect e).registry.channel r = .open) : s.registry.channel r = .open := by
  have hdrop {r' : RequestId} (h : (s.registry.dropChannel r').channel r = .open) :
      s.registry.channel r = .open := by
    by_cases hr : r = r'
    · subst hr
      rw [Registry.dropChannel_channel_self] at h
      split at h <;> simp_all
    · rwa [Registry.dropChannel_channel_of_ne hr] at h
  have hwork {w : Work} (h : (w.advance s.registry).1.channel r = .open) :
      s.registry.channel r = .open := by
    by_cases hr : r = w.request
    · subst hr
      cases w <;> simp only [Work.advance, Work.request] at h ⊢
      case finish => split at h <;> exact h
      case removeLive => exact h
      case take => split at h <;> simp_all
      case decrement => simp at h
      case deliver => simp [Registry.resolve] at h
    · rwa [Work.advance_channel_of_ne hr] at h
  cases e
  case count r' =>
    have hr : r ≠ r' := fun heq => hcount (by rw [heq])
    simpa [effect, Registry.openChannel, hr] using hopen
  case allocationFails r' | collect r' => exact hdrop hopen
  case refusedWork | loopWork | stopWork => exact hwork hopen
  case checkClosed r' =>
    simp only [effect] at hopen
    split at hopen <;> exact hopen
  all_goals exact hopen

/-- Responsibility for an open channel is passed on by every step, never dropped. -/
theorem responsible_effect {s : EventLoop} {e : Event} (henabled : s.enabled e = true)
    (h : ∀ r, s.registry.channel r = .open → Responsible s r) {r : RequestId}
    (hopen : (s.effect e).registry.channel r = .open) : Responsible (s.effect e) r := by
  by_cases hcount : e = .count r
  · subst hcount
    exact Or.inl (by simp [effect, setCall])
  · rcases h r (channel_open_effect hcount hopen) with h | h | h | ⟨c, h⟩
    · exact counted_effect henabled h hopen
    · exact live_effect henabled h
    · exact Or.inr (Or.inr (Or.inl (attended_effect henabled h hopen)))
    · exact pending_effect henabled h

/-- The loop thread does not come back. -/
theorem terminated_effect {s : EventLoop} {e : Event} (henabled : s.enabled e = true)
    (hloop : s.loop = .terminated) : (s.effect e).loop = .terminated := by
  cases e <;> simp only [enabled, decide_eq_true_eq] at henabled
  case checkClosed r =>
    simp only [effect]
    split <;> exact hloop
  all_goals first | exact hloop | simp [hloop] at henabled

/-- Nobody gets past a join before the loop thread has ended. -/
theorem pastJoin_effect {s : EventLoop} {e : Event} (henabled : s.enabled e = true)
    (hallowed : stopsInTurn s e = true)
    (h : ∀ c, StopPc.pastJoin (s.stops c) = true → s.loop = .terminated) (c : StopId)
    (hpast : StopPc.pastJoin ((s.effect e).stops c) = true) : s.loop = .terminated := by
  have hset (c' : StopId) (pc : StopPc)
      (hpast : StopPc.pastJoin (Function.update s.stops c' pc c) = true)
      (hnew : StopPc.pastJoin pc = true → s.loop = .terminated) : s.loop = .terminated := by
    by_cases hc : c = c'
    · subst hc
      rw [Function.update_self] at hpast
      exact hnew hpast
    · rw [Function.update_of_ne hc] at hpast
      exact h c hpast
  cases e <;> simp only [enabled, decide_eq_true_eq] at henabled
  case takeHandle c' =>
    refine hset c' _ hpast fun hpc => ?_
    simp only [stopsInTurn, decide_eq_true_eq] at hallowed
    split at hpc
    · cases hpc
    · next hthread => exact hallowed.resolve_left hthread
  case postStop c' => exact hset c' _ hpast fun hpc => by cases hpc
  case join c' => exact henabled.2
  case drain c' order => exact hset c' _ hpast fun _ => h c' (by rw [henabled.1]; rfl)
  case closeCoroutine c' r rest | stopWork c' work rest | stopReturns c' =>
    exact hset c' _ hpast fun _ => h c' (by rw [henabled]; rfl)
  case checkClosed r =>
    simp only [effect] at hpast
    split at hpast <;> exact h c hpast
  all_goals exact h c hpast

/-- No stage of work adds a request to the registry. -/
theorem advance_live_subset {g : Registry} {w : Work} {r : RequestId}
    (hlive : r ∈ (w.advance g).1.live) : r ∈ g.live := by
  cases w <;> simp only [Work.advance] at hlive
  case finish => split at hlive <;> exact hlive
  case removeLive => exact List.mem_of_mem_filter hlive
  case take => split at hlive <;> exact hlive
  all_goals exact hlive

/-- Only `schedule` puts a task into the registry of live tasks. -/
theorem live_of_live_effect {s : EventLoop} {e : Event} {r : RequestId}
    (hlive : r ∈ (s.effect e).registry.live) : e = .insert r ∨ r ∈ s.registry.live := by
  have hdrop {r' : RequestId} (h : r ∈ (s.registry.dropChannel r').live) :
      r ∈ s.registry.live := by
    simp only [Registry.dropChannel] at h
    split at h <;> exact h
  cases e
  case insert r' =>
    rcases List.mem_insert_iff.mp hlive with rfl | h
    · exact Or.inl rfl
    · exact Or.inr h
  case allocationFails | collect => exact Or.inr (hdrop hlive)
  case refusedWork | loopWork | stopWork => exact Or.inr (advance_live_subset hlive)
  case drain => cases hlive
  case checkClosed r' =>
    simp only [effect] at hlive
    split at hlive <;> exact Or.inr hlive
  all_goals exact Or.inr hlive

/-- No step but a drain makes a stop call one that has drained. -/
theorem drained_of_drained_effect {s : EventLoop} {e : Event} (henabled : s.enabled e = true)
    (hdrain : ∀ c order, e ≠ .drain c order) {c : StopId}
    (hdrained : StopPc.drained ((s.effect e).stops c) = true) :
    StopPc.drained (s.stops c) = true := by
  have hset (c' : StopId) (pc : StopPc)
      (hdrained : StopPc.drained (Function.update s.stops c' pc c) = true)
      (hnew : StopPc.drained pc = true → StopPc.drained (s.stops c') = true) :
      StopPc.drained (s.stops c) = true := by
    by_cases hc : c = c'
    · subst hc
      rw [Function.update_self] at hdrained
      exact hnew hdrained
    · rwa [Function.update_of_ne hc] at hdrained
  cases e <;> simp only [enabled, decide_eq_true_eq] at henabled
  case drain c' order => exact absurd rfl (hdrain c' order)
  case takeHandle c' =>
    refine hset c' _ hdrained fun hpc => ?_
    split at hpc <;> cases hpc
  case postStop c' | join c' => exact hset c' _ hdrained fun hpc => by cases hpc
  case closeCoroutine c' r rest | stopWork c' work rest | stopReturns c' =>
    exact hset c' _ hdrained fun _ => by rw [henabled]; rfl
  case checkClosed r' =>
    simp only [effect] at hdrained
    split at hdrained <;> exact hdrained
  all_goals exact hdrained

/-- A `schedule` call that came too late for the loop and removes its own entry again. -/
def Late (s : EventLoop) (r : RequestId) : Prop :=
  s.calls r = .registered ∨ ∃ response, s.calls r = .refused (.removeLive r response)

/-- What enters the registry of a closed loop comes from a late call of `schedule`. -/
theorem late_effect {s : EventLoop} {e : Event} (henabled : s.enabled e = true)
    (hclosed : s.isClosed = true) {r : RequestId} (h : Late s r)
    (hlive : r ∈ (s.effect e).registry.live) : Late (s.effect e) r := by
  have hset (r' : RequestId) (pc : SchedulePc) (hr : r ≠ r') :
      Function.update s.calls r' pc r = s.calls r := Function.update_of_ne hr _ _
  have hother (r' : RequestId) (pc : SchedulePc) (hr : r ≠ r') (t : EventLoop)
      (ht : t.calls = Function.update s.calls r' pc) : Late t r := by
    simpa only [Late, ht, hset r' pc hr] using h
  cases e <;> simp only [enabled, decide_eq_true_eq] at henabled
  case count r' | allocationFails r' | insert r' | append r' =>
    have hr : r ≠ r' := by
      rintro rfl
      simp [Late, henabled] at h
    exact hother r' _ hr _ rfl
  case checkClosed r' =>
    simp only [effect, hclosed, if_true]
    by_cases hr : r = r'
    · exact Or.inr ⟨.internalError, by simp [setCall, hr]⟩
    · exact hother r' _ hr _ rfl
  case refusedWork r' work =>
    by_cases hr : r = r'
    · subst hr
      obtain ⟨response, hwork⟩ : ∃ response, work = .removeLive r response := by
        simpa [Late, henabled] using h
      subst hwork
      simp [effect, Work.advance, Registry.removeLive] at hlive
    · exact hother r' _ hr _ rfl
  all_goals exact h

/-- What the discipline on `stop` adds to soundness. -/
structure Orderly (s : EventLoop) : Prop where
  sound : Sound s
  responsible : ∀ r, s.registry.channel r = .open → Responsible s r
  terminated : ∀ c, StopPc.pastJoin (s.stops c) = true → s.loop = .terminated
  late : ∀ c, StopPc.drained (s.stops c) = true → ∀ r ∈ s.registry.live, Late s r

/-- A stop call that has drained is past its join. -/
theorem pastJoin_of_drained {pc : StopPc} (h : StopPc.drained pc = true) :
    StopPc.pastJoin pc = true := by
  cases pc <;> first | rfl | cases h

/-- **Orderly shutdown, one step.** -/
theorem Orderly.effect {s : EventLoop} {e : Event} (h : Orderly s)
    (hallowed : stopsInTurn s e = true) (henabled : s.enabled e = true) :
    Orderly (s.effect e) := by
  refine ⟨h.sound.effect henabled, fun r => responsible_effect henabled h.responsible,
    fun c hc => terminated_effect henabled (pastJoin_effect henabled hallowed h.terminated c hc),
    fun c hc r hr => ?_⟩
  by_cases hdrain : ∃ c order, e = .drain c order
  · obtain ⟨c', order, rfl⟩ := hdrain
    cases hr
  · simp only [not_exists] at hdrain
    have hdrained := drained_of_drained_effect henabled hdrain hc
    have hclosed : s.isClosed = true := by
      simp [isClosed, h.terminated c (pastJoin_of_drained hdrained)]
    rcases live_of_live_effect hr with rfl | hold
    · exact Or.inl (by simp [EventLoop.effect, setCall])
    · exact late_effect henabled hclosed (h.late c hdrained r hold) hr

/-- The discipline on stop calls holds in the beginning. -/
theorem Orderly.start : Orderly start := by
  refine ⟨Sound.start, fun _ h => ?_, fun _ h => ?_, fun _ h => ?_⟩ <;> cases h

/-- Every state of every run in which `stop` calls come in turn is orderly. -/
theorem Orderly.of_reachesUnder {s : EventLoop}
    (hreach : system.ReachesUnder (fun s e => stopsInTurn s e = true) s) : Orderly s :=
  hreach.invariant (fun _ h => h ▸ Orderly.start) fun _ _ h hallowed henabled =>
    h.effect hallowed henabled

/-- With a single caller, the join handle is there for it to take. -/
structure Single (s : EventLoop) : Prop where
  others : ∀ c, c ≠ 0 → s.stops c = .idle
  handle : s.stops 0 = .idle → s.thread = true

/-- **One step** of a single stop call leaves the join handle for it. -/
theorem Single.effect {s : EventLoop} {e : Event} (h : Single s) (hallowed : oneStop s e = true)
    (henabled : s.enabled e = true) : Single (s.effect e) := by
  have hset (c : StopId) (pc : StopPc) (hcaller : c = 0) (hpc : pc ≠ .idle) (t : EventLoop)
      (hstops : t.stops = Function.update s.stops c pc) : Single t := by
    subst hcaller
    refine ⟨fun c hc => ?_, fun h0 => ?_⟩
    · rw [hstops, Function.update_of_ne hc]
      exact h.others c hc
    · rw [hstops, Function.update_self] at h0
      exact absurd h0 hpc
  have hzero (c : StopId) (hbusy : s.stops c ≠ .idle) : c = 0 := by
    by_contra hc
    exact hbusy (h.others c hc)
  cases e <;> simp only [enabled, decide_eq_true_eq] at henabled
  case takeHandle c =>
    refine hset c _ (by simpa [oneStop] using hallowed) ?_ _ rfl
    split <;> simp
  case postStop c => exact hset c .posted (hzero c (by simp [henabled])) (by simp) _ rfl
  case join c => exact hset c .draining (hzero c (by simp [henabled.1])) (by simp) _ rfl
  case drain c order =>
    exact hset c (.disposing order) (hzero c (by simp [henabled.1])) (by simp) _ rfl
  case closeCoroutine c r rest =>
    exact hset c (.working _ rest) (hzero c (by simp [henabled])) (by simp) _ rfl
  case stopWork c work rest =>
    refine hset c _ (hzero c (by simp [henabled])) ?_ _ rfl
    cases (work.advance s.registry).2 <;> simp
  case stopReturns c => exact hset c .returned (hzero c (by simp [henabled])) (by simp) _ rfl
  case checkClosed r =>
    simp only [EventLoop.effect]
    split <;> exact ⟨h.others, h.handle⟩
  all_goals exact ⟨h.others, h.handle⟩

/-- On every run with a single stop call the join handle is there for it. -/
theorem Single.of_reachesUnder {s : EventLoop}
    (hreach : system.ReachesUnder (fun s e => oneStop s e = true) s) : Single s :=
  hreach.invariant (fun _ h => h ▸ ⟨fun _ _ => rfl, fun _ => rfl⟩)
    fun _ _ h hallowed henabled => h.effect hallowed henabled

/-- A single caller of `stop` never finds the join handle gone. -/
theorem stopsInTurn_of_oneStop {s : EventLoop}
    (hreach : system.ReachesUnder (fun s e => oneStop s e = true) s) :
    system.ReachesUnder (fun s e => stopsInTurn s e = true) s := by
  refine hreach.mono fun t e ht hallowed henabled => ?_
  cases e
  case takeHandle c =>
    simp only [oneStop, decide_eq_true_eq] at hallowed
    subst hallowed
    have hidle : t.stops 0 = .idle := by simpa [system, enabled] using henabled
    simp [stopsInTurn, (Single.of_reachesUnder ht).handle hidle]
  all_goals rfl

/-- When `stop` and all `schedule` calls have returned, no channel is left open and no
thread is in the middle of settling one. -/
theorem Orderly.channel_resolved {s : EventLoop} (h : Orderly s) {c : StopId}
    (hstop : s.stops c = .returned) (hstops : ∀ c, s.stops c = .idle ∨ s.stops c = .returned)
    (hcalls : ∀ r, s.calls r = .idle ∨ s.calls r = .returned) {r : RequestId}
    (hscheduled : s.registry.channel r ≠ .absent) : ∃ x, s.registry.channel r = .resolved x := by
  have hloop : s.loop = .terminated := h.terminated c (by rw [hstop]; rfl)
  have hquiet (x : Executor) : s.workOf x = none := by
    cases x with
    | call r => rcases hcalls r with hr | hr <;> simp [workOf, hr]
    | loop => simp [workOf, hloop]
    | stop c => rcases hstops c with hc | hc <;> simp [workOf, hc]
  have hsettled : (s.registry.channel r).settling = false := by
    by_contra hsettling
    obtain ⟨x, w, hx, -⟩ := h.sound.accounted.settler r (by simpa using hsettling)
    simp [hquiet x] at hx
  cases hchannel : s.registry.channel r with
  | absent => exact absurd hchannel hscheduled
  | resolved x => exact ⟨x, rfl⟩
  | taken | counted => simp [hchannel, ChannelState.settling] at hsettled
  | «open» =>
    rcases h.responsible r hchannel with hcall | hlive | ⟨x, w, hx, -⟩ | ⟨c', hc'⟩
    · rcases hcalls r with hr | hr <;> simp [hr] at hcall
    · rcases h.late c (by rw [hstop]; rfl) r hlive with hlate | ⟨x, hlate⟩ <;>
        rcases hcalls r with hr | hr <;> simp [hr] at hlate
    · simp [hquiet x] at hx
    · rcases hstops c' with hc | hc <;> simp [hc] at hc'

/-- **Settlement.** In every run with one call of `stop`, every response channel is resolved
at most once and counted out of the gauge at most once, the gauge never goes below zero,
and when `stop` and all `schedule` calls have returned, every scheduled request has been
resolved, the gauge is back at zero and no task is registered as live. -/
theorem scheduled_requests_settle {s : EventLoop}
    (hreach : system.ReachesUnder (fun s e => oneStop s e = true) s) :
    (s.registry.resolutions.map Prod.fst).Nodup ∧
      s.registry.increments.Nodup ∧ s.registry.decrements.Nodup ∧
      (∀ r ∈ s.registry.decrements, r ∈ s.registry.increments) ∧
      s.registry.gauge = s.registry.increments.length - s.registry.decrements.length ∧
      0 ≤ s.registry.gauge ∧
      (s.stops 0 = .returned → (∀ r, s.calls r = .idle ∨ s.calls r = .returned) →
        (∀ r, s.calls r = .returned → ∃ x, (r, x) ∈ s.registry.resolutions) ∧
          (∀ r ∈ s.registry.increments, r ∈ s.registry.decrements) ∧
          s.registry.gauge = 0 ∧ s.registry.live = []) := by
  have horderly := Orderly.of_reachesUnder (stopsInTurn_of_oneStop hreach)
  have hbalanced := horderly.sound.accounted.balanced
  refine ⟨hbalanced.resolutions_nodup, hbalanced.increments_nodup, hbalanced.decrements_nodup,
    fun r hr => ?_, hbalanced.gauge_eq, hbalanced.gauge_nonneg, fun hstop hcalls => ?_⟩
  · have hout := (hbalanced.mem_decrements r).mp hr
    refine (hbalanced.mem_increments r).mpr fun habsent => ?_
    simp [habsent, ChannelState.countedOut] at hout
  · have hstops (c : StopId) : s.stops c = .idle ∨ s.stops c = .returned := by
      by_cases hc : c = 0
      · exact Or.inr (hc ▸ hstop)
      · exact Or.inl ((Single.of_reachesUnder hreach).others c hc)
    have hresolved (r : RequestId) (hr : s.registry.channel r ≠ .absent) :=
      horderly.channel_resolved hstop hstops hcalls hr
    have hout (r : RequestId) (hr : r ∈ s.registry.increments) :
        (s.registry.channel r).countedOut = true := by
      obtain ⟨x, hx⟩ := hresolved r ((hbalanced.mem_increments r).mp hr)
      rw [hx]
      rfl
    refine ⟨fun r hr => ?_, fun r hr => (hbalanced.mem_decrements r).mpr (hout r hr),
      hbalanced.gauge_eq_zero hout, ?_⟩
    · obtain ⟨x, hx⟩ := hresolved r fun habsent => by
        simp [horderly.sound.idle_of_absent r habsent] at hr
      exact ⟨x, (hbalanced.mem_resolutions r x).mpr hx⟩
    · refine List.eq_nil_iff_forall_not_mem.mpr fun r hr => ?_
      rcases horderly.late 0 (by rw [hstop]; rfl) r hr with hlate | ⟨x, hlate⟩ <;>
        rcases hcalls r with hr | hr <;> simp [hr] at hlate

/-- A run in which one request is answered on the loop, while another is appended after the
closed flag was set and left to the disposal. -/
def lostAppendRun : List Event :=
  [.count 0, .insert 0, .checkClosed 0, .append 0, .beginStep 0,
    .endStep 0 (.returned .noContent), .loopWork (.finish 0 .noContent),
    .loopWork (.removeLive 0 .noContent), .loopWork (.take 0 .noContent),
    .loopWork (.decrement 0 .noContent), .loopWork (.deliver 0 .noContent),
    .count 1, .insert 1, .checkClosed 1, .takeHandle 0, .postStop 0, .runStop, .leaveRunForever,
    .close, .append 1, .exit, .join 0, .drain 0 [1], .closeCoroutine 0 1 [],
    .stopWork 0 (.finish 1 .internalError) [], .stopWork 0 (.removeLive 1 .internalError) [],
    .stopWork 0 (.take 1 .internalError) [], .stopWork 0 (.decrement 1 .internalError) [],
    .stopWork 0 (.deliver 1 .internalError) [], .stopReturns 0]

/-- What the run above ends in, as far as the settlement of its two requests needs it. -/
private def lostAppendEnd (s : EventLoop) : Bool :=
  s.stops 0 = .returned ∧ s.calls 0 = .returned ∧ s.calls 1 = .returned ∧
    ∀ r ∈ s.registry.increments, r = 0 ∨ r = 1

/-- Both requests of the run are resolved, though one of them came too late for the loop. -/
theorem scheduled_requests_settle_lostAppendRun :
    ∃ s : EventLoop, s.calls 0 = .returned ∧ s.calls 1 = .returned ∧ s.stops 0 = .returned ∧
      s.registry.gauge = 0 ∧ s.registry.live = [] ∧
      (∃ x, (0, x) ∈ s.registry.resolutions) ∧ ∃ x, (1, x) ∈ s.registry.resolutions := by
  have hexec : ((system.restrict oneStop).exec start lostAppendRun).map lostAppendEnd =
      some true := by decide
  obtain ⟨s, hs, hend⟩ := system.exists_reachesUnder_of_exec rfl hexec
  obtain ⟨hstop, h0, h1, honly⟩ : s.stops 0 = .returned ∧ s.calls 0 = .returned ∧
      s.calls 1 = .returned ∧ ∀ r ∈ s.registry.increments, r = 0 ∨ r = 1 := by
    simpa only [lostAppendEnd, decide_eq_true_eq] using hend
  have hsound := Sound.of_reachesUnder hs
  have hcalls (r : RequestId) : s.calls r = .idle ∨ s.calls r = .returned := by
    by_cases hr : r ∈ s.registry.increments
    · rcases honly r hr with rfl | rfl
      · exact Or.inr h0
      · exact Or.inr h1
    · rw [hsound.accounted.balanced.mem_increments, not_not] at hr
      exact Or.inl (hsound.idle_of_absent r hr)
  obtain ⟨-, -, -, -, -, -, hfinal⟩ := scheduled_requests_settle hs
  obtain ⟨hresolved, -, hgauge, hlive⟩ := hfinal hstop hcalls
  exact ⟨s, h0, h1, hstop, hgauge, hlive, hresolved 0 h0, hresolved 1 h1⟩

end Rayo.EventLoop
