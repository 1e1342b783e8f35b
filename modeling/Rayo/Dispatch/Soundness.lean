import Rayo.Dispatch.Accounting

/-!
# What every run of one event loop keeps

The steps of `EventLoop` are sorted by the work they start or continue, so that the
accounting of `Accounting` only has to be applied to the thread that moves. The
invariants here hold of every interleaving, of any number of `stop` calls.
-/

namespace Rayo.EventLoop

/-- The work left in a `schedule` call. -/
@[simp] def SchedulePc.work : SchedulePc → Option Work
  | .refused work => some work
  | .idle | .counted | .registered | .checked | .returned => none

/-- The work left on the loop thread. -/
@[simp] def LoopPc.work : LoopPc → Option Work
  | .working work => some work
  | .idle | .stepping _ | .exited | .closed | .terminated => none

/-- The work in progress in a `stop` call. -/
@[simp] def StopPc.work : StopPc → Option Work
  | .working work _ => some work
  | .idle | .holding | .posted | .draining | .disposing _ | .returned => none

/-- The tasks that a `stop` call has drained and not yet disposed of. -/
@[simp] def StopPc.pending : StopPc → List RequestId
  | .disposing rest | .working _ rest => rest
  | .idle | .holding | .posted | .draining | .returned => []

/-- The work in progress on every thread. -/
def workOf (s : EventLoop) : Executor → Option Work
  | .call r => SchedulePc.work (s.calls r)
  | .loop => LoopPc.work s.loop
  | .stop c => StopPc.work (s.stops c)

/-- The work that is left of a refused request is its caller's. -/
@[simp] theorem work_elim_refused (w : Option Work) :
    SchedulePc.work (w.elim .returned .refused) = w := by
  cases w <;> rfl

/-- The work that is left on the loop is the loop thread's. -/
@[simp] theorem work_elim_loop (w : Option Work) :
    LoopPc.work (w.elim .idle .working) = w := by
  cases w <;> rfl

/-- The work that is left of a disposed task is the stop call's. -/
@[simp] theorem work_elim_stop (w : Option Work) (rest : List RequestId) :
    StopPc.work (w.elim (.disposing rest) fun w' => .working w' rest) = w := by
  cases w <;> rfl

/-- A stop call that works on one task has the others pending. -/
@[simp] theorem pending_elim_stop (w : Option Work) (rest : List RequestId) :
    StopPc.pending (w.elim (.disposing rest) fun w' => .working w' rest) = rest := by
  cases w <;> rfl

/-- Moving a `schedule` call changes the work of that call only. -/
theorem workOf_of_call (s s' : EventLoop) (r : RequestId) (pc : SchedulePc)
    (hcalls : s'.calls = Function.update s.calls r pc) (hloop : s'.loop = s.loop)
    (hstops : s'.stops = s.stops) :
    s'.workOf = Function.update s.workOf (.call r) (SchedulePc.work pc) := by
  funext x
  cases x with
  | call r' => by_cases hr : r' = r <;> simp [workOf, hcalls, hr]
  | loop => simp [workOf, hloop]
  | stop c => simp [workOf, hstops]

/-- Moving the loop thread changes its work only. -/
theorem workOf_of_loop (s s' : EventLoop) (hcalls : s'.calls = s.calls)
    (hstops : s'.stops = s.stops) :
    s'.workOf = Function.update s.workOf .loop (LoopPc.work s'.loop) := by
  funext x
  cases x <;> simp [workOf, hcalls, hstops]

/-- Moving a `stop` call changes the work of that call only. -/
theorem workOf_of_stop (s s' : EventLoop) (c : StopId) (pc : StopPc)
    (hcalls : s'.calls = s.calls) (hloop : s'.loop = s.loop)
    (hstops : s'.stops = Function.update s.stops c pc) :
    s'.workOf = Function.update s.workOf (.stop c) (StopPc.work pc) := by
  funext x
  cases x with
  | call r => simp [workOf, hcalls]
  | loop => simp [workOf, hloop]
  | stop c' => by_cases hc : c' = c <;> simp [workOf, hstops, hc]

/-- The thread that an event moves. A posted wake and the collection of a task are not
steps of a thread that carries work. -/
def Event.executor : Event → Executor
  | .count r | .allocationFails r | .insert r | .checkClosed r | .append r | .refusedWork r _
  | .collect r => .call r
  | .beginStep _ | .reschedule _ | .park _ | .endStep _ _ | .loopWork _ | .wake _ | .runStop
  | .leaveRunForever | .close | .exit => .loop
  | .takeHandle c | .postStop c | .join c | .drain c _ | .closeCoroutine c _ _ | .stopWork c _ _
  | .stopReturns c => .stop c

/-- The work of the moving thread after an event. -/
def workAfter (s : EventLoop) : Event → Option Work
  | .checkClosed r => if s.isClosed then some (.removeLive r .internalError) else none
  | .endStep r ending => some (.finish r ending.response)
  | .closeCoroutine _ r _ => some (.finish r .internalError)
  | .refusedWork _ work | .loopWork work | .stopWork _ work _ => (work.advance s.registry).2
  | .collect r => SchedulePc.work (s.calls r)
  | .wake _ | .runStop => LoopPc.work s.loop
  | _ => none

/-- An event changes the work of the thread it moves and of no other. -/
theorem workOf_effect (s : EventLoop) (e : Event) :
    (s.effect e).workOf = Function.update s.workOf e.executor (s.workAfter e) := by
  let t := s.effect e
  have hcall (r : RequestId) (pc : SchedulePc) := workOf_of_call s t r pc
  have hloop := workOf_of_loop s t
  have hstop (c : StopId) (pc : StopPc) := workOf_of_stop s t c pc
  cases e
  case count r => exact hcall r .counted rfl rfl rfl
  case insert r => exact hcall r .registered rfl rfl rfl
  case allocationFails r | append r => exact hcall r .returned rfl rfl rfl
  case checkClosed r =>
    have hset (pc : SchedulePc) := workOf_of_call s (s.setCall r pc) r pc rfl rfl rfl
    simp only [effect, workAfter, Event.executor]
    split <;> exact hset _
  case refusedWork r work =>
    have h := hcall r _ rfl rfl rfl
    rwa [work_elim_refused] at h
  case beginStep r =>
    rw [show (s.effect (.beginStep r)).workOf = _ from hloop rfl rfl]
    simp only [t, effect, workAfter]
    split <;> rfl
  case loopWork work =>
    rw [show (s.effect (.loopWork work)).workOf = _ from hloop rfl rfl]
    simp only [t, effect, work_elim_loop]
    rfl
  case reschedule | park | endStep | leaveRunForever | close | exit | wake | runStop =>
    exact hloop rfl rfl
  case takeHandle c =>
    rw [show (s.effect (.takeHandle c)).workOf = _ from hstop c _ rfl rfl rfl]
    simp only [workAfter, Event.executor]
    split <;> rfl
  case stopWork c work rest =>
    have h := hstop c _ rfl rfl rfl
    rwa [work_elim_stop] at h
  case postStop c => exact hstop c .posted rfl rfl rfl
  case join c => exact hstop c .draining rfl rfl rfl
  case drain c order => exact hstop c (.disposing order) rfl rfl rfl
  case closeCoroutine c r rest =>
    exact hstop c (.working (.finish r .internalError) rest) rfl rfl rfl
  case stopReturns c => exact hstop c .returned rfl rfl rfl
  case collect r => exact (Function.update_eq_self (.call r) s.workOf).symm

/-- The work of the moving thread before an event. -/
def workBefore (s : EventLoop) : Event → Option Work
  | .refusedWork _ work | .loopWork work | .stopWork _ work _ => some work
  | .collect r => SchedulePc.work (s.calls r)
  | .wake _ | .runStop => LoopPc.work s.loop
  | _ => none

/-- The thread of an event has the work that the event begins with. -/
theorem workOf_of_enabled {s : EventLoop} {e : Event} (henabled : s.enabled e = true) :
    s.workOf e.executor = s.workBefore e := by
  cases e <;> simp_all [enabled, Event.executor, workOf, workBefore]

/-- What is known of a run besides the accounting. -/
structure Sound (s : EventLoop) : Prop where
  accounted : Accounted s.registry s.workOf
  absent_of_idle : ∀ r, s.calls r = .idle → s.registry.channel r = .absent
  idle_of_absent : ∀ r, s.registry.channel r = .absent → s.calls r = .idle
  refused_request : ∀ r w, s.calls r = .refused w → w.request = r

private theorem accounted_dropChannel {g : Registry} {work : Executor → Option Work}
    (h : Accounted g work) (r : RequestId) : Accounted (g.dropChannel r) work := by
  refine h.congr (h.balanced.dropChannel r) fun r' hr' => ?_
  by_cases hr : r' = r
  · subst hr
    rw [Registry.dropChannel_channel_self] at hr' ⊢
    split at hr' <;> simp_all [ChannelState.settling]
  · exact Registry.dropChannel_channel_of_ne hr

/-- Every step of every thread keeps the accounting. -/
theorem accounted_effect {s : EventLoop} {e : Event} (h : Sound s)
    (henabled : s.enabled e = true) :
    Accounted (s.effect e).registry (s.effect e).workOf := by
  have hbefore := workOf_of_enabled henabled
  have hquiet (hsame : s.workAfter e = s.workBefore e) : (s.effect e).workOf = s.workOf := by
    rw [workOf_effect, hsame, ← hbefore, Function.update_eq_self]
  cases e
  case count r =>
    have habsent : s.registry.channel r = .absent :=
      h.absent_of_idle r (by simpa [enabled] using henabled)
    rw [hquiet rfl]
    refine h.accounted.congr (h.accounted.balanced.openChannel habsent) fun r' hr' => ?_
    by_cases hr : r' = r
    · simp [hr, effect, Registry.openChannel, habsent, ChannelState.settling] at hr'
    · simp [effect, Registry.openChannel, hr]
  case allocationFails r | collect r =>
    rw [hquiet rfl]
    exact accounted_dropChannel h.accounted r
  case insert | drain =>
    rw [hquiet rfl]
    exact h.accounted.congr (h.accounted.balanced.congr rfl rfl rfl rfl rfl) fun _ _ => rfl
  case refusedWork | loopWork | stopWork =>
    rw [workOf_effect]
    exact h.accounted.advance hbefore
  case endStep | closeCoroutine =>
    rw [workOf_effect]
    exact h.accounted.begin hbefore rfl
  case checkClosed r =>
    rw [workOf_effect]
    simp only [effect, workAfter]
    split
    · exact h.accounted.begin hbefore rfl
    · rw [show none = s.workOf _ from hbefore.symm, Function.update_eq_self]
      exact h.accounted
  all_goals
    rw [hquiet rfl]
    exact h.accounted

/-- A channel that does not exist yet is created by nothing but `schedule`. -/
theorem advance_channel_absent {g : Registry} {w : Work} (hfits : w.Fits g) (r : RequestId) :
    (w.advance g).1.channel r = .absent ↔ g.channel r = .absent := by
  by_cases hr : r = w.request
  · subst hr
    cases w <;> simp only [Work.advance, Work.request, Work.Fits] at hfits ⊢
    case finish => split <;> rfl
    case removeLive => rfl
    case take => split <;> simp_all
    case decrement => simp [hfits]
    case deliver => simp [Registry.resolve, hfits]
  · rw [Work.advance_channel_of_ne hr]

/-- No event but the count of a request brings its channel into being. -/
theorem channel_absent_effect {s : EventLoop} {e : Event} (h : Sound s)
    (henabled : s.enabled e = true) (r : RequestId) (hcount : e ≠ .count r) :
    (s.effect e).registry.channel r = .absent ↔ s.registry.channel r = .absent := by
  have hbefore := workOf_of_enabled henabled
  have hdrop (r' : RequestId) : (s.registry.dropChannel r').channel r = .absent ↔
      s.registry.channel r = .absent := by
    by_cases hr : r = r'
    · subst hr
      rw [Registry.dropChannel_channel_self]
      split <;> simp_all
    · rw [Registry.dropChannel_channel_of_ne hr]
  cases e
  case count r' =>
    have hr : r ≠ r' := fun heq => hcount (by rw [heq])
    simp [effect, Registry.openChannel, hr]
  case allocationFails r' | collect r' => exact hdrop r'
  case refusedWork | loopWork | stopWork =>
    exact advance_channel_absent (h.accounted.fits _ _ hbefore) r
  case checkClosed r' =>
    simp only [effect]
    split <;> rfl
  all_goals rfl

/-- A `schedule` call is idle until its own first step. -/
theorem calls_idle_effect {s : EventLoop} {e : Event} (henabled : s.enabled e = true)
    (r : RequestId) (hcount : e ≠ .count r) :
    (s.effect e).calls r = .idle ↔ s.calls r = .idle := by
  have hset (r' : RequestId) (pc : SchedulePc) (hpc : pc ≠ .idle) (hold : s.calls r' ≠ .idle) :
      Function.update s.calls r' pc r = .idle ↔ s.calls r = .idle := by
    by_cases hr : r = r'
    · subst hr
      simp [hpc, hold]
    · simp [hr]
  cases e <;> simp only [enabled, decide_eq_true_eq] at henabled
  case count r' =>
    have hr : r ≠ r' := fun heq => hcount (by rw [heq])
    simp [effect, setCall, hr]
  case allocationFails r' | insert r' | append r' =>
    exact hset r' _ (by simp) (by simp [henabled])
  case checkClosed r' =>
    simp only [effect, setCall]
    split <;> exact hset r' _ (by simp) (by simp [henabled])
  case refusedWork r' work =>
    refine hset r' _ ?_ (by simp [henabled])
    cases (work.advance s.registry).2 <;> simp
  all_goals rfl

/-- The error path of `schedule` works on its own request. -/
theorem refused_request_effect {s : EventLoop} {e : Event} (h : Sound s)
    (henabled : s.enabled e = true) (r : RequestId) (w : Work)
    (hcall : (s.effect e).calls r = .refused w) : w.request = r := by
  have hset (r' : RequestId) (pc : SchedulePc)
      (hcall : Function.update s.calls r' pc r = .refused w)
      (hnew : r = r' → pc = .refused w → w.request = r) : w.request = r := by
    by_cases hr : r = r'
    · subst hr
      rw [Function.update_self] at hcall
      exact hnew rfl hcall
    · rw [Function.update_of_ne hr] at hcall
      exact h.refused_request r w hcall
  cases e <;> simp only [enabled, decide_eq_true_eq] at henabled
  case count r' | allocationFails r' | insert r' | append r' =>
    exact hset r' _ hcall fun _ hpc => by cases hpc
  case checkClosed r' =>
    simp only [effect] at hcall
    split at hcall
    · refine hset r' _ hcall fun hr hpc => ?_
      cases hpc
      exact hr.symm
    · exact hset r' _ hcall fun _ hpc => by cases hpc
  case refusedWork r' work =>
    refine hset r' _ hcall fun hr hpc => ?_
    cases hnext : (work.advance s.registry).2 with
    | none => simp [hnext] at hpc
    | some w' =>
      simp only [hnext, Option.elim_some, SchedulePc.refused.injEq] at hpc
      rw [← hpc, (Work.advance_next hnext).1, h.refused_request r' work henabled, hr]
  all_goals exact h.refused_request r w hcall

/-- A loop that has just been started is sound. -/
theorem Sound.start : Sound start := by
  refine ⟨⟨Registry.Balanced.empty, ?_, ?_, ?_⟩, fun _ _ => rfl, fun _ _ => rfl, ?_⟩
  · intro x w hx
    cases x <;> cases hx
  · intro x y w v hx
    cases x <;> cases hx
  · intro r hr
    cases hr
  · intro r w hr
    cases hr

/-- **Soundness of one step.** It holds of every thread's next step, whatever the other
threads are in the middle of. -/
theorem Sound.effect {s : EventLoop} {e : Event} (h : Sound s) (henabled : s.enabled e = true) :
    Sound (s.effect e) := by
  refine ⟨accounted_effect h henabled, fun r => ?_, fun r => ?_, refused_request_effect h henabled⟩
  all_goals by_cases hcount : e = .count r
  · subst hcount
    simp [EventLoop.effect, setCall]
  · rw [channel_absent_effect h henabled r hcount, calls_idle_effect henabled r hcount]
    exact h.absent_of_idle r
  · subst hcount
    simp [EventLoop.effect, Registry.openChannel]
  · rw [channel_absent_effect h henabled r hcount, calls_idle_effect henabled r hcount]
    exact h.idle_of_absent r

/-- Every state of every run is sound. -/
theorem Sound.of_reachesUnder {allowed : EventLoop → Event → Prop} {s : EventLoop}
    (hreach : system.ReachesUnder allowed s) : Sound s :=
  hreach.invariant (fun _ h => h ▸ Sound.start) fun _ _ h _ henabled => h.effect henabled

end Rayo.EventLoop
