import Rayo.Dispatch.Settlement

/-!
# Overlapping calls of `stop`

Only the call that wins the join handle waits for the loop thread, but every call drains
and disposes. While calls come in turn the loop thread owns its tasks until it ends, so
a coroutine that returns on the loop decides the response. A second call that overlaps
with the first one disposes under the running loop.
-/

namespace Rayo

/-- How far the loop thread is in finishing a task, read off the registry. -/
def Work.Owns (g : Registry) : Work → Prop
  | .finish r _ => g.channel r = .open ∧ g.finished r = false
  | .removeLive r _ | .take r _ => g.channel r = .open ∧ g.finished r = true
  | .decrement r _ | .deliver r _ => g.finished r = true

/-- Work that owns its task keeps it as long as it goes on. -/
theorem Work.Owns.next {g : Registry} {w w' : Work} (h : w.Owns g)
    (hnext : (w.advance g).2 = some w') : w'.Owns (w.advance g).1 := by
  cases w <;> simp only [Work.Owns] at h <;>
    simp only [Work.advance, h, Option.some.injEq, reduceCtorEq, if_true, Bool.false_eq_true,
      if_false] at hnext ⊢
  all_goals
    subst hnext
    simp [Work.Owns, Registry.removeLive, Registry.decrement, h]

/-- Work that owns its task ends by delivering its response. -/
theorem Work.Owns.delivered {g : Registry} {w : Work} (h : w.Owns g)
    (hnone : (w.advance g).2 = none) :
    (w.advance g).1.channel w.request = .resolved (.sent w.response) := by
  cases w <;> simp only [Work.Owns] at h <;>
    simp only [Work.advance, h, reduceCtorEq, if_true, Bool.false_eq_true, if_false] at hnone
  simp [Work.advance, Work.request, Work.response, Registry.resolve]

/-- Owned work is past `finish`, or about to perform it. -/
theorem Work.Owns.finished_advance {g : Registry} {w : Work} (h : w.Owns g) :
    (w.advance g).1.finished w.request = true := by
  cases w <;> simp_all [Work.advance, Work.Owns, Work.request, Registry.removeLive,
    Registry.decrement, Registry.resolve]

namespace EventLoop

/-- What callers of `stop` rely on: tasks are disposed of after the loop thread has ended,
so no coroutine is closed while it is stepped, and what a coroutine returned on the loop
is what its client receives. -/
structure DisposalFollowsJoin (s : EventLoop) : Prop where
  /-- `coroutine.close()` waits for the loop thread, which is therefore not stepping the coroutine
  that is closed. -/
  close_waits : ∀ c r rest, s.enabled (.closeCoroutine c r rest) = true → s.loop = .terminated
  /-- So does the `finish` of the disposal. -/
  finish_waits : ∀ c work rest, s.stops c = .working work rest → s.loop = .terminated
  /-- A return decides the response. -/
  return_wins : ∀ r response x, (r, response) ∈ s.returns → (r, x) ∈ s.registry.resolutions →
    x = .sent response
  /-- A return is answered before the loop thread does anything else. -/
  return_answered : ∀ r response, (r, response) ∈ s.returns →
    (∃ work, s.loop = .working work ∧ work.request = r ∧ work.response = response) ∨
      (r, .sent response) ∈ s.registry.resolutions

/-- No coroutine is closed while it is being stepped. -/
theorem DisposalFollowsJoin.not_stepping {s : EventLoop} (h : DisposalFollowsJoin s) {c : StopId}
    {r : RequestId} {rest : List RequestId} (henabled : s.enabled (.closeCoroutine c r rest) = true) :
    s.loop ≠ .stepping r := by
  rw [h.close_waits c r rest henabled]
  rintro ⟨⟩

/-- The request whose channel an event may change. -/
def Event.touches : Event → Option RequestId
  | .count r | .allocationFails r | .collect r => some r
  | .refusedWork _ work | .loopWork work | .stopWork _ work _ => some work.request
  | _ => none

/-- No channel changes but the one that the event touches. -/
theorem channel_effect_of_touches {s : EventLoop} {e : Event} {r : RequestId}
    (h : e.touches ≠ some r) : (s.effect e).registry.channel r = s.registry.channel r := by
  cases e <;> simp only [Event.touches, ne_eq, Option.some.injEq] at h
  case count r' => simp [effect, Registry.openChannel, Ne.symm h]
  case allocationFails r' | collect r' =>
    exact Registry.dropChannel_channel_of_ne (Ne.symm h)
  case refusedWork | loopWork | stopWork => exact Work.advance_channel_of_ne (Ne.symm h)
  case checkClosed r' =>
    simp only [effect]
    split <;> rfl
  all_goals rfl

/-- A `schedule` call that has not yet handed its task to the loop. -/
def SchedulePc.early : SchedulePc → Bool
  | .counted | .registered | .checked => true
  | .idle | .refused _ | .returned => false

/-- The loop has accepted the task of `r` and can still step it. -/
def Accepted (s : EventLoop) (r : RequestId) : Prop :=
  r ∈ s.ready ∨ r ∈ s.parked ∨ s.loop = .stepping r

/-- Nothing has been decided about request `r` yet. -/
def Waiting (s : EventLoop) (r : RequestId) : Prop :=
  SchedulePc.early (s.calls r) = true ∨ (Accepted s r ∧ s.registry.finished r = false)

/-- Until its thread has ended, the loop alone decides about the tasks it has accepted. -/
structure LoopOwned (s : EventLoop) : Prop where
  orderly : Orderly s
  accepted : ∀ r, Accepted s r → s.calls r = .returned
  working : ∀ work, s.loop = .working work →
    s.calls work.request = .returned ∧ work.Owns s.registry
  stepping : ∀ r, s.loop = .stepping r → s.registry.finished r = false
  waiting : s.loop ≠ .terminated → ∀ r, Waiting s r → s.registry.channel r = .open
  returned : ∀ r response, (r, response) ∈ s.returns →
    (∃ work, s.loop = .working work ∧ work.request = r ∧ work.response = response) ∨
      s.registry.channel r = .resolved (.sent response)

/-- A resolved channel stays resolved. -/
theorem channel_resolved_effect {s : EventLoop} {e : Event} (h : Sound s)
    (henabled : s.enabled e = true) {r : RequestId} {x : Resolution}
    (hresolved : s.registry.channel r = .resolved x) :
    (s.effect e).registry.channel r = .resolved x := by
  by_cases htouch : e.touches = some r
  · have hbefore := workOf_of_enabled henabled
    have hwork {w : Work} (hw : w.Fits s.registry) (hr : w.request = r) :
        (w.advance s.registry).1.channel r = .resolved x := by
      subst hr
      cases w <;> simp only [Work.advance, Work.request, Work.Fits] at hresolved hw ⊢
      case finish => split <;> exact hresolved
      case removeLive => exact hresolved
      case take => simp [hresolved]
      all_goals simp [hresolved] at hw
    cases e <;> simp only [Event.touches, Option.some.injEq, reduceCtorEq] at htouch
    case count r' =>
      subst htouch
      have habsent := h.absent_of_idle r' (by simpa [enabled] using henabled)
      simp [habsent] at hresolved
    case allocationFails r' | collect r' =>
      subst htouch
      simp [effect, Registry.dropChannel, hresolved]
    case refusedWork | loopWork | stopWork =>
      exact hwork (h.accounted.fits _ _ hbefore) htouch
  · rw [channel_effect_of_touches htouch]
    exact hresolved

/-- No task finishes but the one that the event touches. -/
theorem finished_effect_of_touches {s : EventLoop} {e : Event} {r : RequestId}
    (h : e.touches ≠ some r) : (s.effect e).registry.finished r = s.registry.finished r := by
  have hwork {w : Work} (hr : w.request ≠ r) :
      (w.advance s.registry).1.finished r = s.registry.finished r := by
    cases w <;> simp only [Work.advance, Work.request] at hr ⊢
    case finish => split <;> simp [Ne.symm hr]
    case take => split <;> rfl
    all_goals rfl
  cases e <;> simp only [Event.touches, ne_eq, Option.some.injEq] at h
  case allocationFails r' | collect r' =>
    simp only [effect, Registry.dropChannel]
    split <;> rfl
  case refusedWork | loopWork | stopWork => exact hwork h
  case checkClosed r' =>
    simp only [effect]
    split <;> rfl
  all_goals rfl

/-- A `schedule` call that has returned does nothing more. -/
theorem calls_returned_effect {s : EventLoop} {e : Event} (henabled : s.enabled e = true)
    {r : RequestId} (hreturned : s.calls r = .returned) : (s.effect e).calls r = .returned := by
  have hset (r' : RequestId) (pc : SchedulePc) (hold : s.calls r' ≠ .returned) :
      Function.update s.calls r' pc r = .returned := by
    by_cases hr : r = r'
    · exact absurd (hr ▸ hreturned) hold
    · rwa [Function.update_of_ne hr]
  cases e <;> simp only [enabled, decide_eq_true_eq] at henabled
  case count r' | allocationFails r' | insert r' | append r' | refusedWork r' _ =>
    exact hset r' _ (by simp [henabled])
  case checkClosed r' =>
    simp only [effect]
    split <;> exact hset r' _ (by simp [henabled])
  all_goals exact hreturned

/-- A task reaches the loop only through `call_soon_threadsafe`. -/
theorem accepted_of_effect {s : EventLoop} {e : Event} (henabled : s.enabled e = true)
    {r : RequestId} (h : Accepted (s.effect e) r) : e = .append r ∨ Accepted s r := by
  cases e <;> simp only [enabled, decide_eq_true_eq] at henabled <;>
    simp only [Accepted, effect, setCall, setStop] at h ⊢
  case append r' =>
    have hready : r ∈ (if s.isClosed then s.ready else s.ready ++ [r']) → r ∈ s.ready ∨ r = r' := by
      split <;> simp +contextual
    rcases h with h | h | h
    · rcases hready h with h | rfl
      · exact Or.inr (Or.inl h)
      · exact Or.inl rfl
    · exact Or.inr (Or.inr (Or.inl h))
    · exact Or.inr (Or.inr (Or.inr h))
  case checkClosed r' => split at h <;> exact Or.inr h
  case beginStep r' =>
    rcases h with h | h | h
    · exact Or.inr (Or.inl (List.mem_of_mem_erase h))
    · exact Or.inr (Or.inr (Or.inl h))
    · split at h
      · cases h
      · cases h
        exact Or.inr (Or.inl henabled.2)
  case reschedule r' | park r' =>
    simp only [List.mem_append, List.mem_cons, reduceCtorEq, or_false] at h
    simp only [henabled, LoopPc.stepping.injEq, reduceCtorEq, false_or]
    tauto
  case wake r' =>
    simp only [List.mem_append, List.mem_singleton] at h
    rcases h with (h | rfl) | h | h
    · exact Or.inr (Or.inl h)
    · exact Or.inr (Or.inr (Or.inl henabled.1))
    · exact Or.inr (Or.inr (Or.inl (List.mem_of_mem_erase h)))
    · exact Or.inr (Or.inr (Or.inr h))
  case loopWork work =>
    cases hnext : (work.advance s.registry).2 <;> simp [hnext] at h <;> tauto
  all_goals first | exact Or.inr h | (simp at h; tauto)

/-- The task of an accepted request is referred to. -/
theorem held_of_accepted {s : EventLoop} {r : RequestId} (h : Accepted s r) : s.held r = true := by
  simp only [held, decide_eq_true_eq]
  rcases h with h | h | h
  · exact Or.inr (Or.inr (Or.inl h))
  · exact Or.inr (Or.inr (Or.inr (Or.inl h)))
  · exact Or.inr (Or.inr (Or.inr (Or.inr (Or.inl (by simp [h, LoopPc.holds])))))

/-- While the loop thread runs, no other thread decides about a task it has accepted. -/
theorem LoopOwned.loopWork_of_touches {s : EventLoop} {e : Event} (h : LoopOwned s)
    (henabled : s.enabled e = true) (hloop : s.loop ≠ .terminated) {r : RequestId}
    (hcall : s.calls r = .returned) (hheld : s.held r = true) (htouch : e.touches = some r) :
    ∃ work, e = .loopWork work := by
  cases e <;> simp only [Event.touches, Option.some.injEq, reduceCtorEq] at htouch <;>
    simp only [enabled, decide_eq_true_eq] at henabled
  case count r' | allocationFails r' => simp [htouch, hcall] at henabled
  case refusedWork r' work =>
    have hr := h.orderly.sound.refused_request r' work henabled
    simp [← hr, htouch, hcall] at henabled
  case loopWork work => exact ⟨work, rfl⟩
  case stopWork c work rest =>
    exact absurd (h.orderly.terminated c (by rw [henabled]; rfl)) hloop
  case collect r' => simp [htouch, hheld] at henabled

/-- Once set, the finished flag of a task stays set. -/
theorem finished_effect {s : EventLoop} {e : Event} {r : RequestId}
    (h : s.registry.finished r = true) : (s.effect e).registry.finished r = true := by
  by_cases htouch : e.touches = some r
  · have hwork (w : Work) : (w.advance s.registry).1.finished r = true := by
      cases w with
      | finish r' response =>
        simp only [Work.advance]
        split
        · exact h
        · by_cases hr : r = r'
          · simp [hr]
          · simpa [hr] using h
      | take r' response =>
        simp only [Work.advance]
        split <;> exact h
      | _ => exact h
    cases e <;> simp only [Event.touches, Option.some.injEq, reduceCtorEq] at htouch
    case count => exact h
    case allocationFails | collect =>
      simp only [effect, Registry.dropChannel]
      split <;> exact h
    case refusedWork | loopWork | stopWork => exact hwork _
  · rw [finished_effect_of_touches htouch]
    exact h

/-- Only a new `schedule` call makes a request wait. -/
theorem waiting_of_effect {s : EventLoop} {e : Event} (henabled : s.enabled e = true)
    {r : RequestId} (h : Waiting (s.effect e) r) : e = .count r ∨ Waiting s r := by
  rcases h with hearly | ⟨haccepted, hunfinished⟩
  · have hset (r' : RequestId) (pc : SchedulePc)
        (hearly : SchedulePc.early (Function.update s.calls r' pc r) = true)
        (hnew : r = r' → SchedulePc.early pc = true → SchedulePc.early (s.calls r) = true) :
        SchedulePc.early (s.calls r) = true := by
      by_cases hr : r = r'
      · subst hr
        rw [Function.update_self] at hearly
        exact hnew rfl hearly
      · rwa [Function.update_of_ne hr] at hearly
    cases e <;> simp only [enabled, decide_eq_true_eq] at henabled
    case count r' =>
      by_cases hr : r = r'
      · exact Or.inl (by rw [hr])
      · exact Or.inr (Or.inl (hset r' _ hearly fun heq => absurd heq hr))
    case allocationFails r' | append r' =>
      exact Or.inr (Or.inl (hset r' _ hearly fun _ hpc => by cases hpc))
    case insert r' =>
      exact Or.inr (Or.inl (hset r' _ hearly fun heq _ => by rw [heq, henabled]; rfl))
    case checkClosed r' =>
      simp only [effect] at hearly
      split at hearly <;>
        exact Or.inr (Or.inl (hset r' _ hearly fun heq _ => by rw [heq, henabled]; rfl))
    case refusedWork r' work =>
      refine Or.inr (Or.inl (hset r' _ hearly fun _ hpc => ?_))
      cases hnext : (work.advance s.registry).2 <;> simp [hnext, SchedulePc.early] at hpc
    all_goals exact Or.inr (Or.inl hearly)
  · rcases accepted_of_effect henabled haccepted with rfl | hold
    · have hcall : s.calls r = .checked := by simpa [enabled] using henabled
      exact Or.inr (Or.inl (by rw [hcall]; rfl))
    · refine Or.inr (Or.inr ⟨hold, ?_⟩)
      by_contra hfinished
      rw [finished_effect (by simpa using hfinished)] at hunfinished
      cases hunfinished

/-- A waiting task is referred to. -/
theorem held_of_waiting {s : EventLoop} {r : RequestId} (h : Waiting s r) : s.held r = true := by
  rcases h with hearly | ⟨haccepted, -⟩
  · simp only [held, decide_eq_true_eq]
    refine Or.inr (Or.inl ?_)
    cases hcall : s.calls r <;> simp_all [SchedulePc.early, SchedulePc.holds]
  · exact held_of_accepted haccepted

/-- A thread leaves the loop's own work alone. -/
theorem loop_working_effect {s : EventLoop} {e : Event} (henabled : s.enabled e = true)
    {work : Work} (hloop : s.loop = .working work) :
    e = .loopWork work ∨ (s.effect e).loop = .working work := by
  cases e <;> simp only [enabled, decide_eq_true_eq, hloop, reduceCtorEq, false_and] at henabled
  case loopWork work' =>
    simp only [LoopPc.working.injEq] at henabled
    exact Or.inl (by rw [henabled])
  case checkClosed r =>
    simp only [effect]
    split <;> exact Or.inr hloop
  all_goals exact Or.inr hloop

/-- The loop takes up work only at the end of a step, and steps a task only from its queue. -/
theorem working_of_effect {s : EventLoop} {e : Event} (henabled : s.enabled e = true)
    {work : Work} (hloop : (s.effect e).loop = .working work) :
    (∃ r ending, e = .endStep r ending ∧ s.loop = .stepping r ∧
        work = .finish r ending.response) ∨
      (∃ old, e = .loopWork old ∧ s.loop = .working old ∧
        (old.advance s.registry).2 = some work) ∨
      ((∀ old, e ≠ .loopWork old) ∧ s.loop = .working work) := by
  cases e <;> simp only [enabled, decide_eq_true_eq] at henabled
  case endStep r ending =>
    cases hloop
    exact Or.inl ⟨r, ending, rfl, henabled, rfl⟩
  case loopWork old =>
    refine Or.inr (Or.inl ⟨old, rfl, henabled, ?_⟩)
    cases hnext : (old.advance s.registry).2 with
    | none => simp [effect, hnext] at hloop
    | some work' =>
      simp only [effect, hnext, Option.elim_some, LoopPc.working.injEq] at hloop
      rw [hloop]
  case beginStep r =>
    simp only [effect] at hloop
    split at hloop <;> cases hloop
  case checkClosed r =>
    simp only [effect] at hloop
    split at hloop <;> exact Or.inr (Or.inr ⟨by rintro _ ⟨⟩, hloop⟩)
  case reschedule | park | leaveRunForever | close | exit => cases hloop
  all_goals exact Or.inr (Or.inr ⟨by rintro _ ⟨⟩, hloop⟩)

/-- A task that is stepped after an event is unfinished, or was stepped before. -/
theorem stepping_of_effect {s : EventLoop} {e : Event} (henabled : s.enabled e = true)
    {r : RequestId} (hloop : (s.effect e).loop = .stepping r) :
    (s.effect e).registry.finished r = false ∨
      (s.loop = .stepping r ∧ ∀ old, e ≠ .loopWork old) := by
  cases e <;> simp only [enabled, decide_eq_true_eq] at henabled
  case beginStep r' =>
    simp only [effect] at hloop ⊢
    split at hloop
    · cases hloop
    · next hunfinished =>
      cases hloop
      exact Or.inl (by simpa using hunfinished)
  case loopWork old =>
    cases hnext : (old.advance s.registry).2 <;> simp [effect, hnext] at hloop
  case checkClosed r' =>
    simp only [effect] at hloop
    split at hloop <;> exact Or.inr ⟨hloop, by rintro _ ⟨⟩⟩
  case endStep | reschedule | park | leaveRunForever | close | exit => cases hloop
  all_goals exact Or.inr ⟨hloop, by rintro _ ⟨⟩⟩

namespace LoopOwned

variable {s : EventLoop} {e : Event}

/-- What the loop owns is left alone by every event except the loop's own work. -/
theorem not_touched (h : LoopOwned s) (henabled : s.enabled e = true)
    (hloop : s.loop ≠ .terminated) {r : RequestId} (hcall : s.calls r = .returned)
    (hheld : s.held r = true) (hother : ∀ old, e ≠ .loopWork old) : e.touches ≠ some r := by
  intro htouch
  obtain ⟨work, rfl⟩ := h.loopWork_of_touches henabled hloop hcall hheld htouch
  exact hother work rfl

/-- The task that the loop thread works on is referred to. -/
theorem held_of_working {work : Work} (hloop : s.loop = .working work) :
    s.held work.request = true := by
  simp [held, hloop, LoopPc.holds]

/-- A thread owns its work as long as the channel and the finish of the request stay. -/
theorem owns_congr {g g' : Registry} {work : Work} (h : work.Owns g)
    (hchannel : g'.channel work.request = g.channel work.request)
    (hfinished : g'.finished work.request = g.finished work.request) : work.Owns g' := by
  cases work <;> simp_all [Work.Owns, Work.request]

/-- The work of the loop thread is its own, after `schedule` has returned. -/
theorem working_effect (h : LoopOwned s) (henabled : s.enabled e = true) {work : Work}
    (hloop : (s.effect e).loop = .working work) :
    (s.effect e).calls work.request = .returned ∧ work.Owns (s.effect e).registry := by
  rcases working_of_effect henabled hloop with
    ⟨r, ending, rfl, hstep, rfl⟩ | ⟨old, rfl, hold, hnext⟩ | ⟨hother, hold⟩
  · have haccepted : Accepted s r := Or.inr (Or.inr hstep)
    have hunfinished := h.stepping r hstep
    exact ⟨h.accepted r haccepted,
      h.waiting (by simp [hstep]) r (Or.inr ⟨haccepted, hunfinished⟩), hunfinished⟩
  · have hreq := (Work.advance_next hnext).1
    obtain ⟨hcall, howns⟩ := h.working old hold
    exact ⟨hreq ▸ hcall, howns.next hnext⟩
  · obtain ⟨hcall, howns⟩ := h.working work hold
    have huntouched := h.not_touched henabled (by simp [hold]) hcall (held_of_working hold) hother
    exact ⟨calls_returned_effect henabled hcall,
      owns_congr howns (channel_effect_of_touches huntouched)
        (finished_effect_of_touches huntouched)⟩

/-- The loop thread steps unfinished tasks only. -/
theorem stepping_effect (h : LoopOwned s) (henabled : s.enabled e = true) {r : RequestId}
    (hloop : (s.effect e).loop = .stepping r) : (s.effect e).registry.finished r = false := by
  rcases stepping_of_effect henabled hloop with hunfinished | ⟨hold, hother⟩
  · exact hunfinished
  · have haccepted : Accepted s r := Or.inr (Or.inr hold)
    have huntouched := h.not_touched henabled (by simp [hold]) (h.accepted r haccepted)
      (held_of_accepted haccepted) hother
    rw [finished_effect_of_touches huntouched]
    exact h.stepping r hold

/-- A waiting task is unanswered until the loop thread has ended. -/
theorem waiting_effect (h : LoopOwned s) (henabled : s.enabled e = true)
    (hloop : (s.effect e).loop ≠ .terminated) {r : RequestId} (hwaiting : Waiting (s.effect e) r) :
    (s.effect e).registry.channel r = .open := by
  have hrunning : s.loop ≠ .terminated := fun hterminated =>
    hloop (terminated_effect henabled hterminated)
  rcases waiting_of_effect henabled hwaiting with rfl | hold
  · simp [effect, Registry.openChannel]
  by_cases htouch : e.touches = some r
  · -- Whoever decides about the request ends its waiting.
    exfalso
    have hcalls {pc : SchedulePc} (hcall : s.calls r = pc) (hpc : SchedulePc.early pc = false) :
        s.calls r = .returned := by
      rcases hold with hearly | ⟨haccepted, -⟩
      · simp [hcall, hpc] at hearly
      · exact h.accepted r haccepted
    cases e <;> simp only [Event.touches, Option.some.injEq, reduceCtorEq] at htouch <;>
      simp only [enabled, decide_eq_true_eq] at henabled
    case count r' =>
      subst htouch
      have := hcalls henabled rfl
      simp [henabled] at this
    case allocationFails r' =>
      subst htouch
      rcases hwaiting with hearly | ⟨haccepted, -⟩
      · simp [effect, setCall, SchedulePc.early] at hearly
      · have := h.accepted r' haccepted
        simp [henabled] at this
    case refusedWork r' work =>
      have hr := h.orderly.sound.refused_request r' work henabled
      subst htouch
      rw [hr] at hcalls
      have := hcalls henabled rfl
      simp [henabled] at this
    case loopWork work =>
      subst htouch
      obtain ⟨hcall, howns⟩ := h.working work henabled
      rcases hwaiting with hearly | ⟨-, hunfinished⟩
      · rw [show (s.effect (.loopWork work)).calls = s.calls from rfl, hcall] at hearly
        cases hearly
      · rw [show (s.effect (.loopWork work)).registry = (work.advance s.registry).1 from rfl,
          howns.finished_advance] at hunfinished
        cases hunfinished
    case stopWork c work rest =>
      exact hrunning (h.orderly.terminated c (by rw [henabled]; rfl))
    case collect r' =>
      subst htouch
      rw [held_of_waiting hold] at henabled
      cases henabled
  · rw [channel_effect_of_touches htouch]
    exact h.waiting hrunning r hold

/-- A coroutine that has returned on the loop is answered, or the loop thread is at it. -/
theorem returned_effect (h : LoopOwned s) (henabled : s.enabled e = true) {r : RequestId}
    {response : HandlerResponse} (hreturn : (r, response) ∈ (s.effect e).returns) :
    (∃ work, (s.effect e).loop = .working work ∧ work.request = r ∧ work.response = response) ∨
      (s.effect e).registry.channel r = .resolved (.sent response) := by
  have hkeep (hold : (r, response) ∈ s.returns) :
      (∃ work, (s.effect e).loop = .working work ∧ work.request = r ∧
          work.response = response) ∨
        (s.effect e).registry.channel r = .resolved (.sent response) := by
    rcases h.returned r response hold with ⟨work, hloop, hreq, hresponse⟩ | hresolved
    · rcases loop_working_effect henabled hloop with rfl | hsame
      · have howns := (h.working work hloop).2
        cases hnext : (work.advance s.registry).2 with
        | none =>
          have hdelivered := howns.delivered hnext
          rw [hreq, hresponse] at hdelivered
          exact Or.inr hdelivered
        | some w' =>
          obtain ⟨hreq', hresponse', -⟩ := Work.advance_next hnext
          exact Or.inl ⟨w', by simp [effect, hnext], hreq'.trans hreq, hresponse'.trans hresponse⟩
      · exact Or.inl ⟨work, hsame, hreq, hresponse⟩
    · exact Or.inr (channel_resolved_effect h.orderly.sound henabled hresolved)
  cases e
  case endStep r' ending =>
    cases ending with
    | returned response' =>
      rcases List.mem_cons.mp hreturn with heq | hold
      · cases heq
        exact Or.inl ⟨_, rfl, rfl, rfl⟩
      · exact hkeep hold
    | failed => exact hkeep hreturn
  case checkClosed r' =>
    refine hkeep ?_
    simp only [effect] at hreturn
    split at hreturn <;> exact hreturn
  all_goals exact hkeep hreturn

/-- **Ownership, one step.** -/
theorem effect (h : LoopOwned s) (hallowed : stopsInTurn s e = true)
    (henabled : s.enabled e = true) : LoopOwned (s.effect e) where
  orderly := h.orderly.effect hallowed henabled
  accepted r haccepted := by
    rcases accepted_of_effect henabled haccepted with rfl | hold
    · simp [EventLoop.effect, setCall]
    · exact calls_returned_effect henabled (h.accepted r hold)
  working _ hloop := h.working_effect henabled hloop
  stepping _ hloop := h.stepping_effect henabled hloop
  waiting hloop _ hwaiting := h.waiting_effect henabled hloop hwaiting
  returned _ _ hreturn := h.returned_effect henabled hreturn

/-- In the beginning there is nothing for the loop to decide about. -/
theorem start : LoopOwned start where
  orderly := Orderly.start
  accepted r h := by simp [Accepted, EventLoop.start] at h
  working _ h := by cases h
  stepping _ h := by cases h
  waiting _ r h := by simp [Waiting, Accepted, EventLoop.start, SchedulePc.early] at h
  returned _ _ h := by cases h

/-- On every run whose stop calls come in turn the loop alone decides. -/
theorem of_reachesUnder {s : EventLoop}
    (hreach : system.ReachesUnder (fun s e => stopsInTurn s e = true) s) : LoopOwned s :=
  hreach.invariant (fun _ h => h ▸ start) fun _ _ h hallowed henabled => h.effect hallowed henabled

/-- Loop work that owns its task has not resolved it. -/
theorem not_resolved (h : LoopOwned s) {work : Work} (hloop : s.loop = .working work)
    (x : Resolution) : s.registry.channel work.request ≠ .resolved x := by
  have howns := (h.working work hloop).2
  have hfits := h.orderly.sound.accounted.fits .loop work (by simp [workOf, hloop])
  cases work <;> simp_all [Work.Owns, Work.Fits, Work.request]

end LoopOwned

/-- **Disposal follows the join.** In every run in which no call of `stop` begins between
another call's taking the join handle and the end of the loop thread. -/
theorem disposalFollowsJoin_of_stopsInTurn {s : EventLoop}
    (hreach : system.ReachesUnder (fun s e => stopsInTurn s e = true) s) :
    DisposalFollowsJoin s := by
  have howned := LoopOwned.of_reachesUnder hreach
  have hresolutions := howned.orderly.sound.accounted.balanced.mem_resolutions
  have hclose (c : StopId) (r : RequestId) (rest : List RequestId)
      (henabled : s.enabled (.closeCoroutine c r rest) = true) : s.loop = .terminated := by
    simp only [enabled, decide_eq_true_eq] at henabled
    exact howned.orderly.terminated c (by rw [henabled]; rfl)
  refine ⟨hclose, fun c work rest hstop => howned.orderly.terminated c (by rw [hstop]; rfl),
    fun r response x hreturn hmem => ?_, fun r response hreturn => ?_⟩
  · rw [hresolutions] at hmem
    rcases howned.returned r response hreturn with ⟨work, hloop, hreq, -⟩ | hresolved
    · exact absurd (hreq ▸ hmem) (howned.not_resolved hloop x)
    · rw [hresolved, ChannelState.resolved.injEq] at hmem
      exact hmem.symm
  · rw [hresolutions]
    exact howned.returned r response hreturn

/-- The run of two `stop` calls one after the other, with a task that is answered on the
loop and one that is disposed of. -/
theorem disposalFollowsJoin_lostAppendRun :
    ∃ s : EventLoop, s.stops 1 = .returned ∧ (0, .noContent) ∈ s.returns ∧
      (1, .sent .internalError) ∈ s.registry.resolutions ∧ DisposalFollowsJoin s := by
  have hexec : ((system.restrict stopsInTurn).exec start
      (lostAppendRun ++ [.takeHandle 1, .drain 1 [], .stopReturns 1])).map (fun s =>
        decide (s.stops 1 = .returned ∧ (0, .noContent) ∈ s.returns ∧
          (1, .sent .internalError) ∈ s.registry.resolutions)) = some true := by decide
  obtain ⟨s, hs, hend⟩ := system.exists_reachesUnder_of_exec rfl hexec
  obtain ⟨hstop, hreturn, hsent⟩ := of_decide_eq_true hend
  exact ⟨s, hstop, hreturn, hsent, disposalFollowsJoin_of_stopsInTurn hs⟩

/-- A handler is being stepped when one `stop` has taken the join handle and a second one
finds it gone. -/
def overlapRun : List Event :=
  [.count 0, .insert 0, .checkClosed 0, .append 0, .beginStep 0, .takeHandle 0, .postStop 0,
    .takeHandle 1, .drain 1 [0]]

/-- The second `stop` answers the request, and only then does the handler return. -/
def overtakenRun : List Event :=
  overlapRun ++ [.closeCoroutine 1 0 [], .stopWork 1 (.finish 0 .internalError) [],
    .stopWork 1 (.removeLive 0 .internalError) [], .stopWork 1 (.take 0 .internalError) [],
    .stopWork 1 (.decrement 0 .internalError) [], .stopWork 1 (.deliver 0 .internalError) [],
    .endStep 0 (.returned .noContent)]

/-- A second `stop` closes a coroutine that is being stepped, and its opaque 500 overtakes
the response of a handler that returns. -/
theorem overlapping_stops_dispose_under_the_loop :
    (∃ s, system.Reaches s ∧ s.loop = .stepping 0 ∧
        s.enabled (.closeCoroutine 1 0 []) = true) ∧
      (∃ s, system.Reaches s ∧ (0, .noContent) ∈ s.returns ∧
        (0, .sent .internalError) ∈ s.registry.resolutions) ∧
      ¬ ∀ s, system.Reaches s → DisposalFollowsJoin s := by
  have hoverlap : ((system.restrict fun _ _ => true).exec start overlapRun).map (fun s =>
      decide (s.loop = .stepping 0 ∧ s.enabled (.closeCoroutine 1 0 []) = true)) =
        some true := by decide
  have hovertaken : ((system.restrict fun _ _ => true).exec start overtakenRun).map (fun s =>
      decide ((0, .noContent) ∈ s.returns ∧
        (0, .sent .internalError) ∈ s.registry.resolutions)) = some true := by decide
  obtain ⟨s, hs, hend⟩ := system.exists_reaches_of_exec rfl hoverlap
  obtain ⟨t, ht, htend⟩ := system.exists_reaches_of_exec rfl hovertaken
  obtain ⟨hloop, hclose⟩ := of_decide_eq_true hend
  refine ⟨⟨s, hs, hloop, hclose⟩, ⟨t, ht, of_decide_eq_true htend⟩, fun hclaim => ?_⟩
  exact (hclaim s hs).not_stepping hclose hloop

end EventLoop

end Rayo
