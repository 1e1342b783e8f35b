import Rayo.Task.CallbackHistory

/-!
# Done callbacks

Every registration is removed or handed to `call_soon` once, and those that are queued are queued in
the order of their registration, but for what is registered while `finish` hands the others on.
-/

namespace Rayo

open Asyncio

namespace DoneCallbacks

variable {t : TaskId} {s : DoneCallbacks} {r : Registration}

/-- What is left to do once the task is finished, on a loop that accepts it. -/
def windUp (s : DoneCallbacks) : List Event :=
  s.handing.map (fun _ => .fire true) ++ s.late.map (.fireLate · true)

/-- The late registrations can all be handed over. -/
theorem exec_fireLate (t : TaskId) (s : DoneCallbacks) : ∃ s',
    (system t).exec s (s.late.map (.fireLate · true)) = some s' ∧ s'.completion = s.completion ∧
    s'.handing = s.handing ∧ s'.late = [] ∧ s'.registered = s.registered ∧
    s'.removed = s.removed ∧ s'.handed = s.handed ++ s.late.map (·, true) := by
  generalize hlate : s.late = late
  induction late generalizing s with
  | nil => exact ⟨s, rfl, rfl, rfl, hlate, rfl, rfl, (List.append_nil _).symm⟩
  | cons r rest ih =>
    have henabled : (system t).enabled s (.fireLate r true) = true := by
      simp [system, enabled, hlate]
    have hrest : ((system t).effect s (.fireLate r true)).late = rest := by
      simp [system, effect, callSoon, hlate]
    obtain ⟨s', hexec, hcompletion, hhanding, hempty, hregistered, hremoved, hhanded⟩ :=
      ih _ hrest
    refine ⟨s', ?_, hcompletion, hhanding, hempty, hregistered, hremoved, ?_⟩
    · simpa only [List.map_cons, Transition.System.exec, henabled, if_true] using hexec
    · rw [hhanded]
      simp [system, effect, callSoon]

/-- The registrations of a finished task can all be handed over. -/
theorem exec_fire (t : TaskId) (s : DoneCallbacks) : ∃ s',
    (system t).exec s (s.handing.map fun _ => .fire true) = some s' ∧
    s'.completion = s.completion ∧ s'.handing = [] ∧ s'.late = s.late ∧
    s'.registered = s.registered ∧ s'.removed = s.removed ∧
    s'.handed = s.handed ++ s.handing.map (·, true) := by
  generalize hhanding : s.handing = handing
  induction handing generalizing s with
  | nil => exact ⟨s, rfl, rfl, hhanding, rfl, rfl, rfl, (List.append_nil _).symm⟩
  | cons r rest ih =>
    have henabled : (system t).enabled s (.fire true) = true := by
      simp [system, enabled, hhanding]
    have hrest : ((system t).effect s (.fire true)).handing = rest := by
      simp [system, effect, callSoon, hhanding]
    obtain ⟨s', hexec, hcompletion, hempty, hlate, hregistered, hremoved, hhanded⟩ := ih _ hrest
    refine ⟨s', ?_, ?_, hempty, ?_, ?_, ?_, ?_⟩
    · simpa only [List.map_cons, Transition.System.exec, henabled, if_true] using hexec
    · simpa [system, effect, callSoon, hhanding] using hcompletion
    · simpa [system, effect, callSoon, hhanding] using hlate
    · simpa [system, effect, callSoon, hhanding] using hregistered
    · simpa [system, effect, callSoon, hhanding] using hremoved
    · rw [hhanded]
      simp [system, effect, callSoon, hhanding]

/-- A finished task comes to rest by itself. -/
theorem exec_windUp (hfinished : s.completion.isSome = true) : ∃ s',
    (system t).exec s s.windUp = some s' ∧ s'.Settled ∧ s'.registered = s.registered ∧
    s'.removed = s.removed ∧
    s'.handed = s.handed ++ s.handing.map (·, true) ++ s.late.map (·, true) := by
  obtain ⟨m, hfire, hcompletion, hhanding, hlate, hregistered, hremoved, hhanded⟩ := exec_fire t s
  obtain ⟨s', hexec, hcompletion', hhanding', hlate', hregistered', hremoved', hhanded'⟩ :=
    exec_fireLate t m
  rw [hlate] at hexec hhanded'
  refine ⟨s', (Transition.System.exec_append hfire _).trans hexec, ⟨?_, ?_, hlate'⟩,
    hregistered'.trans hregistered, hremoved'.trans hremoved, hhanded'.trans (by rw [hhanded])⟩
  · rw [hcompletion', hcompletion]
    exact hfinished
  · exact hhanding'.trans hhanding

/-- Registrations are made in the order of their numbers. -/
theorem Sound.registered_pairwise (h : s.Sound t) :
    s.registered.Pairwise (·.number < ·.number) := by
  have hnumbers : (s.registered.map (·.number)).Pairwise (· < ·) := by
    rw [h.numbers]
    exact List.pairwise_lt_range
  exact List.pairwise_map.mp hnumbers

/-- No registration is made twice. -/
theorem Sound.registered_nodup (h : s.Sound t) : s.registered.Nodup :=
  h.registered_pairwise.imp fun hlt heq => absurd (congrArg Registration.number heq) (by omega)

/-- No registration is in two places. -/
theorem Sound.count_le (h : s.Sound t) (r : Registration) :
    s.removed.count r + s.late.count r + (s.handed.map (·.1)).count r + s.handing.count r +
      s.doneCallbacks.count r = s.registered.count r ∧ s.registered.count r ≤ 1 := by
  have hcount := h.accounted.count_eq r
  simp only [List.count_append] at hcount
  exact ⟨hcount, List.nodup_iff_count_le_one.mp h.registered_nodup r⟩

/-- A registration that the loop has not refused is queued as often as it was handed over. -/
theorem count_queued (s : DoneCallbacks) (r : Registration) (hr : (r, false) ∉ s.handed) :
    s.queued.count r = (s.handed.map (·.1)).count r := by
  unfold queued
  generalize s.handed = handed at hr ⊢
  induction handed with
  | nil => rfl
  | cons h rest ih =>
    simp only [List.mem_cons, not_or] at hr
    have hrest := ih hr.2
    obtain ⟨x, accepted⟩ := h
    cases accepted with
    | true => simp [List.count_cons, hrest]
    | false =>
      have hne : x ≠ r := fun heq => hr.1 (by rw [heq])
      simp [List.count_cons_of_ne hne, hrest]

/-- The queued registrations are in the order in which they were handed over. -/
theorem queued_sublist (s : DoneCallbacks) : s.queued.Sublist (s.handed.map (·.1)) :=
  List.filter_sublist.map _

/-- No registration is queued twice. -/
theorem Sound.queued_nodup (h : s.Sound t) : s.queued.Nodup := by
  refine List.Nodup.sublist s.queued_sublist (List.nodup_iff_count_le_one.mpr fun r => ?_)
  obtain ⟨hcount, hone⟩ := h.count_le r
  omega

/-- What was queued was registered, was not removed, and the task is finished. -/
theorem Sound.of_mem_queued (h : s.Sound t) (hr : r ∈ s.queued) :
    r ∈ s.registered ∧ r ∉ s.removed ∧ s.completion.isSome = true := by
  have hhanded : r ∈ s.handed.map (·.1) := s.queued_sublist.subset hr
  have hpos := List.count_pos_iff.mpr hhanded
  obtain ⟨hcount, hone⟩ := h.count_le r
  refine ⟨List.count_pos_iff.mp (by omega), fun hremoved => ?_, ?_⟩
  · have hpos' := List.count_pos_iff.mpr hremoved
    omega
  · by_contra hnone
    have hempty := (h.unfinished (by simpa using hnone)).2.2
    simp [hempty] at hhanded

/-- When nothing is on its way any more, everything that was not removed was queued. -/
theorem Sound.count_queued_of_settled (h : s.Sound t) (hsettled : s.Settled)
    (hr : r ∈ s.registered) (hkept : r ∉ s.removed) (haccepted : (r, false) ∉ s.handed) :
    s.queued.count r = 1 := by
  obtain ⟨hcount, hone⟩ := h.count_le r
  have hpos := List.count_pos_iff.mpr hr
  have hremoved := List.count_eq_zero_of_not_mem hkept
  simp only [hsettled.handing, hsettled.late, h.finished hsettled.completion,
    List.count_nil] at hcount
  rw [count_queued s r haccepted]
  omega

/-- The registrations are queued in order. -/
theorem Sound.queued_inOrder (h : s.Sound t) : s.queued.Pairwise InOrder := by
  have hordered := h.ordered
  rw [List.append_assoc, List.pairwise_append] at hordered
  exact hordered.1.sublist s.queued_sublist

/-- The list of an unfinished task is what was registered and not removed again. -/
theorem Sound.doneCallbacks_eq (h : s.Sound t) (hunfinished : s.completion = none) :
    s.doneCallbacks = s.registered.filter (· ∉ s.removed) := by
  have hplaces := h.doneCallbacks_of_unfinished hunfinished
  have hdisjoint : ∀ r ∈ s.doneCallbacks, r ∉ s.removed := by
    intro r hr hremoved
    have hpos := List.count_pos_iff.mpr hr
    have hpos' := List.count_pos_iff.mpr hremoved
    obtain ⟨hcount, hone⟩ := h.count_le r
    omega
  have hperm : s.doneCallbacks.Perm (s.registered.filter (· ∉ s.removed)) := by
    have hfilter := hplaces.filter (· ∉ s.removed)
    rw [List.filter_append, List.filter_eq_nil_iff.mpr (by simp), List.nil_append,
      List.filter_eq_self.mpr (by simpa using hdisjoint)] at hfilter
    exact hfilter
  have hordered : s.doneCallbacks.Pairwise (·.number < ·.number) := by
    have hin := (List.pairwise_append.mp h.ordered).2.1
    refine List.Pairwise.imp_of_mem (fun hx hy hinOrder => ?_) hin
    rcases hinOrder (h.early _ (List.mem_append_right _ hy)) with ⟨-, hlt⟩ | hhandover
    · exact hlt
    · rw [h.early _ (List.mem_append_right _ hx)] at hhandover
      cases hhandover
  refine hperm.eq_of_pairwise (fun x y _ _ hlt hgt => ?_) hordered
    (h.registered_pairwise.filter _)
  omega

/-- `remove_done_callback` removes what compares equal, keeps the rest, and counts it. -/
theorem removeDoneCallback_spec (eq : Registration → Value → Option Bool) (callback : Value)
    (s : DoneCallbacks) :
    (s.removeDoneCallback eq callback).1.doneCallbacks =
        s.doneCallbacks.filter (fun r => !equal eq callback r) ∧
      (s.removeDoneCallback eq callback).1.removed =
        s.removed ++ s.doneCallbacks.filter (equal eq callback) ∧
      (s.removeDoneCallback eq callback).2 = s.doneCallbacks.countP (equal eq callback) := by
  refine ⟨rfl, ?_, ?_⟩
  · simp only [removeDoneCallback, filter_notMem_retained]
  · have hsplit := (List.filter_append_perm (equal eq callback) s.doneCallbacks).length_eq
    rw [List.length_append, ← List.countP_eq_length_filter] at hsplit
    simp only [removeDoneCallback]
    omega

/-- A finished task has no callbacks to remove. -/
theorem removeDoneCallback_of_empty (hempty : s.doneCallbacks = [])
    (eq : Registration → Value → Option Bool) (callback : Value) :
    s.removeDoneCallback eq callback = (s, 0) := by
  obtain ⟨completion, doneCallbacks, handing, late, soon, registered, removed, handed⟩ := s
  obtain rfl : doneCallbacks = [] := hempty
  simp [removeDoneCallback]

/-- What becomes of a call that has a context. -/
theorem addDoneCallback_registered (callback : Value) {context copied : Option Value}
    {callbackContext : Value} (hcontext : context.or copied = some callbackContext)
    (s : DoneCallbacks) : (s.addDoneCallback callback context copied).registered =
      s.registered ++ [s.registration callback callbackContext] := by
  simp only [addDoneCallback, hcontext]
  split <;> rfl

/-- What is promised of the done callbacks of a task. -/
structure FiresOnce (t : TaskId) (s : DoneCallbacks) : Prop where
  /-- A call with a context of its own, or with a copy of the current one, is a registration. -/
  registers : ∀ callback context copied callbackContext,
    context.or copied = some callbackContext →
      (s.addDoneCallback callback context copied).registered =
        s.registered ++ [s.registration callback callbackContext]
  distinct : s.registered.Pairwise (·.number < ·.number)
  /-- The loop is given the callback, the task and the context of the registration. -/
  soon : s.soon = s.queued.map (Registration.handle t)
  atMostOnce : s.queued.Nodup
  queued : ∀ r ∈ s.queued, r ∈ s.registered ∧ r ∉ s.removed ∧ s.completion.isSome = true
  /-- Nothing is lost but what `call_soon` refused. -/
  atLeastOnce : s.Settled → ∀ r ∈ s.registered, r ∉ s.removed → (r, false) ∉ s.handed →
    s.queued.count r = 1
  /-- A finished task comes to rest without any further event. -/
  settles : s.completion.isSome = true → ∃ s', (system t).exec s s.windUp = some s' ∧
    s'.Settled ∧ s'.registered = s.registered ∧ s'.removed = s.removed ∧
    ∀ r ∈ s.registered, r ∉ s.removed → (r, false) ∉ s.handed → s'.queued.count r = 1
  ordered : s.queued.Pairwise InOrder
  /-- An unfinished task holds what was not removed from it. -/
  holds : s.completion = none → s.doneCallbacks = s.registered.filter (· ∉ s.removed)
  removes : ∀ eq callback,
    (s.removeDoneCallback eq callback).1.doneCallbacks =
      s.doneCallbacks.filter (fun r => !equal eq callback r) ∧
    (s.removeDoneCallback eq callback).1.removed =
      s.removed ++ s.doneCallbacks.filter (equal eq callback) ∧
    (s.removeDoneCallback eq callback).2 = s.doneCallbacks.countP (equal eq callback)
  /-- From a finished task nothing is removed. -/
  removesNothing : s.completion.isSome = true → ∀ eq callback,
    s.removeDoneCallback eq callback = (s, 0)

/-- **Done callbacks fire exactly once and in order.** Only a registration that is made while
`finish` hands its list over can get in front of earlier ones. -/
theorem done_callbacks_fire_once (hreach : (system t).Reaches s) : s.FiresOnce t := by
  have h := sound hreach
  refine
    { registers := fun callback _ _ _ hcontext => addDoneCallback_registered callback hcontext s
      distinct := h.registered_pairwise
      soon := h.soon
      atMostOnce := h.queued_nodup
      queued := fun r => h.of_mem_queued
      atLeastOnce := fun hsettled r => h.count_queued_of_settled hsettled
      settles := ?_
      ordered := h.queued_inOrder
      holds := h.doneCallbacks_eq
      removes := fun eq callback => removeDoneCallback_spec eq callback s
      removesNothing := fun hfinished => removeDoneCallback_of_empty (h.finished hfinished) }
  intro hfinished
  obtain ⟨s', hexec, hsettled, hregistered, hremoved, hhanded⟩ := exec_windUp (t := t) hfinished
  refine ⟨s', hexec, hsettled, hregistered, hremoved, fun r hr hkept haccepted => ?_⟩
  have h' := sound (hreach.exec hexec)
  refine h'.count_queued_of_settled hsettled (hregistered ▸ hr) (hremoved ▸ hkept) ?_
  rw [hhanded]
  simpa using haccepted

/-- One callback registered twice and another one that is removed. -/
def twiceRegistered : List Event :=
  [.add 7 none (some 1), .add 8 (some 2) (some 1), .add 7 none (some 3),
    .remove (fun r callback => some (r.callback = callback)) 8, .finish .aborted, .fire true,
    .add 9 none (some 1)]

/-- A callback that is registered twice is called once for each registration. -/
theorem done_callbacks_fire_once_twiceRegistered : ∃ s, (system 0).Reaches s ∧
    s.queued = [⟨0, 7, 1, .unfinished⟩] ∧ s.handing = [⟨2, 7, 3, .unfinished⟩] ∧
    ∃ s', (system 0).exec s s.windUp = some s' ∧ s'.queued.count ⟨2, 7, 3, .unfinished⟩ = 1 ∧
      s'.queued.count ⟨3, 9, 1, .handover⟩ = 1 := by
  have hexec : (((system 0).restrict fun _ _ => true).exec .new twiceRegistered).map
      (fun s => decide (s.completion.isSome = true ∧ s.queued = [⟨0, 7, 1, .unfinished⟩] ∧
        s.handing = [⟨2, 7, 3, .unfinished⟩] ∧ s.late = [⟨3, 9, 1, .handover⟩] ∧
        ⟨2, 7, 3, .unfinished⟩ ∈ s.registered ∧ ⟨3, 9, 1, .handover⟩ ∈ s.registered ∧
        s.removed = [⟨1, 8, 2, .unfinished⟩] ∧ s.handed = [(⟨0, 7, 1, .unfinished⟩, true)])) =
      some true := by decide
  obtain ⟨s, hs, hend⟩ := Transition.System.exists_reaches_of_exec rfl hexec
  obtain ⟨hfinished, hqueued, hhanding, -, hfirst, hsecond, hremoved, hhanded⟩ :=
    of_decide_eq_true hend
  obtain ⟨s', hexec', -, -, -, hcount⟩ :=
    (done_callbacks_fire_once hs).settles hfinished
  exact ⟨s, hs, hqueued, hhanding, s', hexec',
    hcount _ hfirst (by simp [hremoved]) (by simp [hhanded]),
    hcount _ hsecond (by simp [hremoved]) (by simp [hhanded])⟩

/-- A callback is registered after `finish` has taken the list and before it hands it on. -/
def overtaking : List Event :=
  [.add 7 none (some 1), .finish .aborted, .add 8 none (some 1),
    .fireLate ⟨1, 8, 1, .handover⟩ true, .fire true]

/-- It is queued in front of the one that was registered before the completion. -/
theorem handover_overtaken : ∃ s, (system 0).Reaches s ∧ s.Settled ∧
    s.registered = [⟨0, 7, 1, .unfinished⟩, ⟨1, 8, 1, .handover⟩] ∧
    s.soon = [.doneCallback 0 8 1, .doneCallback 0 7 1] ∧
    ¬s.queued.Pairwise fun x y =>
      y.moment = .unfinished → x.moment = .unfinished ∧ x.number < y.number := by
  have hexec : (((system 0).restrict fun _ _ => true).exec .new overtaking).map
      (fun s => decide ((s.completion.isSome = true ∧ s.handing = [] ∧ s.late = []) ∧
        s.registered = [⟨0, 7, 1, .unfinished⟩, ⟨1, 8, 1, .handover⟩] ∧
        s.soon = [.doneCallback 0 8 1, .doneCallback 0 7 1] ∧
        s.queued = [⟨1, 8, 1, .handover⟩, ⟨0, 7, 1, .unfinished⟩])) = some true := by decide
  obtain ⟨s, hs, hend⟩ := Transition.System.exists_reaches_of_exec rfl hexec
  obtain ⟨⟨hcompletion, hhanding, hlate⟩, hregistered, hsoon, hqueued⟩ := of_decide_eq_true hend
  refine ⟨s, hs, ⟨hcompletion, hhanding, hlate⟩, hregistered, hsoon, ?_⟩
  rw [hqueued]
  decide

end DoneCallbacks

end Rayo
