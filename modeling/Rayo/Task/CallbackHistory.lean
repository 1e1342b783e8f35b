import Mathlib.Data.List.Nodup
import Rayo.Task.Completion

/-!
# The done callbacks of one task

`finish`, `add_done_callback` and `remove_done_callback` each hold the lock of the task for one
section and call `call_soon` outside of it. Other threads, and Python code that those calls let run,
may therefore come between the sections. A history numbers the registrations, so that two of the
same callback stay apart, and each of them is in one place.
-/

namespace Rayo

open Asyncio

/-- When a callback was registered. -/
inductive Moment
  | unfinished
  /-- `finish` had taken the list and not yet handed all of it to `call_soon`. -/
  | handover
  | finished
  deriving DecidableEq

/-- A call of `add_done_callback` that got its context. -/
structure Registration where
  /-- The registrations before it. -/
  number : ℕ
  callback : Value
  context : Value
  moment : Moment
  deriving DecidableEq

/-- What the loop is to call for it, with the task as the argument. -/
def Registration.handle (t : TaskId) (r : Registration) : Handle :=
  .doneCallback t r.callback r.context

/-- The done callbacks of one task. -/
structure DoneCallbacks where
  /-- How the task was finished, if it was. -/
  completion : Option CompletionKind
  /-- `TaskState::done_callbacks`. -/
  doneCallbacks : List Registration
  /-- What `finish` took out of the state and has still to hand to `call_soon`. -/
  handing : List Registration
  /-- The calls of `add_done_callback` that found the task finished and are about to call
  `call_soon`. -/
  late : List Registration
  /-- What `call_soon` put into the queue of the loop, oldest first. -/
  soon : List Handle
  /-- History: all registrations. -/
  registered : List Registration
  /-- History: those that `remove_done_callback` took out of the state. -/
  removed : List Registration
  /-- History: those that were handed to `call_soon`, and whether it accepted them. -/
  handed : List (Registration × Bool)
  deriving DecidableEq

namespace DoneCallbacks

/-- A new task. -/
def new : DoneCallbacks where
  completion := none
  doneCallbacks := []
  handing := []
  late := []
  soon := []
  registered := []
  removed := []
  handed := []

/-- History: the registrations that were queued on the loop, oldest first. -/
def queued (s : DoneCallbacks) : List Registration := (s.handed.filter (·.2)).map (·.1)

/-- A registration that is made now is made at this moment. -/
def moment (s : DoneCallbacks) : Moment :=
  match s.completion, s.handing with
  | none, _ => .unfinished
  | some _, _ :: _ => .handover
  | some _, [] => .finished

/-- The call of `call_soon` for a registration. -/
def callSoon (t : TaskId) (accepted : Bool) (r : Registration) (s : DoneCallbacks) :
    DoneCallbacks :=
  { s with
    soon := if accepted then s.soon ++ [r.handle t] else s.soon
    handed := s.handed ++ [(r, accepted)] }

/-- The registration of a callback, when it is made now. -/
def registration (callback callbackContext : Value) (s : DoneCallbacks) : Registration where
  number := s.registered.length
  callback := callback
  context := callbackContext
  moment := s.moment

/-- `HandlerTask::add_done_callback`, up to the end of its locked section. Without a context of
its own the callback gets a copy of the current one, and the copy may fail. -/
def addDoneCallback (callback : Value) (context copied : Option Value) (s : DoneCallbacks) :
    DoneCallbacks :=
  match context.or copied with
  | none => s
  | some callbackContext =>
    let r := s.registration callback callbackContext
    let s := { s with registered := s.registered ++ [r] }
    if s.completion.isSome then { s with late := s.late ++ [r] }
    else { s with doneCallbacks := s.doneCallbacks ++ [r] }

/-- `existing_callback.eq(&callback).unwrap_or(false)`, where the comparison of a registered
callback with the argument may raise. -/
def equal (eq : Registration → Value → Option Bool) (callback : Value) (r : Registration) : Bool :=
  (eq r callback).getD false

/-- `HandlerTask::remove_done_callback`. -/
def removeDoneCallback (eq : Registration → Value → Option Bool) (callback : Value)
    (s : DoneCallbacks) : DoneCallbacks × ℕ :=
  let callbacksBefore := s.doneCallbacks.length
  let retained := s.doneCallbacks.filter fun r => !equal eq callback r
  ({ s with
      doneCallbacks := retained
      removed := s.removed ++ s.doneCallbacks.filter (· ∉ retained) },
    callbacksBefore - retained.length)

/-- The locked section of `HandlerTask::finish`. -/
def finish (completion : CompletionKind) (s : DoneCallbacks) : DoneCallbacks :=
  if s.completion.isSome then s
  else { s with completion := some completion, handing := s.doneCallbacks, doneCallbacks := [] }

/-- What happens to the done callbacks of a task. -/
inductive Event
  | add (callback : Value) (context copied : Option Value)
  /-- A late call of `add_done_callback` calls `call_soon`. -/
  | fireLate (r : Registration) (accepted : Bool)
  | remove (eq : Registration → Value → Option Bool) (callback : Value)
  | finish (completion : CompletionKind)
  /-- `finish` hands the next callback to `call_soon`, and prints the error if that raises. -/
  | fire (accepted : Bool)

/-- When an event can happen. -/
def enabled (s : DoneCallbacks) : Event → Bool
  | .add .. | .remove .. | .finish _ => true
  | .fireLate r _ => r ∈ s.late
  | .fire _ => !s.handing.isEmpty

/-- What an event does. -/
def effect (t : TaskId) (s : DoneCallbacks) : Event → DoneCallbacks
  | .add callback context copied => s.addDoneCallback callback context copied
  | .fireLate r accepted => callSoon t accepted r { s with late := s.late.erase r }
  | .remove eq callback => (s.removeDoneCallback eq callback).1
  | .finish completion => s.finish completion
  | .fire accepted => match s.handing with
    | [] => s
    | r :: rest => callSoon t accepted r { s with handing := rest }

/-- All runs of the done callbacks of a task. -/
def system (t : TaskId) : Transition.System DoneCallbacks Event where
  init := (· = .new)
  enabled := enabled
  effect := effect t

/-- Nothing is on its way to `call_soon` any more. -/
structure Settled (s : DoneCallbacks) : Prop where
  completion : s.completion.isSome = true
  handing : s.handing = []
  late : s.late = []

/-- A registration may be queued before another one. Those made while the task was unfinished keep
their order, and only one made during the handover gets in front of them. -/
def InOrder (x y : Registration) : Prop :=
  y.moment = .unfinished →
    (x.moment = .unfinished ∧ x.number < y.number) ∨ x.moment = .handover

/-- Every registration is in one place, and the places keep the order. -/
structure Sound (t : TaskId) (s : DoneCallbacks) : Prop where
  numbers : s.registered.map (·.number) = List.range s.registered.length
  accounted : (s.removed ++ s.late ++ s.handed.map (·.1) ++ s.handing ++ s.doneCallbacks).Perm
    s.registered
  soon : s.soon = s.queued.map (Registration.handle t)
  unfinished : s.completion = none → s.handing = [] ∧ s.late = [] ∧ s.handed = []
  finished : s.completion.isSome = true → s.doneCallbacks = []
  early : ∀ r ∈ s.handing ++ s.doneCallbacks, r.moment = .unfinished
  late : ∀ r ∈ s.late, r.moment ≠ .unfinished
  overtaking : s.handing ≠ [] → ∀ r ∈ s.late, r.moment = .handover
  ordered : (s.handed.map (·.1) ++ s.handing ++ s.doneCallbacks).Pairwise InOrder

variable {t : TaskId} {s : DoneCallbacks} {r : Registration}

/-- A new task has no registrations. -/
theorem Sound.new : Sound t .new := by
  constructor <;> simp [DoneCallbacks.new, queued]

/-- A registration with a task that has not completed is one with an unfinished task. -/
theorem moment_of_unfinished (h : s.completion = none) : s.moment = .unfinished := by
  simp [moment, h]

/-- A registration with a task that has completed is not one with an unfinished task. -/
theorem moment_of_finished (h : s.completion.isSome = true) : s.moment ≠ .unfinished := by
  obtain ⟨completion, hcompletion⟩ := Option.isSome_iff_exists.mp h
  cases hhanding : s.handing <;> simp [moment, hcompletion, hhanding]

/-- A registration while others are handed over is one during the handover. -/
theorem moment_of_handing (h : s.completion.isSome = true) (hhanding : s.handing ≠ []) :
    s.moment = .handover := by
  obtain ⟨completion, hcompletion⟩ := Option.isSome_iff_exists.mp h
  obtain ⟨r, rest, hrest⟩ := List.exists_cons_of_ne_nil hhanding
  simp [moment, hcompletion, hrest]

/-- A late registration lets every other one come first. -/
theorem inOrder_of_late (hr : r.moment ≠ .unfinished) (x : Registration) : InOrder x r :=
  fun hearly => absurd hearly hr

/-- The number of a registration is below how many there are. -/
theorem Sound.number_lt (h : s.Sound t) (hr : r ∈ s.registered) :
    r.number < s.registered.length := by
  have hmem : r.number ∈ s.registered.map (·.number) := List.mem_map_of_mem hr
  rw [h.numbers] at hmem
  exact List.mem_range.mp hmem

/-- Nothing but the callbacks in the state is on its way while the task is unfinished. -/
theorem Sound.doneCallbacks_of_unfinished (h : s.Sound t) (hunfinished : s.completion = none) :
    (s.removed ++ s.doneCallbacks).Perm s.registered := by
  obtain ⟨hhanding, hlate, hhanded⟩ := h.unfinished hunfinished
  simpa [hhanding, hlate, hhanded] using h.accounted

/-- A registration with an unfinished task. -/
theorem addDoneCallback_of_unfinished {context copied : Option Value} {callbackContext : Value}
    (hcontext : context.or copied = some callbackContext) (hunfinished : s.completion = none)
    (callback : Value) : s.addDoneCallback callback context copied =
      { s with
        registered := s.registered ++ [s.registration callback callbackContext]
        doneCallbacks := s.doneCallbacks ++ [s.registration callback callbackContext] } := by
  simp [addDoneCallback, hcontext, hunfinished]

/-- A registration with a finished task. -/
theorem addDoneCallback_of_finished {context copied : Option Value} {callbackContext : Value}
    (hcontext : context.or copied = some callbackContext) (hfinished : s.completion.isSome = true)
    (callback : Value) : s.addDoneCallback callback context copied =
      { s with
        registered := s.registered ++ [s.registration callback callbackContext]
        late := s.late ++ [s.registration callback callbackContext] } := by
  simp [addDoneCallback, hcontext, hfinished]

/-- Registrations are numbered in their order. -/
theorem Sound.numbers_add (h : s.Sound t) (callback callbackContext : Value) :
    (s.registered ++ [s.registration callback callbackContext]).map (·.number) =
      List.range (s.registered ++ [s.registration callback callbackContext]).length := by
  simp [h.numbers, List.range_succ, registration]

/-- While the task is unfinished a registration goes to the end of its list. -/
theorem Sound.add_unfinished (h : s.Sound t) (hunfinished : s.completion = none)
    (callback callbackContext : Value) :
    Sound t { s with
      registered := s.registered ++ [s.registration callback callbackContext]
      doneCallbacks := s.doneCallbacks ++ [s.registration callback callbackContext] } := by
  obtain ⟨hhanding, hlate, hhanded⟩ := h.unfinished hunfinished
  refine ⟨h.numbers_add callback callbackContext, ?_, h.soon, fun _ => ⟨hhanding, hlate, hhanded⟩,
    ?_, ?_, h.late, fun hne => absurd hhanding hne, ?_⟩
  · rw [← List.append_assoc]
    exact h.accounted.append_right _
  · intro hfinished
    simp [hunfinished] at hfinished
  · intro r hr
    rw [← List.append_assoc] at hr
    rcases List.mem_append.mp hr with hr | hr
    · exact h.early r hr
    · obtain rfl := List.mem_singleton.mp hr
      exact moment_of_unfinished hunfinished
  · rw [← List.append_assoc, List.pairwise_append]
    refine ⟨h.ordered, List.pairwise_singleton _ _, fun x hx y hy => ?_⟩
    obtain rfl := List.mem_singleton.mp hy
    have hin : x ∈ s.doneCallbacks := by simpa [hhanding, hhanded] using hx
    have hregistered : x ∈ s.registered :=
      (h.doneCallbacks_of_unfinished hunfinished).subset (List.mem_append_right _ hin)
    intro _
    left
    exact ⟨h.early x (List.mem_append_right _ hin), h.number_lt hregistered⟩

/-- Afterwards it is on its way to `call_soon` at once. -/
theorem Sound.add_finished (h : s.Sound t) (hfinished : s.completion.isSome = true)
    (callback callbackContext : Value) :
    Sound t { s with
      registered := s.registered ++ [s.registration callback callbackContext]
      late := s.late ++ [s.registration callback callbackContext] } := by
  refine ⟨h.numbers_add callback callbackContext, ?_, h.soon, ?_, h.finished, h.early, ?_, ?_,
    h.ordered⟩
  · rw [List.perm_iff_count]
    intro x
    have hcount := h.accounted.count_eq x
    simp only [List.count_append] at hcount ⊢
    omega
  · intro (hunfinished : s.completion = none)
    simp [hunfinished] at hfinished
  · intro r hr
    rcases List.mem_append.mp hr with hr | hr
    · exact h.late r hr
    · obtain rfl := List.mem_singleton.mp hr
      exact moment_of_finished hfinished
  · intro hhanding r hr
    rcases List.mem_append.mp hr with hr | hr
    · exact h.overtaking hhanding r hr
    · obtain rfl := List.mem_singleton.mp hr
      exact moment_of_handing hfinished hhanding

/-- A new registration keeps all of them in one place and in order. -/
theorem Sound.addDoneCallback (h : s.Sound t) (callback : Value) (context copied : Option Value) :
    (s.addDoneCallback callback context copied).Sound t := by
  cases hcontext : context.or copied with
  | none =>
    simp only [DoneCallbacks.addDoneCallback, hcontext]
    exact h
  | some callbackContext =>
    cases hcompletion : s.completion with
    | none =>
      rw [addDoneCallback_of_unfinished hcontext hcompletion]
      exact h.add_unfinished hcompletion callback callbackContext
    | some completion =>
      have hfinished : s.completion.isSome = true := by rw [hcompletion, Option.isSome_some]
      rw [addDoneCallback_of_finished hcontext hfinished]
      exact h.add_finished hfinished callback callbackContext

/-- A registration is queued if the loop accepts it. -/
theorem queued_callSoon (accepted : Bool) (r : Registration) (s : DoneCallbacks) :
    (callSoon t accepted r s).queued = s.queued ++ if accepted then [r] else [] := by
  cases accepted <;> simp [callSoon, queued]

/-- What the loop is to call are the queued registrations. -/
theorem Sound.soon_callSoon (h : s.soon = s.queued.map (Registration.handle t)) (accepted : Bool)
    (r : Registration) : (callSoon t accepted r s).soon =
      (callSoon t accepted r s).queued.map (Registration.handle t) := by
  rw [queued_callSoon]
  cases accepted <;> simp [callSoon, h]

/-- `finish` comes to the next callback of its list. -/
theorem Sound.fire (h : s.Sound t) {rest : List Registration} (hhanding : s.handing = r :: rest)
    (accepted : Bool) : (callSoon t accepted r { s with handing := rest }).Sound t := by
  have haccounted := h.accounted
  have hordered := h.ordered
  have hearly := h.early
  have hovertaking := h.overtaking (by simp [hhanding])
  rw [hhanding] at haccounted hordered hearly
  refine ⟨h.numbers, ?_, Sound.soon_callSoon h.soon accepted r, ?_, h.finished, ?_, h.late,
    fun _ => hovertaking, ?_⟩
  · simpa [callSoon] using haccounted
  · intro hunfinished
    simp [(h.unfinished hunfinished).1] at hhanding
  · intro x hx
    exact hearly x (List.mem_cons_of_mem r hx)
  · simpa [callSoon] using hordered

/-- A late call comes to its `call_soon`. -/
theorem Sound.fireLate (h : s.Sound t) (hr : r ∈ s.late) (accepted : Bool) :
    (callSoon t accepted r { s with late := s.late.erase r }).Sound t := by
  have hfinished : s.completion.isSome = true := by
    by_contra hnone
    have hlate := (h.unfinished (by simpa using hnone)).2.1
    simp [hlate] at hr
  have hempty := h.finished hfinished
  refine ⟨h.numbers, ?_, Sound.soon_callSoon h.soon accepted r, ?_, h.finished, h.early, ?_, ?_, ?_⟩
  · refine List.Perm.trans ?_ h.accounted
    rw [List.perm_iff_count]
    intro x
    have hcount := (List.perm_cons_erase hr).count_eq x
    have hcons := List.count_cons (b := r) (a := x) (l := s.late.erase r)
    simp only [callSoon, List.map_append, List.map_cons, List.map_nil, List.count_append,
      List.count_singleton] at *
    omega
  · intro hunfinished
    simp [(h.unfinished hunfinished).2.1] at hr
  · intro x hx
    exact h.late x (List.mem_of_mem_erase hx)
  · intro hhanding x hx
    exact h.overtaking hhanding x (List.mem_of_mem_erase hx)
  · have hordered := h.ordered
    simp only [callSoon, hempty, List.append_nil, List.map_append, List.map_cons,
      List.map_nil, List.append_assoc, List.singleton_append] at hordered ⊢
    rw [List.pairwise_append] at hordered ⊢
    obtain ⟨hbefore, hafter, hacross⟩ := hordered
    refine ⟨hbefore, List.pairwise_cons.mpr ⟨fun y hy _ => ?_, hafter⟩, fun x hx y hy => ?_⟩
    · exact .inr (h.overtaking (List.ne_nil_of_mem hy) r hr)
    · rcases List.mem_cons.mp hy with rfl | hy
      · exact inOrder_of_late (h.late y hr) x
      · exact hacross x hx y hy

/-- A task that finishes takes all its registrations along. -/
theorem Sound.finish (h : s.Sound t) (completion : CompletionKind) :
    (s.finish completion).Sound t := by
  unfold DoneCallbacks.finish
  split
  · exact h
  · next hcompletion =>
    have hunfinished : s.completion = none := by simpa using hcompletion
    obtain ⟨hhanding, hlate, hhanded⟩ := h.unfinished hunfinished
    refine ⟨h.numbers, ?_, h.soon, ?_, fun _ => rfl, ?_, h.late, ?_, ?_⟩
    · simpa [hhanding] using h.accounted
    · intro hnone
      simp at hnone
    · simpa [hhanding] using h.early
    · intro _ r hr
      simp [hlate] at hr
    · simpa [hhanding] using h.ordered

/-- What `retain` drops are the registrations that compare equal. -/
theorem filter_notMem_retained (p : Registration → Bool) (callbacks : List Registration) :
    callbacks.filter (· ∉ callbacks.filter fun r => !p r) = callbacks.filter p := by
  refine List.filter_congr fun r hr => ?_
  cases hp : p r <;> simp [hr, hp]

/-- What is removed leaves the others in one place and in order. -/
theorem Sound.removeDoneCallback (h : s.Sound t) (eq : Registration → Value → Option Bool)
    (callback : Value) : (s.removeDoneCallback eq callback).1.Sound t := by
  have hsublist := List.filter_sublist (p := fun r => !equal eq callback r) (l := s.doneCallbacks)
  refine ⟨h.numbers, ?_, h.soon, h.unfinished, ?_, ?_, h.late, h.overtaking, ?_⟩
  · refine List.Perm.trans ?_ h.accounted
    have hsplit := List.filter_append_perm (equal eq callback) s.doneCallbacks
    rw [List.perm_iff_count]
    intro x
    have hcount := hsplit.count_eq x
    simp only [DoneCallbacks.removeDoneCallback, filter_notMem_retained, List.count_append]
      at hcount ⊢
    omega
  · intro hfinished
    simp [DoneCallbacks.removeDoneCallback, h.finished hfinished]
  · intro r hr
    exact h.early r ((hsublist.append_left _).subset hr)
  · exact h.ordered.sublist (hsublist.append_left _)

/-- **One step** keeps every registration in one place and the places in order. -/
theorem Sound.effect (h : s.Sound t) {e : Event} (henabled : enabled s e = true) :
    (effect t s e).Sound t := by
  cases e with
  | add callback context copied => exact h.addDoneCallback callback context copied
  | fireLate r accepted => exact h.fireLate (of_decide_eq_true henabled) accepted
  | remove eq callback => exact h.removeDoneCallback eq callback
  | finish completion => exact h.finish completion
  | fire accepted =>
    cases hhanding : s.handing with
    | nil => simp [enabled, hhanding] at henabled
    | cons r rest =>
      simp only [DoneCallbacks.effect, hhanding]
      exact h.fire hhanding accepted

/-- On every run each registration is in one place, and the places are in order. -/
theorem sound (hreach : (system t).Reaches s) : s.Sound t :=
  hreach.invariant (fun _ hs => hs ▸ .new) fun _ _ h henabled => h.effect henabled

end DoneCallbacks

end Rayo
