import Rayo.Task.Sections

/-!
# The lock of a task

Only comparisons of registered callbacks and finalizers run under the lock of a task, and a thread
asks for a lock that it has exactly if one of them calls back. Without interference the sections of
a method do what the method does.
-/

namespace Rayo.OwnLock

open Asyncio HandlerTask Guarded

/-- A section that runs no Python code. -/
def Section.silent : Section → Bool
  | .read | .registered | .absorbed | .deferCancel | .uncancel | .addDoneCallback .. => true
  | .turn _ | .start .. | .park _ | .unpark _ | .badYield _ | .finish _ | .requestCancel _
  | .setName _ | .removeDoneCallback .. => false

/-- A silent section runs no Python code. -/
theorem Section.hooks_of_silent {sect : Section} (h : sect.silent = true) (st : TaskState) :
    sect.hooks st = [] := by
  cases sect <;> first | rfl | cases h

/-- The objects that the state of a task refers to and may let go of. -/
def objects (st : TaskState) : List Held :=
  (st.coroutine.map Held.value).toList ++ (st.context.map Held.value).toList ++
    (st.waitingOn.map Held.future).toList ++ (st.deferredThrow.map Held.exception).toList ++
    (st.cancelMessage.map Held.value).toList ++ (st.name.map Held.value).toList ++
    (st.cancelledMessage.map Held.value).toList ++ (st.storedResult.map Held.value).toList ++
    (st.storedException.map Held.exception).toList ++
    st.doneCallbacks.flatMap fun entry => [.value entry.1, .value entry.2]

/-- The code belongs to an object that the state refers to. -/
def Hook.About (st : TaskState) : Hook → Prop
  | .compare existing _ => existing ∈ st.doneCallbacks.map Prod.fst
  | .finalize o => o ∈ objects st

/-- What is let go may run a finalizer. -/
theorem Section.mem_letGo {o kept : Option Held} {h : Hook} (hh : h ∈ letGo o kept) :
    ∃ x ∈ o.toList, h = .finalize x := by
  unfold letGo at hh
  split at hh
  · cases hh
  · cases o with
    | none => cases hh
    | some x => exact ⟨x, List.mem_singleton.mpr rfl, List.mem_singleton.mp hh⟩

/-- **Only comparisons of registered callbacks and finalizers run under the lock.** -/
theorem Section.about_of_mem_hooks {sect : Section} {st : TaskState} {h : Hook}
    (hh : h ∈ sect.hooks st) : h.About st := by
  have hletGo : ∀ {o kept : Option Held}, h ∈ letGo o kept → (∀ x ∈ o.toList, x ∈ objects st) →
      h.About st := by
    intro o kept hmem hobjects
    obtain ⟨x, hx, rfl⟩ := mem_letGo hmem
    exact hobjects x hx
  have hobjects : ∀ {x : Held}, x ∈ objects st ↔ x ∈ objects st := .rfl
  conv at hobjects => enter [x, 2]; simp only [objects, List.mem_append]
  cases sect with
  | turn finishedFuture =>
    simp only [hooks] at hh
    split at hh
    · cases hh
    · exact hletGo hh fun x hx => by simp only [hobjects, hx, true_or, or_true]
  | start coroutine context =>
    rcases List.mem_append.mp hh with hh | hh
    · exact hletGo hh fun x hx => by simp only [hobjects, hx, true_or]
    · exact hletGo hh fun x hx => by simp only [hobjects, hx, true_or, or_true]
  | park f => exact hletGo hh fun x hx => by simp only [hobjects, hx, true_or, or_true]
  | unpark f => exact hletGo hh fun x hx => by simp only [hobjects, hx, true_or, or_true]
  | badYield e => exact hletGo hh fun x hx => by simp only [hobjects, hx, true_or, or_true]
  | finish completion =>
    simp only [hooks] at hh
    split at hh
    · cases hh
    · rcases List.mem_append.mp hh with hh | hh
      · rcases List.mem_append.mp hh with hh | hh
        · exact hletGo hh fun x hx => by simp only [hobjects, hx, true_or, or_true]
        · exact hletGo hh fun x hx => by simp only [hobjects, hx, true_or, or_true]
      · cases completion with
        | returned value =>
          exact hletGo hh fun x hx => by simp only [hobjects, hx, true_or, or_true]
        | raised e => exact hletGo hh fun x hx => by simp only [hobjects, hx, true_or, or_true]
        | cancelled message =>
          exact hletGo hh fun x hx => by simp only [hobjects, hx, true_or, or_true]
        | aborted => cases hh
  | requestCancel message =>
    simp only [hooks] at hh
    split at hh
    · cases hh
    · exact hletGo hh fun x hx => by simp only [hobjects, hx, true_or, or_true]
  | setName name => exact hletGo hh fun x hx => by simp only [hobjects, hx, true_or, or_true]
  | removeDoneCallback callback equal =>
    simp only [hooks, List.mem_flatMap, List.mem_cons] at hh
    obtain ⟨entry, hentry, rfl | hh⟩ := hh
    · exact List.mem_map_of_mem hentry
    · have hin : ∀ x ∈ [Held.value entry.1, .value entry.2], x ∈ objects st := by
        intro x hx
        refine hobjects.mpr (.inr (List.mem_flatMap.mpr ⟨entry, hentry, hx⟩))
      split at hh
      · rcases List.mem_append.mp hh with hh | hh
        · exact hletGo hh fun x hx => hin x (by simp_all)
        · exact hletGo hh fun x hx => hin x (by simp_all)
      · cases hh
  | _ => cases hh

/-- The sections of the accessors are silent, and so are those of `uncancel`, of
`add_done_callback`, and of what re-applies a cancellation after a step. -/
def Method.silent : Method → Bool
  | .uncancel | .cancelling | .done | .cancelled | .getLoop | .getCoro | .getContext | .getName
  | .result | .exception | .addDoneCallback .. => true
  | .call _ | .cancel _ | .setName _ | .removeDoneCallback .. | .dispose => false

/-- All sections of a program run no Python code. -/
abbrev Silent {α : Type} (code : Code α) : Prop :=
  Prog.Within (fun sect : Section => sect.silent = true) code

/-- A call outside the lock is silent. -/
theorem silent_unlocked (c : Call) : Silent (unlocked c) := .call fun _ => .done _

/-- An accessor is silent. -/
theorem silent_accessor {α : Type} (field : TaskState → α) : Silent (returning (accessor field)) :=
  .locked rfl fun _ => .done _

/-- `add_done_callback` is silent. -/
theorem silent_addDoneCallback (callback : Value) (context : Option Value) :
    Silent (addDoneCallback callback context) := by
  have hregister : ∀ callbackContext : Value, Silent (do
      let st ← locked (.addDoneCallback callback callbackContext)
      if st.finished then unlocked (.fire callback callbackContext) else return .ok ()) := by
    intro callbackContext
    rw [locked_bind]
    refine .locked rfl fun st => ?_
    split
    · exact silent_unlocked _
    · exact .done _
  unfold addDoneCallback
  cases context with
  | none =>
    dsimp only
    refine .call fun copied => ?_
    cases copied with
    | error e => exact .done _
    | ok callbackContext => exact hregister callbackContext
  | some explicitContext => exact hregister explicitContext

/-- The code of a silent method is silent. -/
theorem Method.silent_code {m : Method} (h : m.silent = true) : Silent m.code := by
  cases m with
  | uncancel => exact .locked rfl fun _ => .done _
  | getLoop => exact .done _
  | addDoneCallback callback context =>
    exact .bind (silent_addDoneCallback callback context) fun _ => .done _
  | cancelling => exact silent_accessor _
  | done => exact silent_accessor _
  | cancelled => exact silent_accessor _
  | getCoro => exact silent_accessor _
  | getContext => exact silent_accessor _
  | getName => exact silent_accessor _
  | result => exact silent_accessor _
  | exception => exact silent_accessor _
  | _ => cases h

section

variable {faults : Faults} {t : TaskId} {l : Local} (replies : ∀ c, Reply c)

/-- A printed error leaves the state as it is. -/
@[simp] theorem run_printError (reply : Except Exception Unit) (st : TaskState) :
    ((printError reply).run replies st).1 = st := by
  cases reply <;> rfl

/-- Callbacks that are fired leave the state as it is. -/
@[simp] theorem run_fireCallbacks (callbacks : List (Value × Value)) (st : TaskState) :
    ((fireCallbacks callbacks).run replies st).1 = st := by
  induction callbacks generalizing st with
  | nil => rfl
  | cons entry rest ih =>
    obtain ⟨callback, context⟩ := entry
    simp [fireCallbacks, Prog.run_bind, ih, unlocked]

/-- The sections of `finish` leave the state as the turn does. -/
theorem run_finish (response : HandlerResponse) (completion : CompletionKind) :
    ((finish completion).run replies l.task.state).1 =
      (HandlerTask.finish faults t response completion l).task.state := by
  cases hfinished : l.task.state.finished with
  | true => simp [finish, Section.effect, HandlerTask.finish, hfinished]
  | false =>
    rw [(finish_task faults t response completion hfinished).1]
    cases hregistered : l.task.state.registeredWithAsyncio <;>
      simp [finish, Section.effect, hfinished, hregistered, Prog.run_bind, unlocked]

/-- The sections of `cancel` leave the state as the method does on the loop. -/
theorem run_cancel (message : Option Value)
    (hreply : ∀ f, replies (.cancelFuture f message) = .ok (l.world.acceptsCancel f)) :
    ((cancel message).run replies l.task.state).1 =
      (HandlerTask.cancel t message l).1.task.state := by
  cases hfinished : l.task.state.finished with
  | true =>
    simp [cancel, Section.effect, HandlerTask.cancel, hfinished]
  | false =>
    cases hwaiting : l.task.state.waitingOn with
    | none =>
      rw [cancel_of_none hfinished hwaiting]
      simp [cancel, Section.effect, hfinished, hwaiting, countRequest]
    | some f =>
      cases haccept : l.world.acceptsCancel f with
      | true =>
        rw [cancel_of_accepts hfinished hwaiting haccept]
        simp [cancel, Section.effect, hfinished, hwaiting, hreply, haccept, countRequest, unlocked]
      | false =>
        rw [cancel_of_refuses hfinished hwaiting haccept]
        simp [cancel, Section.effect, hfinished, hwaiting, hreply, haccept, countRequest, unlocked]

/-- The section of `uncancel` leaves the state as the method does on the loop. -/
theorem run_uncancel (k : HandlerTask) :
    ((locked .uncancel).run replies k.state).1 = (HandlerTask.uncancel k).1.state := rfl

/-- The sections of `add_done_callback` leave the state as the method does on the loop. -/
theorem run_addDoneCallback (callback context : Value) :
    ((addDoneCallback callback (some context)).run replies l.task.state).1 =
      (HandlerTask.addDoneCallback t callback context l).task.state := by
  cases hfinished : l.task.state.finished <;>
    simp [addDoneCallback, Section.effect, HandlerTask.addDoneCallback, hfinished, unlocked]

/-- A callback is equal to itself only. -/
theorem run_removeDoneCallback (callback : Value) (k : HandlerTask) :
    ((removeDoneCallback callback fun existing => some (existing = callback)).run replies
      k.state).1 = (HandlerTask.removeDoneCallback callback k).state := by
  simp [removeDoneCallback, Section.effect, Section.removes, HandlerTask.removeDoneCallback]

end

/-- All runs of a thread that uses a task. The hooks that talk may call its methods. -/
def system (talks : Hook → Bool) :
    Transition.System (Guarded.Thread interface) (Guarded.Event interface Method) :=
  Guarded.Thread.system talks Method.code

/-- The start of a thread that uses this task. -/
def outside (st : TaskState) : Guarded.Thread interface := ⟨st, false, []⟩

/-- **The lock of a task is asked for once.** In a run that enters no section with a comparison or
a finalizer that calls back, no thread waits for the lock that it has. Such a section would lead
to a thread that does. -/
theorem never_stuck_of_quiet {talks : Hook → Bool} {s : Guarded.Thread interface}
    (hreach : (system talks).ReachesUnder (Guarded.Thread.EntersQuietly talks) s) :
    ¬s.Stuck ∧ ∀ sect : Section, s.Enters sect → ∀ h ∈ sect.hooks s.state,
      h.About s.state ∧
        (talks h = true → ∃ es s', (system talks).exec s es = some s' ∧ s'.Stuck) := by
  refine ⟨Guarded.Thread.not_stuck_of_quiet hreach, fun sect henters h hh => ?_⟩
  refine ⟨Section.about_of_mem_hooks hh, fun htalks => ?_⟩
  have hdone : Method.code .done = .locked .read fun _ => .done () := rfl
  exact Guarded.Thread.stuck_of_talking henters hh htalks hdone

/-- **The silent methods are safe.** Whatever comparisons and finalizers do, a thread that calls
nothing else never waits for the lock that it has. -/
theorem not_stuck_of_silent {talks : Hook → Bool} {s : Guarded.Thread interface}
    (hreach : (system talks).ReachesUnder (fun _ e => ∀ m, e = .call m → m.silent = true) s) :
    ¬s.Stuck := by
  refine Guarded.Thread.not_stuck_of_quiet (hreach.mono fun s e hprefix _ _ => ?_)
  cases e with
  | step =>
    intro sect henters h hh
    have hwithin := hprefix.mono fun _ _ _ hsilent _ m hm => Method.silent_code (hsilent m hm)
    have hsilent : sect.silent = true := Guarded.Thread.enters_of_within hwithin henters
    have hnone : sect.hooks s.state = [] := Section.hooks_of_silent hsilent s.state
    have hmem : h ∈ sect.hooks s.state := hh
    rw [hnone] at hmem
    cases hmem
  | _ => trivial

/-- A callback is registered, and `remove_done_callback` is called for another one. -/
def removing : List (Guarded.Event interface Method) :=
  [.call (.addDoneCallback 7 (some 1)), .step, .step, .step,
    .call (.removeDoneCallback 8 fun _ => some false), .step, .step]

/-- A run that holds the lock is not stuck as long as nothing compares. -/
theorem never_stuck_of_quiet_removing : ∃ s, (system fun _ => false).Reaches s ∧
    s.held = true ∧ ¬s.Stuck := by
  let s : Guarded.Thread interface :=
    { state := { TaskState.default with doneCallbacks := [(7, 1)] }
      held := true
      stack := [.hook (.compare 7 8), .holding [] (.done ())] }
  have hexec : (system fun _ => false).exec (outside .default) removing = some s := rfl
  have hreach : (system fun _ => false).Reaches s :=
    Transition.System.Reaches.exec (.init ⟨rfl, rfl⟩) hexec
  have hquiet : (system fun _ => false).ReachesUnder
      (Guarded.Thread.EntersQuietly fun _ => false) s :=
    hreach.mono fun s e _ _ _ => by cases e <;> simp [Guarded.Thread.EntersQuietly]
  exact ⟨s, hreach, rfl, (never_stuck_of_quiet hquiet).1⟩

/-- The comparison of the registered callback asks whether the task is done. -/
theorem stuck_in_comparison : ∃ s, (system (· = .compare 7 8)).Reaches s ∧ s.Stuck := by
  have hexec : ∃ s, (system (· = .compare 7 8)).exec (outside .default)
      (removing ++ [.call .done]) = some s ∧ s.Stuck := ⟨_, rfl, .read, _, _, rfl, rfl⟩
  obtain ⟨s, hexec, hstuck⟩ := hexec
  exact ⟨s, Transition.System.Reaches.exec (.init ⟨rfl, rfl⟩) hexec, hstuck⟩

end Rayo.OwnLock
