import Rayo.Task.TaskHolders

/-!
# `live_tasks` by address

The map of live tasks is keyed by the address of the task object, and the memory of a task that
nobody refers to is used again. The tasks of a loop are run here together with that map. A task is
freed at any time after the last reference to it is gone, and a new one may get any address that
no task has that has not been freed.
-/

namespace Rayo

open Asyncio HandlerTask

/-- A loop with its map of live tasks. -/
structure Registries where
  base : Lifecycle
  /-- `task.as_ptr()` -/
  address : TaskId → ℕ
  /-- `LoopHandles::live_tasks` -/
  entries : ℕ → Option TaskId
  freed : List TaskId
  /-- History: every call of `unregister_task`. -/
  unregistrations : List TaskId

namespace Registries

/-- The events of a loop, with the addresses of new tasks and the end of old ones. -/
inductive Event
  | create (t : TaskId) (address : ℕ)
  | free (t : TaskId)
  | other (e : Lifecycle.Event)

/-- The task that a handle refers to. -/
def handleTask : Handle → TaskId
  | .step t _ | .wake t _ | .cancel t | .doneCallback t _ _ => t

/-- The task that an event uses, through a reference of a handle or of whoever makes a call. -/
def uses (s : Lifecycle) : Lifecycle.Event → Option TaskId
  | .run _ => s.loop.world.ready.head?.map handleTask
  | .act a => a.task
  | .setName t _ | .wake t _ | .dropRequest t | .finishAgain _ t _ _ => some t
  | _ => none

/-- The task that goes through a stage of its `finish` that satisfies `p`. -/
def performed (s : Lifecycle) (p : FinishStage → Bool) : Lifecycle.Event → Option TaskId
  | .finish _ => s.finishing.bind fun (t, stage, _) => if p stage then some t else none
  | .disposeFinish _ c => match s.stops c with
    | .finishing t stage _ => if p stage then some t else none
    | _ => none
  | _ => none

/-- The task whose entry an event removes, by its address. -/
def removed (s : Lifecycle) : Lifecycle.Event → Option TaskId
  | .refuse t => some t
  | e => performed s Lifecycle.isRemoveLive e

/-- The task that an event unregisters. -/
def unregistered (s : Lifecycle) (e : Lifecycle.Event) : Option TaskId :=
  performed s Lifecycle.isUnregister e

/-- The map after an event. -/
def entriesAfter (s : Registries) : Lifecycle.Event → ℕ → Option TaskId
  | .drain .. => fun _ => none
  | e => match removed s.base e with
    | some t => Function.update s.entries (s.address t) none
    | none => s.entries

section

variable (respond : Value → HandlerResponse)

/-- When an event can happen. -/
def enabled (s : Registries) : Event → Bool
  | .create t _ => Lifecycle.enabled respond s.base (.create t)
  | .free t => (s.base.loop.tasks t).isSome && decide (t ∉ s.freed)
  | .other (.create _) => false
  | .other e => Lifecycle.enabled respond s.base e

/-- What an event does. -/
def effect (s : Registries) : Event → Registries
  | .create t address =>
    { s with
      base := Lifecycle.effect respond s.base (.create t)
      address := Function.update s.address t address
      entries := Function.update s.entries address (some t) }
  | .free t => { s with freed := t :: s.freed }
  | .other e =>
    { s with
      base := Lifecycle.effect respond s.base e
      entries := s.entriesAfter e
      unregistrations := (unregistered s.base e).toList ++ s.unregistrations }

/-- A loop that has just been started. -/
structure Fresh (s : Registries) : Prop where
  base : Lifecycle.Fresh respond s.base
  entries : ∀ address, s.entries address = none
  freed : s.freed = []
  unregistrations : s.unregistrations = []

/-- All runs of a loop with its map. -/
def system : Transition.System Registries Event where
  init := Fresh respond
  enabled := enabled respond
  effect := effect respond

end

/-- References are counted: a new task has an address of its own, only a task that nothing holds is
freed, and only tasks that have not been freed are used. -/
def Counted (s : Registries) : Event → Prop
  | .create _ address => ∀ t, (s.base.loop.tasks t).isSome = true → t ∉ s.freed →
    s.address t ≠ address
  | .free t => ¬(Lifecycle.view s.base t).Held
  | .other e => ∀ t, uses s.base e = some t → t ∉ s.freed

/-- The map and the addresses agree with the tasks, in every run. -/
structure Addressed (s : Registries) : Prop where
  sound : s.base.Sound
  held : ∀ t, (Lifecycle.view s.base t).Held → t ∉ s.freed
  freed : ∀ t ∈ s.freed, (s.base.loop.tasks t).isSome = true
  apart : ∀ t t', (s.base.loop.tasks t).isSome = true → t ∉ s.freed →
    (s.base.loop.tasks t').isSome = true → t' ∉ s.freed → s.address t = s.address t' → t = t'
  entries : ∀ address t, s.entries address = some t ↔ t ∈ s.base.live ∧ s.address t = address

variable {respond : Value → HandlerResponse} {s : Registries} {e : Lifecycle.Event} {t : TaskId}

/-- It becomes the turn of the task of the oldest handle. -/
theorem run_running {s : Lifecycle} {faults : Faults}
    (henabled : Lifecycle.enabled respond s (.run faults) = true)
    (h : (Lifecycle.effect respond s (.run faults)).loop.running = some t) :
    uses s (.run faults) = some t := by
  simp only [Lifecycle.enabled, Loop.enabled, Bool.and_eq_true, Bool.not_eq_true',
    Option.isNone_iff_eq_none] at henabled
  obtain ⟨-, hidle, -⟩ := henabled
  cases hnext : Lifecycle.nextCancelled s.loop with
  | some next =>
    obtain ⟨t', k⟩ := next
    have hself : t' = t := by simpa [Lifecycle.effect, hnext] using h
    subst hself
    simp only [Lifecycle.nextCancelled, Option.bind_eq_bind, Option.bind_eq_some_iff,
      Option.ite_none_right_eq_some, Option.some.injEq, Prod.mk.injEq] at hnext
    obtain ⟨head, hhead, t'', hstepped, _, -, -, rfl, -⟩ := hnext
    cases head with
    | step t e => simpa [uses, hhead, handleTask, Lifecycle.stepped] using hstepped
    | wake t f => simpa [uses, hhead, handleTask, Lifecycle.stepped] using hstepped
    | cancel t => cases hstepped
    | doneCallback => cases hstepped
  | none =>
    have hdrive {w : World LoopHandles} {t' : TaskId} {g : HandlerTask.Local → HandlerTask.Local}
        (hrun : (Loop.drive (driver respond) { s.loop with world := w } t' g).running = some t) :
        t' = t := by
      unfold Loop.drive at hrun
      split at hrun
      · simp only [Option.ite_none_right_eq_some, Option.some.injEq] at hrun
        exact hrun.2
      · cases (hidle.symm.trans hrun)
    have hmodify {w : World LoopHandles} {t' : TaskId} {g : HandlerTask.Local → HandlerTask.Local}
        (hrun : (Loop.modify { s.loop with world := w } t' g).running = some t) : False := by
      unfold Loop.modify at hrun
      split at hrun
      · cases (hidle.symm.trans hrun)
      · cases (hidle.symm.trans hrun)
    simp only [Lifecycle.effect, hnext, Loop.effect] at h
    split at h
    · cases (hidle.symm.trans h)
    next head rest hready =>
    cases head with
    | step t' e => simpa [uses, hready, handleTask] using hdrive h
    | wake t' f => simpa [uses, hready, handleTask] using hdrive h
    | cancel t' => exact (hmodify h).elim
    | doneCallback => cases (hidle.symm.trans h)

/-- A view performs a stage of `finish` exactly if its task does. -/
theorem view_performs {s : Lifecycle} {p : FinishStage → Bool} :
    (Lifecycle.view s t).performs p e = true ↔ performed s p e = some t := by
  cases e with
  | finish faults =>
    simp only [Lifecycle.View.performs, performed, Lifecycle.view]
    cases hfinishing : s.finishing with
    | none => simp
    | some finishing =>
      obtain ⟨t', stage, entered⟩ := finishing
      by_cases ht : t' = t <;> simp [ht]
  | disposeFinish faults c =>
    simp only [Lifecycle.View.performs, performed, Lifecycle.view]
    cases hstop : s.stops c with
    | finishing t' stage rest =>
      by_cases ht : t' = t
      · simp [Lifecycle.disposalOf, ht]
      · by_cases hmem : t ∈ rest <;> simp [Lifecycle.disposalOf, ht, hmem]
    | disposing rest => by_cases hmem : t ∈ rest <;> simp [Lifecycle.disposalOf, hmem]
    | closing t' rest =>
      by_cases ht : t' = t <;> by_cases hmem : t ∈ rest <;> simp [Lifecycle.disposalOf, ht, hmem]
    | _ => simp [Lifecycle.disposalOf]
  | _ => simp [Lifecycle.View.performs, performed]

/-- A view removes its task exactly if the event does. -/
theorem view_removes {s : Lifecycle} : (Lifecycle.view s t).removes t e = true ↔
    removed s e = some t := by
  cases e with
  | refuse t' => simp [Lifecycle.View.removes, removed]
  | _ => simpa only [Lifecycle.View.removes, removed] using view_performs

/-- What a stage of a `finish` on the loop thread leaves. -/
theorem finish_effect {s : Lifecycle} {faults : Faults} {stage : FinishStage} {entered : Bool}
    {k : HandlerTask} (next : FinishStage) (hfinishing : s.finishing = some (t, stage, entered))
    (htask : s.loop.tasks t = some k)
    (hnext : (stage.advance faults t ⟨s.loop.world, k⟩).2 = some next) :
    Lifecycle.effect respond s (.finish faults) =
      { (s.work faults t stage).1 with finishing := some (t, next, entered) } := by
  have hwork : (s.work faults t stage).2 = some next := by
    rw [Lifecycle.work_of_task _ _ htask]
    exact hnext
  simp only [Lifecycle.effect, hfinishing, hwork]

/-- What a stage of a `finish` in a `stop` call leaves. -/
theorem disposeFinish_effect {s : Lifecycle} {faults : Faults} {stage : FinishStage}
    {c : StopId} {rest : List TaskId} {k : HandlerTask} (next : FinishStage)
    (hstop : s.stops c = .finishing t stage rest) (htask : s.loop.tasks t = some k)
    (hnext : (stage.advance faults t ⟨s.loop.world, k⟩).2 = some next) :
    Lifecycle.effect respond s (.disposeFinish faults c) =
      (s.work faults t stage).1.setStop c (.finishing t next rest) := by
  have hwork : (s.work faults t stage).2 = some next := by
    rw [Lifecycle.work_of_task _ _ htask]
    exact hnext
  simp only [Lifecycle.effect, hstop, hwork, Option.elim_some]

/-- The task of a `finish` that is under way exists. -/
theorem performed_task {s : Lifecycle} (htidy : Lifecycle.Tidy s) {p : FinishStage → Bool}
    (h : performed s p e = some t) :
    (∃ k, s.loop.tasks t = some k) ∧ ∃ faults stage, p stage = true ∧
      ((e = .finish faults ∧ ∃ entered, s.finishing = some (t, stage, entered)) ∨
        ∃ c rest, e = .disposeFinish faults c ∧ s.stops c = .finishing t stage rest) := by
  cases e with
  | finish faults =>
    simp only [performed, Option.bind_eq_some_iff, Option.ite_none_right_eq_some,
      Option.some.injEq] at h
    obtain ⟨⟨t', stage, entered⟩, hfinishing, hp, rfl⟩ := h
    have htask := (htidy.finishing _ _ _ hfinishing).2
    exact ⟨Option.isSome_iff_exists.mp htask, faults, stage, hp, .inl ⟨rfl, entered, hfinishing⟩⟩
  | disposeFinish faults c =>
    cases hstop : s.stops c with
    | finishing t' stage rest =>
      simp only [performed, hstop, Option.ite_none_right_eq_some, Option.some.injEq] at h
      obtain ⟨hp, rfl⟩ := h
      have htask := htidy.stops_task c t' (by rw [hstop]; exact List.mem_cons_self)
      exact ⟨Option.isSome_iff_exists.mp htask, faults, stage, hp, .inr ⟨c, rest, rfl, hstop⟩⟩
    | _ => simp [performed, hstop] at h
  | _ => cases h

/-- A task is unregistered once in its `finish`. -/
theorem unregister_moved {s : Lifecycle} (htidy : Lifecycle.Tidy s)
    (h : (Lifecycle.view s t).performs Lifecycle.isUnregister e = true) :
    (Lifecycle.view (Lifecycle.effect respond s e) t).performs Lifecycle.isUnregister e =
      false := by
  obtain ⟨⟨k, htask⟩, faults, stage, hstage, ⟨rfl, entered, hfinishing⟩ | ⟨c, rest, rfl, hstop⟩⟩ :=
    performed_task htidy (view_performs.mp h)
  · obtain ⟨response, callbacks, rfl⟩ : ∃ response callbacks,
        stage = .unregister response true callbacks := by
      rcases stage with _ | _ | ⟨_, _ | _, _⟩ | _ | _ | _ | _ <;>
        first | exact ⟨_, _, rfl⟩ | cases hstage
    rw [finish_effect (.fire response callbacks) hfinishing htask rfl]
    simp [Lifecycle.View.performs, Lifecycle.view, Lifecycle.isUnregister]
  · obtain ⟨response, callbacks, rfl⟩ : ∃ response callbacks,
        stage = .unregister response true callbacks := by
      rcases stage with _ | _ | ⟨_, _ | _, _⟩ | _ | _ | _ | _ <;>
        first | exact ⟨_, _, rfl⟩ | cases hstage
    rw [disposeFinish_effect (.fire response callbacks) hstop htask rfl]
    simp [Lifecycle.View.performs, Lifecycle.view, Lifecycle.isUnregister, Lifecycle.setStop,
      Lifecycle.disposalOf]

/-- A task whose entry is removed is not live any more. -/
theorem removed_live {s : Lifecycle} (hsound : s.Sound)
    (henabled : Lifecycle.enabled respond s e = true) (h : removed s e = some t) :
    t ∉ (Lifecycle.effect respond s e).live := by
  by_cases hrefuse : e = .refuse t
  · subst hrefuse
    have hinserted : s.schedules t = .inserted := by simpa [Lifecycle.enabled] using henabled
    obtain ⟨k, htask⟩ := Option.isSome_iff_exists.mp (hsound.tidy.inserted_task t hinserted)
    simp [Lifecycle.live, Lifecycle.effect, Lifecycle.modify_of_task htask, Loop.put,
      Lifecycle.refusal, Lifecycle.send_live, removeLive]
  · have hperformed : performed s Lifecycle.isRemoveLive e = some t := by
      cases e with
      | refuse t' =>
        obtain rfl : t' = t := Option.some.inj h
        exact absurd rfl hrefuse
      | _ => exact h
    obtain ⟨⟨k, htask⟩, faults, stage, hstage, hcase⟩ := performed_task hsound.tidy hperformed
    obtain ⟨response, wasRegistered, callbacks, rfl⟩ : ∃ response wasRegistered callbacks,
        stage = .removeLive response wasRegistered callbacks := by
      cases stage <;> first | exact ⟨_, _, _, rfl⟩ | cases hstage
    have hlive : t ∉ (s.work faults t (.removeLive response wasRegistered callbacks)).1.live := by
      rw [Lifecycle.work_of_task _ _ htask]
      simp [Lifecycle.live, FinishStage.advance, Loop.put, removeLive]
    rcases hcase with ⟨rfl, entered, hfinishing⟩ | ⟨c, rest, rfl, hstop⟩
    · rw [finish_effect (.unregister response wasRegistered callbacks) hfinishing htask rfl]
      exact hlive
    · rw [disposeFinish_effect (.unregister response wasRegistered callbacks) hstop htask rfl]
      exact hlive

/-- Whoever gets hold of a task creates it or uses it. -/
theorem held_before {s : Lifecycle} (hsound : s.Sound)
    (henabled : Lifecycle.enabled respond s e = true)
    (h : (Lifecycle.view (Lifecycle.effect respond s e) t).Held) :
    (Lifecycle.view s t).Held ∨ e = .create t ∨ uses s e = some t := by
  rcases Lifecycle.progress hsound.tidy henabled t with hstep | hnothing
  · rcases hstep.held h with hbefore | hcreate | ⟨hrunning, faults, rfl⟩
    · exact .inl hbefore
    · exact .inr (.inl hcreate)
    · exact .inr (.inr (run_running henabled (of_decide_eq_true hrunning)))
  · exact .inl (hnothing ▸ h)

/-- A task whose entry is removed is held by whoever removes it. -/
theorem removed_held {s : Lifecycle} (hsound : s.Sound)
    (henabled : Lifecycle.enabled respond s e = true) (h : removed s e = some t) :
    (Lifecycle.view s t).Held := by
  by_cases hrefuse : e = .refuse t
  · subst hrefuse
    have hinserted : s.schedules t = .inserted := by simpa [Lifecycle.enabled] using henabled
    exact .inr (.inl hinserted)
  · have hperformed : performed s Lifecycle.isRemoveLive e = some t := by
      cases e with
      | refuse t' =>
        obtain rfl : t' = t := Option.some.inj h
        exact absurd rfl hrefuse
      | _ => exact h
    obtain ⟨-, faults, stage, -, ⟨-, entered, hfinishing⟩ | ⟨c, rest, -, hstop⟩⟩ :=
      performed_task hsound.tidy hperformed
    · have hrunning := (hsound.tidy.finishing _ _ _ hfinishing).1
      exact .inr (.inr (.inl (decide_eq_true hrunning)))
    · refine .inr (.inr (.inr ⟨c, ?_⟩))
      simp only [Lifecycle.view, hstop, Lifecycle.disposalOf, if_true]
      rintro ⟨⟩

/-- The live tasks after an event other than a creation. -/
theorem live_after {s : Lifecycle} (hsound : s.Sound)
    (henabled : Lifecycle.enabled respond s e = true) (hcreate : e ≠ .create t)
    (hdrain : ∀ c order, e ≠ .drain c order) :
    t ∈ (Lifecycle.effect respond s e).live ↔ t ∈ s.live ∧ removed s e ≠ some t := by
  constructor
  · intro hlive
    refine ⟨?_, fun hremoved => removed_live hsound henabled hremoved hlive⟩
    rcases Lifecycle.progress hsound.tidy henabled t with hstep | hnothing
    · rcases hstep.live (decide_eq_true hlive) with hbefore | he
      · exact of_decide_eq_true hbefore
      · exact absurd he hcreate
    · exact of_decide_eq_true ((congrArg Lifecycle.View.live hnothing).symm.trans
        (decide_eq_true hlive))
  · rintro ⟨hlive, hremoved⟩
    rcases Lifecycle.progress hsound.tidy henabled t with hstep | hnothing
    · rcases hstep.live_of_live (decide_eq_true hlive) with hafter | hremoves | ⟨c, order, he⟩
      · exact of_decide_eq_true hafter
      · exact absurd (view_removes.mp hremoves) hremoved
      · exact absurd he (hdrain c order)
    · exact of_decide_eq_true ((congrArg Lifecycle.View.live hnothing).trans
        (decide_eq_true hlive))

/-- No other event creates or forgets a task. -/
theorem task_after {s : Lifecycle} (hsound : s.Sound)
    (henabled : Lifecycle.enabled respond s e = true) (hcreate : e ≠ .create t) :
    ((Lifecycle.effect respond s e).loop.tasks t).isSome = true ↔
      (s.loop.tasks t).isSome = true := by
  rcases Lifecycle.progress hsound.tidy henabled t with hstep | hnothing
  · exact ⟨fun h => (hstep.task_new h).resolve_right hcreate, hstep.task_stays⟩
  · rw [show (Lifecycle.effect respond s e).loop.tasks t = s.loop.tasks t from
      congrArg Lifecycle.View.task hnothing]

end Registries

end Rayo
