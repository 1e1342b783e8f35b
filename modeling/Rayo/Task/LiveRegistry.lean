import Rayo.Task.AddressMap

/-!
# Both registries of live tasks

A task is in `live_tasks` from its insertion until `finish`, a refusal or a `stop` call removes it,
and in asyncio's registry from its first step until `finish` unregisters it, which happens at most
once. When nothing is left to do, both are empty.
-/

namespace Rayo

open Asyncio HandlerTask

namespace Registries

variable {respond : Value → HandlerResponse} {s : Registries} {e : Lifecycle.Event} {t : TaskId}

/-- Asyncio accepts what the event asks of its registry. -/
def registrySucceeds : Event → Bool
  | .other e => Lifecycle.registrySucceeds e
  | _ => true

/-- The loop thread has ended before a `stop` call empties the map. -/
def drainsAfterEnd (s : Registries) : Event → Bool
  | .other e => Lifecycle.disposesAfterEnd s.base e
  | _ => true

/-- What the registries show of every task. -/
structure Registered (s : Registries) : Prop where
  addressed : Addressed s
  orderly : ∀ t, (Lifecycle.view s.base t).Orderly
  admitted : ∀ t, (Lifecycle.view s.base t).Admitted
  enrolled : ∀ t, Lifecycle.Enrolled (Lifecycle.view s.base t) (s.unregistrations.count t)

/-- What an event of the base does to the registries of one task. -/
theorem enrolled_after {s : Lifecycle} {n : ℕ} (hsound : s.Sound)
    (henabled : Lifecycle.enabled respond s e = true) (horderly : (Lifecycle.view s t).Orderly)
    (hsucceeds : Lifecycle.registrySucceeds e = true)
    (hdrains : Lifecycle.disposesAfterEnd s e = true)
    (h : Lifecycle.Enrolled (Lifecycle.view s t) n) :
    Lifecycle.Enrolled (Lifecycle.view (Lifecycle.effect respond s e) t)
      (n + ((Lifecycle.view s t).performs Lifecycle.isUnregister e).toNat) := by
  have hmoved : (Lifecycle.view s t).performs Lifecycle.isUnregister e = true →
      (Lifecycle.view (Lifecycle.effect respond s e) t).performs Lifecycle.isUnregister e = false :=
    unregister_moved hsound.tidy
  have hpermitted : (Lifecycle.view s t).Spares e :=
    Lifecycle.spares_of_disposesAfterEnd hdrains t
  rcases Lifecycle.progress hsound.tidy henabled t with hstep | hnothing
  · exact hstep.enrolled (hsound.placed t) horderly hsucceeds hpermitted hmoved h
  · rw [hnothing] at hmoved ⊢
    have hnot : (Lifecycle.view s t).performs Lifecycle.isUnregister e = false := by
      by_contra htrue
      exact htrue (hmoved (by simpa using htrue))
    simpa [hnot] using h

/-- **One step** keeps what a view shows of stop calls that drain after the end. -/
theorem orderly_after {s : Lifecycle} (hsound : s.Sound)
    (henabled : Lifecycle.enabled respond s e = true) (horderly : (Lifecycle.view s t).Orderly)
    (hdrains : Lifecycle.disposesAfterEnd s e = true) :
    (Lifecycle.view (Lifecycle.effect respond s e) t).Orderly := by
  rcases Lifecycle.progress hsound.tidy henabled t with hstep | hnothing
  · exact hstep.orderly horderly (Lifecycle.spares_of_disposesAfterEnd hdrains t)
  · exact hnothing ▸ horderly

/-- **One step** keeps what a view shows of the call of `schedule`. -/
theorem admitted_after {s : Lifecycle} (hsound : s.Sound)
    (henabled : Lifecycle.enabled respond s e = true) (h : (Lifecycle.view s t).Admitted) :
    (Lifecycle.view (Lifecycle.effect respond s e) t).Admitted := by
  rcases Lifecycle.progress hsound.tidy henabled t with hstep | hnothing
  · exact hstep.admitted h
  · exact hnothing ▸ h

/-- **One step** keeps what the registries show of every task. -/
theorem Registered.effect {e : Event} (h : Registered s) (hcounted : Counted s e)
    (hsucceeds : registrySucceeds e = true) (hdrains : drainsAfterEnd s e = true)
    (henabled : enabled respond s e = true) : Registered (effect respond s e) := by
  refine ⟨h.addressed.effect hcounted henabled, fun t => ?_, fun t => ?_, fun t => ?_⟩
  · cases e with
    | create t' address => exact orderly_after h.addressed.sound henabled (h.orderly t) rfl
    | free t' => exact h.orderly t
    | other e =>
      exact orderly_after h.addressed.sound (enabled_other henabled).1 (h.orderly t) hdrains
  · cases e with
    | create t' address => exact admitted_after h.addressed.sound henabled (h.admitted t)
    | free t' => exact h.admitted t
    | other e =>
      exact admitted_after h.addressed.sound (enabled_other henabled).1 (h.admitted t)
  · cases e with
    | create t' address =>
      exact enrolled_after h.addressed.sound henabled (h.orderly t) rfl rfl (h.enrolled t)
    | free t' => exact h.enrolled t
    | other e =>
      have hafter := enrolled_after h.addressed.sound (enabled_other henabled).1 (h.orderly t)
        hsucceeds hdrains (h.enrolled t)
      have hcount : (Registries.effect respond s (.other e)).unregistrations.count t =
          s.unregistrations.count t +
            ((Lifecycle.view s.base t).performs Lifecycle.isUnregister e).toNat := by
        simp only [Registries.effect]
        cases hperforms : (Lifecycle.view s.base t).performs Lifecycle.isUnregister e with
        | true =>
          have hunregistered : unregistered s.base e = some t := view_performs.mp hperforms
          simp [hunregistered]
        | false =>
          have hother : unregistered s.base e ≠ some t := fun heq => by
            simp [view_performs.mpr heq] at hperforms
          cases hunregistered : unregistered s.base e with
          | none => simp
          | some t' =>
            have ht : t' ≠ t := fun heq => hother (heq ▸ hunregistered)
            simp [ht]
      rw [hcount]
      exact hafter

/-- Fresh registries show what they show of every task. -/
theorem Fresh.registered (h : Fresh respond s) : Registered s := by
  refine ⟨h.addressed, fun t => ?_, fun t => ?_, fun t => ?_⟩
  · rw [h.base.view t]
    exact ⟨fun c hc => absurd rfl hc, by rintro ⟨⟩⟩
  · rw [h.base.view t]
    rintro ⟨⟩
  · rw [h.base.view t, h.unregistrations]
    exact Lifecycle.enrolled_blank false

/-- No request is being scheduled, no task is being finished, and no `stop` call has tasks to
dispose of. -/
structure Quiescent (s : Registries) : Prop where
  schedules : ∀ t, s.base.schedules t ≠ .inserted
  finishing : s.base.finishing = none
  stops : ∀ c, (s.base.stops c).tasks = []

/-- The coroutine of the task was built by its first step. -/
def started (s : Registries) (t : TaskId) : Bool :=
  (s.base.loop.tasks t).any (·.state.coroutine.isSome)

/-- The event takes the entry of this task out of the map, in its `finish`, in the error path of its
`schedule`, or in a `stop` call that is going to dispose of it. -/
def Event.Withdraws (s : Registries) (t : TaskId) : Event → Prop
  | .other (.drain _ order) => t ∈ order
  | .other e => removed s.base e = some t
  | _ => False

/-- Where nothing is under way, no stage of `finish` is to come. -/
theorem Quiescent.works (h : s.Quiescent) (t : TaskId) (stage : FinishStage) :
    ¬(Lifecycle.view s.base t).Works stage := by
  rintro (⟨entered, hstage⟩ | ⟨c, hc⟩)
  · simp [Lifecycle.view, h.finishing] at hstage
  · obtain ⟨rest, hstop⟩ := Lifecycle.disposalOf_eq_finishing hc
    have htasks := h.stops c
    rw [hstop] at htasks
    cases htasks

/-- Where nothing is under way, no stop call has drained a task. -/
theorem Quiescent.disposals (h : s.Quiescent) (t : TaskId) (c : StopId) :
    (Lifecycle.view s.base t).disposals c = .none := by
  refine Lifecycle.disposalOf_eq_none.mpr ?_
  rw [h.stops c]
  exact List.not_mem_nil

/-- What a task shows when nothing is under way. -/
theorem Registered.quiescent (h : Registered s) (hquiescent : s.Quiescent) (t : TaskId) :
    (t ∈ s.base.live ↔ s.base.schedules t = .accepted ∧ s.base.finished t = false) ∧
    (t ∈ s.base.registered ↔ s.started t = true ∧ s.base.finished t = false) ∧
    s.unregistrations.count t = if s.started t && s.base.finished t then 1 else 0 := by
  have hlive : (Lifecycle.view s.base t).live = true ↔ t ∈ s.base.live := decide_eq_true_iff
  have hregistered : (Lifecycle.view s.base t).registered = true ↔ t ∈ s.base.registered :=
    decide_eq_true_iff
  have hschedule : (Lifecycle.view s.base t).schedule = s.base.schedules t := rfl
  rw [← hlive, ← hregistered, ← hschedule]
  cases h.enrolled t with
  | absent htask hcount =>
    have hblank := (h.addressed.sound.placed t).blank htask
    have hnone : s.base.loop.tasks t = none := htask
    rw [hblank, hcount]
    simp [Lifecycle.View.blank, started, hnone]
  | @unfinished k htask hunfinished =>
    have hk : s.base.loop.tasks t = some k := htask
    have hfinished : s.base.finished t = false := by
      simp [Lifecycle.finished, hk, hunfinished.unfinished]
    have hstarted : s.started t = k.state.coroutine.isSome := by simp [started, hk]
    rw [hunfinished.unregistrations, hunfinished.registered, hfinished, hstarted]
    refine ⟨⟨fun hlive => ⟨?_, rfl⟩, fun haccepted => ?_⟩, by simp, by simp⟩
    · exact (h.admitted t hlive).resolve_left (hquiescent.schedules t)
    · rcases hunfinished.live with hrefused | hlive | ⟨c, hc⟩
      · cases (hrefused.symm.trans haccepted.1)
      · exact hlive
      · exact absurd (hquiescent.disposals t c) hc
  | @finished k rest htask hleaves hfinished =>
    have hk : s.base.loop.tasks t = some k := htask
    have hrest : rest = none := by
      by_contra hne
      obtain ⟨stage, hstage⟩ := Option.ne_none_iff_exists'.mp hne
      exact hquiescent.works t stage ((hleaves.works stage).mpr hstage)
    subst hrest
    have hdone : s.base.finished t = true := by
      simp [Lifecycle.finished, hk, hfinished.finished]
    have hstarted : s.started t = k.state.coroutine.isSome := by simp [started, hk]
    obtain ⟨hunregistered, hcount⟩ := hfinished.settled rfl
    rw [hfinished.live rfl, hunregistered, hdone, hstarted, hcount]
    simp

/-- An entry is never replaced, and only its own task or the `stop` call that disposes of the task
withdraws it. -/
theorem Addressed.entry {e : Event} (h : Addressed s) (hcounted : Counted s e)
    (henabled : enabled respond s e = true) {address : ℕ}
    (hentry : s.entries address = some t) :
    (Registries.effect respond s e).entries address = some t ∨
      (Registries.effect respond s e).entries address = none ∧ e.Withdraws s t := by
  obtain ⟨hlive, haddress⟩ := (h.entries address t).mp hentry
  have hheld : (Lifecycle.view s.base t).Held := .inl (decide_eq_true hlive)
  cases e with
  | create t' address' =>
    have hother := hcounted t (h.sound.tidy.live_task t hlive) (h.held t hheld)
    left
    simp only [Registries.effect]
    rw [Function.update_of_ne (haddress ▸ hother), hentry]
  | free t' => exact .inl hentry
  | other e =>
    obtain ⟨hbase, hcreate⟩ := enabled_other henabled
    have hafter := h.entries_other hbase hcreate address t
    by_cases hdrain : ∃ c order, e = .drain c order
    · obtain ⟨c, order, rfl⟩ := hdrain
      refine .inr ⟨rfl, ?_⟩
      cases hstop : s.base.stops c <;>
        simp only [Lifecycle.enabled, hstop, Bool.false_eq_true, decide_eq_true_eq] at hbase
      exact hbase.mem_iff.mpr hlive
    · have hdrain : ∀ c order, e ≠ .drain c order := fun c order he => hdrain ⟨c, order, he⟩
      by_cases hremoved : removed s.base e = some t
      · refine .inr ⟨?_, ?_⟩
        · cases e with
          | drain c order => exact absurd rfl (hdrain c order)
          | _ => simp [Registries.effect, entriesAfter, hremoved, haddress]
        · cases e with
          | drain c order => exact absurd rfl (hdrain c order)
          | _ => exact hremoved
      · refine .inl (hafter.mpr ⟨?_, haddress⟩)
        exact (live_after h.sound hbase (hcreate t) hdrain).mpr ⟨hlive, hremoved⟩

/-- No task is unregistered twice. -/
theorem Registered.unregistrations_le (h : Registered s) (t : TaskId) :
    s.unregistrations.count t ≤ 1 := by
  cases h.enrolled t with
  | absent _ hcount => omega
  | unfinished _ hunfinished =>
    have hcount := hunfinished.unregistrations
    omega
  | finished rest _ _ hfinished =>
    cases hpending : Lifecycle.pendingUnregister rest with
    | some wasRegistered =>
      obtain ⟨-, -, hcount⟩ := hfinished.pending wasRegistered hpending
      omega
    | none =>
      obtain ⟨-, hcount⟩ := hfinished.settled hpending
      split at hcount <;> omega

/-- On every run the registries show what they show of every task. -/
theorem registered (hreach : (system respond).ReachesUnder (fun s e => Counted s e ∧
    registrySucceeds e = true ∧ drainsAfterEnd s e = true) s) : Registered s := by
  refine hreach.invariant (fun s hs => Fresh.registered hs) fun s e h hallowed henabled => ?_
  obtain ⟨hcounted, hsucceeds, hdrains⟩ := hallowed
  exact h.effect hcounted hsucceeds hdrains henabled

/-- **Where `stop` empties the map only after the loop thread has ended, both registries hold the
tasks that they are for, whichever addresses are used again.** -/
theorem registries_exact (respond : Value → HandlerResponse) {s : Registries}
    (hreach : (system respond).ReachesUnder (fun s e => Counted s e ∧
      registrySucceeds e = true ∧ drainsAfterEnd s e = true) s) :
    (s.Quiescent → ∀ address t, s.entries address = some t ↔
      s.address t = address ∧ s.base.schedules t = .accepted ∧ s.base.finished t = false) ∧
    (∀ e, Counted s e → enabled respond s e = true →
      (∀ t address, e = .create t address → s.entries address = none) ∧
      ∀ address t, s.entries address = some t →
        (effect respond s e).entries address = some t ∨
          (effect respond s e).entries address = none ∧ e.Withdraws s t) ∧
    (s.Quiescent → ∀ t,
      t ∈ s.base.registered ↔ s.started t = true ∧ s.base.finished t = false) ∧
    (∀ t, s.unregistrations.count t ≤ 1) ∧
    (s.Quiescent → ∀ t, s.base.finished t = true →
      s.unregistrations.count t = if s.started t then 1 else 0) := by
  have h := registered hreach
  refine ⟨fun hquiescent address t => ?_, fun e hcounted henabled => ⟨?_, ?_⟩,
    fun hquiescent t => (h.quiescent hquiescent t).2.1, h.unregistrations_le,
    fun hquiescent t hfinished => ?_⟩
  · rw [h.addressed.entries, (h.quiescent hquiescent t).1, and_comm]
  · rintro t address rfl
    by_contra hne
    obtain ⟨t', hentry⟩ := Option.ne_none_iff_exists'.mp hne
    obtain ⟨hlive, haddress⟩ := (h.addressed.entries address t').mp hentry
    exact hcounted t' (h.addressed.sound.tidy.live_task t' hlive)
      (h.addressed.held t' (.inl (decide_eq_true hlive))) haddress
  · exact fun address t hentry => h.addressed.entry hcounted henabled hentry
  · rw [(h.quiescent hquiescent t).2.2, hfinished, Bool.and_true]

/-- A `stop` call that has not begun does nothing. -/
theorem stops_idle {s : Lifecycle} {e : Lifecycle.Event} {c : StopId}
    (henabled : Lifecycle.enabled respond s e = true) (hidle : s.stops c = .idle)
    (he : e ≠ .takeHandle c) : (Lifecycle.effect respond s e).stops c = .idle := by
  have hother {c' : StopId} (hc : c ≠ c') (call : StopCall) :
      Function.update s.stops c' call c = .idle := by
    rw [Function.update_of_ne hc, hidle]
  cases e with
  | takeHandle c' => exact hother (fun hc => he (hc ▸ rfl)) _
  | join c' =>
    refine hother (fun hc => ?_) _
    simp [Lifecycle.enabled, ← hc, hidle] at henabled
  | drain c' order =>
    refine hother (fun hc => ?_) _
    simp [Lifecycle.enabled, ← hc, hidle] at henabled
  | stopReturns c' =>
    refine hother (fun hc => ?_) _
    simp [Lifecycle.enabled, ← hc, hidle] at henabled
  | dispose c' =>
    have hc : c ≠ c' := fun hc => by simp [Lifecycle.enabled, ← hc, hidle] at henabled
    simp only [Lifecycle.effect]
    split
    · split <;> exact hother hc _
    · exact hidle
  | closed c' =>
    have hc : c ≠ c' := fun hc => by simp [Lifecycle.enabled, ← hc, hidle] at henabled
    simp only [Lifecycle.effect]
    split
    · exact hother hc _
    · exact hidle
  | disposeFinish faults c' =>
    have hc : c ≠ c' := fun hc => by simp [Lifecycle.enabled, ← hc, hidle] at henabled
    simp only [Lifecycle.effect]
    split
    · simp only [Lifecycle.setStop, Lifecycle.work_stops]
      exact hother hc _
    · exact hidle
  | run faults =>
    simp only [Lifecycle.effect]
    split <;> exact hidle
  | resume faults input =>
    simp only [Lifecycle.effect]
    split
    · exact hidle
    · split <;> exact hidle
  | finish faults =>
    simp only [Lifecycle.effect]
    split
    · exact hidle
    · split
      · simpa only [Lifecycle.work_stops] using hidle
      · simpa only [Lifecycle.work_stops] using hidle
  | act a =>
    cases a with
    | removeDoneCallback t callback =>
      simp only [Lifecycle.effect, Lifecycle.noteAction]
      split <;> exact hidle
    | _ => exact hidle
  | dropRequest t =>
    simp only [Lifecycle.effect]
    split <;> exact hidle
  | _ => exact hidle

/-- References are counted in a run of the tasks and the `stop` calls `0` and `1` only. -/
def countedTwo (s : Registries) : Event → Bool
  | .create t address => t < 2 && (List.range 2).all fun t' =>
    !(s.base.loop.tasks t').isSome || t' ∈ s.freed || s.address t' ≠ address
  | .free t => t ∉ s.base.live && s.base.schedules t ≠ .inserted &&
    s.base.loop.running ≠ some t && (List.range 2).all fun c => t ∉ (s.base.stops c).tasks
  | .other (.takeHandle c) => c < 2
  | .other e => (uses s.base e).all (· ∉ s.freed)

/-- There is nothing else in such a run. -/
structure OnlyTwo (s : Registries) : Prop where
  sound : s.base.Sound
  tasks : ∀ t, 2 ≤ t → s.base.loop.tasks t = none
  stops : ∀ c, 2 ≤ c → s.base.stops c = .idle

/-- **One step** of two tasks and two stop calls leaves nothing else. -/
theorem OnlyTwo.effect {e : Event} (h : OnlyTwo s) (hcounted : countedTwo s e = true)
    (henabled : enabled respond s e = true) : OnlyTwo (effect respond s e) := by
  cases e with
  | create t address =>
    have hbase : Lifecycle.enabled respond s.base (.create t) = true := henabled
    refine ⟨h.sound.effect hbase, fun t' ht' => ?_, h.stops⟩
    have hlt : t < 2 := by
      simp only [countedTwo, Bool.and_eq_true, decide_eq_true_eq] at hcounted
      exact hcounted.1
    have hne : t' ≠ t := fun heq => absurd hlt (Nat.not_lt.mpr (heq ▸ ht'))
    exact (Function.update_of_ne hne ..).trans (h.tasks t' ht')
  | free t => exact ⟨h.sound, h.tasks, h.stops⟩
  | other e =>
    obtain ⟨hbase, hcreate⟩ := enabled_other henabled
    refine ⟨h.sound.effect hbase, fun t ht => ?_, fun c hc => ?_⟩
    · have hsame := task_after (t := t) h.sound hbase (hcreate t)
      rw [h.tasks t ht, Option.isSome_none] at hsame
      exact Option.not_isSome_iff_eq_none.mp fun hsome => Bool.noConfusion (hsame.mp hsome)
    · refine stops_idle hbase (h.stops c hc) ?_
      rintro rfl
      have hlt : c < 2 := of_decide_eq_true hcounted
      exact absurd hlt (Nat.not_lt.mpr hc)

/-- With two tasks and two stop calls references are counted. -/
theorem OnlyTwo.counted {e : Event} (h : OnlyTwo s) (hcounted : countedTwo s e = true) :
    Counted s e := by
  cases e with
  | create t address =>
    intro t' hsome hfreed
    have ht : t' < 2 := by
      by_contra hge
      simp [h.tasks t' (Nat.le_of_not_lt hge)] at hsome
    simp only [countedTwo, Bool.and_eq_true, List.all_eq_true, List.mem_range] at hcounted
    simpa [hsome, hfreed] using hcounted.2 t' ht
  | free t =>
    simp only [countedTwo, Bool.and_eq_true, decide_eq_true_eq, List.all_eq_true, List.mem_range]
      at hcounted
    obtain ⟨⟨⟨hlive, hschedule⟩, hrunning⟩, hstops⟩ := hcounted
    rintro (hheld | hheld | hheld | ⟨c, hc⟩)
    · exact hlive (of_decide_eq_true hheld)
    · exact hschedule hheld
    · exact hrunning (of_decide_eq_true hheld)
    · refine hc (Lifecycle.disposalOf_eq_none.mpr ?_)
      by_cases hlt : c < 2
      · exact hstops c hlt
      · rw [h.stops c (Nat.le_of_not_lt hlt)]
        exact List.not_mem_nil
  | other e =>
    intro t huses
    cases e with
    | takeHandle c => cases huses
    | _ => simpa [countedTwo, huses] using hcounted

/-- Nothing is under way in such a run. -/
def quietTwo (s : Registries) : Bool :=
  s.base.finishing.isNone && (List.range 2).all fun n =>
    s.base.schedules n ≠ .inserted && (s.base.stops n).tasks = []

/-- With two tasks and two stop calls nothing is under way where they are quiet. -/
theorem OnlyTwo.quiescent (h : OnlyTwo s) (hquiet : quietTwo s = true) : s.Quiescent := by
  simp only [quietTwo, Bool.and_eq_true, Option.isNone_iff_eq_none, List.all_eq_true,
    List.mem_range, decide_eq_true_eq] at hquiet
  obtain ⟨hfinishing, hrest⟩ := hquiet
  refine ⟨fun t hinserted => ?_, hfinishing, fun c => ?_⟩
  · by_cases hlt : t < 2
    · exact (hrest t hlt).1 hinserted
    · have hsome := h.sound.tidy.inserted_task t hinserted
      simp [h.tasks t (Nat.le_of_not_lt hlt)] at hsome
  · by_cases hlt : c < 2
    · exact (hrest c hlt).2
    · rw [h.stops c (Nat.le_of_not_lt hlt)]
      rfl

/-- A loop with these futures that has just been started. -/
def fresh (futures : FutureId → Future) : Registries where
  base := Lifecycle.fresh futures
  address _ := 0
  entries _ := none
  freed := []
  unregistrations := []

/-- A loop that has just been started is fresh. -/
theorem Fresh.fresh (respond : Value → HandlerResponse) {futures : FutureId → Future}
    (hcallbacks : ∀ f, (futures f).callbacks = []) : Fresh respond (fresh futures) :=
  ⟨Lifecycle.Fresh.fresh respond hcallbacks, fun _ => rfl, rfl, rfl⟩

/-- A fresh loop has nothing but what two tasks and two stop calls bring. -/
theorem Fresh.onlyTwo (h : Fresh respond s) : OnlyTwo s :=
  ⟨h.base.sound, fun t _ => h.base.loop.tasks t, fun c _ => h.base.stops c⟩

/-- Such a run is one in which references are counted. -/
theorem exists_of_countedTwo {p : Registries → Event → Bool} {q : Registries → Bool}
    {es : List Event} {start : Registries} (hinit : Fresh respond start)
    (hexec : (((system respond).restrict fun s e => countedTwo s e && p s e).exec start es).map q =
      some true) :
    ∃ s, (system respond).ReachesUnder (fun s e => Counted s e ∧ p s e = true) s ∧ OnlyTwo s ∧
      q s = true := by
  have honly {s : Registries} (hreach : (system respond).ReachesUnder
      (fun s e => (countedTwo s e && p s e) = true) s) : OnlyTwo s := by
    refine hreach.invariant (fun s hs => Fresh.onlyTwo hs) fun s e h hallowed henabled => ?_
    exact h.effect (Bool.and_eq_true_iff.mp hallowed).1 henabled
  obtain ⟨s, hreach, hend⟩ := Transition.System.exists_reachesUnder_of_exec hinit hexec
  refine ⟨s, hreach.mono fun s e hprefix hallowed _ => ?_, honly hreach, hend⟩
  obtain ⟨hcounted, hp⟩ := Bool.and_eq_true_iff.mp hallowed
  exact ⟨(honly hprefix).counted hcounted, hp⟩

/-- A task returns and is freed, and the next one gets its address. -/
def reusedAddress : List Event :=
  let base : List Lifecycle.Event := [.accept 0, .run .none, .resume .none (.factoryReturned 1 2),
    .resume .none (.returned 3)] ++ Lifecycle.wholeFinish
  .create 0 7 :: base.map .other ++ [.free 0, .create 1 7, .other (.accept 1)]

/-- A task that takes the address of a collected one is registered exactly once. -/
theorem registries_exact_reusedAddress : ∃ s, (system fun _ => .noContent).ReachesUnder
    (fun s e => Counted s e ∧ registrySucceeds e = true ∧ drainsAfterEnd s e = true) s ∧
    s.Quiescent ∧ s.address 0 = 7 ∧ s.entries 7 = some 1 ∧ s.unregistrations.count 0 = 1 := by
  have hexec : (((system fun _ => .noContent).restrict fun s e => countedTwo s e &&
      (registrySucceeds e && drainsAfterEnd s e)).exec (fresh Lifecycle.unawaited)
      reusedAddress).map (fun s => quietTwo s && s.address 0 = 7 && s.address 1 = 7 &&
        s.base.schedules 1 = .accepted && s.base.finished 0 && s.started 0 && !s.base.finished 1) =
      some true := by
    decide
  obtain ⟨s, hs, honly, hend⟩ := exists_of_countedTwo
    (p := fun s e => registrySucceeds e && drainsAfterEnd s e) (Fresh.fresh _ fun _ => rfl) hexec
  have hreach : (system fun _ => .noContent).ReachesUnder
      (fun s e => Counted s e ∧ registrySucceeds e = true ∧ drainsAfterEnd s e = true) s :=
    hs.mono fun _ _ _ h _ => ⟨h.1, Bool.and_eq_true_iff.mp h.2⟩
  have hquiescent := honly.quiescent
  simp only [Bool.and_eq_true, Bool.not_eq_true', decide_eq_true_eq] at hend
  obtain ⟨⟨⟨⟨⟨⟨hquiet, haddress⟩, haddress'⟩, haccepted⟩, hfinished⟩, hstarted⟩, hopen⟩ := hend
  obtain ⟨hentries, -, -, -, hcount⟩ := registries_exact _ hreach
  have hentry := (hentries (hquiescent hquiet) 7 1).mpr ⟨haddress', haccepted, hopen⟩
  have honce := hcount (hquiescent hquiet) 0 hfinished
  rw [hstarted, if_pos rfl] at honce
  exact ⟨s, hreach, hquiescent hquiet, haddress, hentry, honce⟩

/-- Two `stop` calls overlap, and the second one disposes of a task whose handler is being
called. -/
def overlappingStop : List Event :=
  let base : List Lifecycle.Event := [.accept 0, .run .none, .takeHandle 0, .takeHandle 1,
    .drain 1 [0], .dispose 1] ++ List.replicate 7 (.disposeFinish .none 1) ++
    [.stopReturns 1, .resume .none (.factoryReturned 1 2), .resume .none (.returned 3),
      .finish .none, .finish .none]
  .create 0 7 :: base.map .other

/-- Overlapping stop calls leave a finished task registered with asyncio. -/
theorem registered_after_overlappingStop : ∃ s, (system fun _ => .noContent).ReachesUnder
    (fun s e => Counted s e ∧ registrySucceeds e = true) s ∧ s.Quiescent ∧
    0 ∈ s.base.registered ∧ s.base.finished 0 = true ∧ s.unregistrations.count 0 = 0 := by
  have hexec : (((system fun _ => .noContent).restrict fun s e => countedTwo s e &&
      registrySucceeds e).exec (fresh Lifecycle.unawaited) overlappingStop).map
      (fun s => quietTwo s && 0 ∈ s.base.registered && s.base.finished 0 &&
        s.unregistrations.count 0 = 0) = some true := by
    decide
  obtain ⟨s, hs, honly, hend⟩ := exists_of_countedTwo (p := fun _ e => registrySucceeds e)
    (Fresh.fresh _ fun _ => rfl) hexec
  simp only [Bool.and_eq_true, decide_eq_true_eq] at hend
  obtain ⟨⟨⟨hquiet, hregistered⟩, hfinished⟩, hcount⟩ := hend
  exact ⟨s, hs, honly.quiescent hquiet, hregistered, hfinished, hcount⟩

end Registries

end Rayo
