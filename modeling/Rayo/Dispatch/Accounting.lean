import Mathlib.Data.List.Perm.Subperm
import Rayo.Dispatch.EventLoop

/-!
# The gauge and the channels balance

The in-flight gauge is decremented by whichever thread takes the sender out of a
response channel. The accounting is therefore about two things at once: what the
registry says about each channel, and which threads are between taking a sender and
delivering its response. It is kept by every piece of `Work`, on whichever thread.
-/

namespace Rayo

/-- The gauge has been decremented for this channel. -/
def ChannelState.countedOut : ChannelState → Bool
  | .counted | .resolved _ => true
  | .absent | .open | .taken => false

/-- The sender has been taken but its response is not yet in the oneshot. -/
def ChannelState.settling : ChannelState → Bool
  | .taken | .counted => true
  | .absent | .open | .resolved _ => false

/-- The registry's gauge and histories say the same as the states of its channels. -/
structure Registry.Balanced (g : Registry) : Prop where
  gauge_eq : g.gauge = g.increments.length - g.decrements.length
  increments_nodup : g.increments.Nodup
  mem_increments (r : RequestId) : r ∈ g.increments ↔ g.channel r ≠ .absent
  decrements_nodup : g.decrements.Nodup
  mem_decrements (r : RequestId) : r ∈ g.decrements ↔ (g.channel r).countedOut = true
  resolutions_nodup : (g.resolutions.map Prod.fst).Nodup
  mem_resolutions (r : RequestId) (x : Resolution) :
    (r, x) ∈ g.resolutions ↔ g.channel r = .resolved x

/-- A balanced gauge never goes below zero. -/
theorem Registry.Balanced.gauge_nonneg {g : Registry} (h : g.Balanced) : 0 ≤ g.gauge := by
  have hsub : g.decrements ⊆ g.increments := by
    intro r hr
    have hout := (h.mem_decrements r).mp hr
    refine (h.mem_increments r).mpr fun habsent => ?_
    simp [habsent, ChannelState.countedOut] at hout
  have hlen := (List.subperm_of_subset h.decrements_nodup hsub).length_le
  have hgauge := h.gauge_eq
  omega

/-- When every channel that was opened is resolved, the gauge is back at zero. -/
theorem Registry.Balanced.gauge_eq_zero {g : Registry} (h : g.Balanced)
    (hout : ∀ r ∈ g.increments, (g.channel r).countedOut = true) : g.gauge = 0 := by
  have hsub : g.increments ⊆ g.decrements := fun r hr => (h.mem_decrements r).mpr (hout r hr)
  have hlen := (List.subperm_of_subset h.increments_nodup hsub).length_le
  have hgauge := h.gauge_eq
  have hnonneg := h.gauge_nonneg
  omega

/-- An empty registry is balanced. -/
theorem Registry.Balanced.empty : Registry.empty.Balanced := by
  constructor <;> simp [Registry.empty, ChannelState.countedOut]

/-- Changing only the registry of live tasks or the finished flags keeps the balance. -/
theorem Registry.Balanced.congr {g g' : Registry} (h : g.Balanced)
    (hchannel : g'.channel = g.channel) (hgauge : g'.gauge = g.gauge)
    (hinc : g'.increments = g.increments) (hdec : g'.decrements = g.decrements)
    (hres : g'.resolutions = g.resolutions) : g'.Balanced := by
  obtain ⟨h₁, h₂, h₃, h₄, h₅, h₆, h₇⟩ := h
  constructor <;> simp only [hchannel, hgauge, hinc, hdec, hres] <;> assumption

/-- Opening the channel of a new request increments the gauge with it. -/
theorem Registry.Balanced.openChannel {g : Registry} (h : g.Balanced) {r : RequestId}
    (habsent : g.channel r = .absent) : (g.openChannel r).Balanced := by
  have hfresh : r ∉ g.increments := fun hr => (h.mem_increments r).mp hr habsent
  refine ⟨?_, ?_, fun r' => ?_, h.decrements_nodup, fun r' => ?_, h.resolutions_nodup,
    fun r' x => ?_⟩
  · have := h.gauge_eq
    simp only [Registry.openChannel, List.length_cons]
    omega
  · exact List.nodup_cons.mpr ⟨hfresh, h.increments_nodup⟩
  · by_cases hr : r' = r
    · simp [Registry.openChannel, hr]
    · simp [Registry.openChannel, hr, h.mem_increments]
  · by_cases hr : r' = r
    · have := h.mem_decrements r
      simp_all [Registry.openChannel, ChannelState.countedOut]
    · simp [Registry.openChannel, hr, h.mem_decrements]
  · by_cases hr : r' = r
    · have := h.mem_resolutions r x
      simp_all [Registry.openChannel]
    · simp [Registry.openChannel, hr, h.mem_resolutions]

/-- Taking the sender of an open channel changes nothing that is counted. -/
theorem Registry.Balanced.take {g : Registry} (h : g.Balanced) {r : RequestId}
    (hopen : g.channel r = .open) :
    ({ g with channel := Function.update g.channel r .taken } : Registry).Balanced := by
  refine ⟨h.gauge_eq, h.increments_nodup, fun r' => ?_, h.decrements_nodup, fun r' => ?_,
    h.resolutions_nodup, fun r' x => ?_⟩ <;> by_cases hr : r' = r
  · simp [hr, h.mem_increments, hopen]
  · simp [hr, h.mem_increments]
  · simp [hr, h.mem_decrements, hopen, ChannelState.countedOut]
  · simp [hr, h.mem_decrements]
  · simp [hr, h.mem_resolutions, hopen]
  · simp [hr, h.mem_resolutions]

/-- The decrement that follows a take is the request's only one. -/
theorem Registry.Balanced.decrement {g : Registry} (h : g.Balanced) {r : RequestId}
    (htaken : g.channel r = .taken) :
    ({ g.decrement r with channel := Function.update g.channel r .counted } :
      Registry).Balanced := by
  have hfresh : r ∉ g.decrements := by
    simp [h.mem_decrements, htaken, ChannelState.countedOut]
  refine ⟨?_, h.increments_nodup, fun r' => ?_, List.nodup_cons.mpr ⟨hfresh, h.decrements_nodup⟩,
    fun r' => ?_, h.resolutions_nodup, fun r' x => ?_⟩
  · have := h.gauge_eq
    simp only [Registry.decrement, List.length_cons]
    omega
  all_goals by_cases hr : r' = r
  · simp [Registry.decrement, hr, h.mem_increments, htaken]
  · simp [Registry.decrement, hr, h.mem_increments]
  · simp [Registry.decrement, hr, ChannelState.countedOut]
  · simp [Registry.decrement, hr, h.mem_decrements]
  · simp [Registry.decrement, hr, h.mem_resolutions, htaken]
  · simp [Registry.decrement, hr, h.mem_resolutions]

/-- A channel that has been counted out is resolved for the first time. -/
theorem Registry.Balanced.resolve {g : Registry} (h : g.Balanced) {r : RequestId}
    (hcounted : g.channel r = .counted) (x : Resolution) : (g.resolve r x).Balanced := by
  have hfresh : r ∉ g.resolutions.map Prod.fst := by
    intro hr
    obtain ⟨⟨r', y⟩, hmem, rfl⟩ := List.mem_map.mp hr
    simp [h.mem_resolutions, hcounted] at hmem
  refine ⟨h.gauge_eq, h.increments_nodup, fun r' => ?_, h.decrements_nodup, fun r' => ?_,
    List.nodup_cons.mpr ⟨hfresh, h.resolutions_nodup⟩, fun r' y => ?_⟩ <;> by_cases hr : r' = r
  · simp [Registry.resolve, hr, h.mem_increments, hcounted]
  · simp [Registry.resolve, hr, h.mem_increments]
  · simp [Registry.resolve, hr, h.mem_decrements, hcounted, ChannelState.countedOut]
  · simp [Registry.resolve, hr, h.mem_decrements]
  · have hnot : (r, y) ∉ g.resolutions := by simp [h.mem_resolutions, hcounted]
    simp [Registry.resolve, hr, hnot, eq_comm]
  · simp [Registry.resolve, hr, h.mem_resolutions]

/-- Dropping a channel that still has its sender counts the request out and resolves it. -/
theorem Registry.Balanced.dropChannel {g : Registry} (h : g.Balanced) (r : RequestId) :
    (g.dropChannel r).Balanced := by
  unfold Registry.dropChannel
  split
  · next hopen =>
    have hdecrement := (h.take hopen).decrement (r := r) (by simp)
    have hresolve := hdecrement.resolve (r := r) (by simp) .senderDropped
    exact hresolve.congr (by simp [Registry.resolve, Registry.decrement]) rfl rfl rfl rfl
  · exact h

/-- Dropping a channel leaves all others as they are. -/
theorem Registry.dropChannel_channel_of_ne {g : Registry} {r r' : RequestId} (hr : r' ≠ r) :
    (g.dropChannel r).channel r' = g.channel r' := by
  unfold Registry.dropChannel
  split <;> simp [Registry.resolve, Registry.decrement, hr]

/-- A dropped sender resolves the request unless that has been done. -/
theorem Registry.dropChannel_channel_self (g : Registry) (r : RequestId) :
    (g.dropChannel r).channel r =
      if g.channel r = .open then .resolved .senderDropped else g.channel r := by
  unfold Registry.dropChannel
  split <;> simp [Registry.resolve]

/-- The channel is where a piece of work that has taken the sender left it. -/
def Work.Fits (g : Registry) : Work → Prop
  | .finish .. | .removeLive .. | .take .. => True
  | .decrement r _ => g.channel r = .taken
  | .deliver r _ => g.channel r = .counted

/-- Work that has not taken the sender yet fits every registry. -/
theorem Work.fits_of_beforeTake {g : Registry} {w : Work} (h : w.beforeTake = true) :
    w.Fits g := by
  cases w <;> simp_all [Work.Fits, Work.beforeTake]

/-- A channel is settling exactly while its work has taken the sender. -/
theorem Work.settling_of_fits {g : Registry} {w : Work} (h : w.Fits g)
    (hafter : w.beforeTake = false) : (g.channel w.request).settling = true := by
  cases w <;> simp_all [Work.Fits, Work.beforeTake, Work.request, ChannelState.settling]

/-- A stage of work that fits keeps the registry balanced. -/
theorem Registry.Balanced.advance {g : Registry} {w : Work} (h : g.Balanced) (hfits : w.Fits g) :
    (w.advance g).1.Balanced := by
  cases w with
  | finish r response =>
    simp only [Work.advance]
    split
    · exact h
    · exact h.congr rfl rfl rfl rfl rfl
  | removeLive r response => exact h.congr rfl rfl rfl rfl rfl
  | take r response =>
    simp only [Work.advance]
    split
    · next hopen => exact h.take hopen
    · exact h
  | decrement r response => exact h.decrement hfits
  | deliver r response => exact h.resolve hfits _

/-- Work continues on the same request, with the same response, in a fitting channel. -/
theorem Work.advance_next {g : Registry} {w w' : Work} (h : (w.advance g).2 = some w') :
    w'.request = w.request ∧ w'.response = w.response ∧ w'.Fits (w.advance g).1 := by
  cases w <;> simp only [Work.advance] at h ⊢
  case finish r response =>
    split at h <;> simp only [Option.some.injEq] at h <;> subst h <;>
      exact ⟨rfl, rfl, trivial⟩
  case removeLive r response =>
    simp only [Option.some.injEq] at h
    subst h
    exact ⟨rfl, rfl, trivial⟩
  case take r response =>
    split at h <;> simp only [Option.some.injEq, reduceCtorEq] at h
    subst h
    exact ⟨rfl, rfl, by simp [Work.Fits, *]⟩
  case decrement r response =>
    simp only [Option.some.injEq] at h
    subst h
    exact ⟨rfl, rfl, by simp [Work.Fits]⟩
  case deliver r response => cases h

/-- The channels of other requests are not touched. -/
theorem Work.advance_channel_of_ne {g : Registry} {w : Work} {r : RequestId}
    (hr : r ≠ w.request) : (w.advance g).1.channel r = g.channel r := by
  cases w <;> simp only [Work.advance, Work.request] at hr ⊢
  case finish => split <;> rfl
  case take => split <;> simp [hr]
  all_goals simp [Registry.removeLive, Registry.resolve, hr]

/-- Work that has not taken the sender leaves a channel that is not open as it is. -/
theorem Work.advance_channel_of_beforeTake {g : Registry} {w : Work}
    (hbefore : w.beforeTake = true) {r : RequestId} (hopen : g.channel r ≠ .open) :
    (w.advance g).1.channel r = g.channel r := by
  by_cases hr : r = w.request
  · subst hr
    cases w <;> simp only [Work.advance, Work.request] at hopen ⊢
    case finish => split <;> rfl
    case removeLive => rfl
    case take => simp [hopen]
    all_goals simp [Work.beforeTake] at hbefore
  · exact advance_channel_of_ne hr

/-- Work only gets past the take by taking the sender of an open channel. -/
theorem Work.advance_afterTake {g : Registry} {w w' : Work} (h : (w.advance g).2 = some w')
    (hafter : w'.beforeTake = false) : w.beforeTake = false ∨ g.channel w.request = .open := by
  cases w <;> simp only [Work.advance] at h <;> try exact Or.inl rfl
  case finish =>
    split at h <;> simp only [Option.some.injEq] at h <;> subst h <;> cases hafter
  case removeLive =>
    simp only [Option.some.injEq] at h
    subst h
    cases hafter
  case take => split at h <;> simp_all [Work.request]

/-- A channel that is settling after a step has work in this thread, or was settling before. -/
theorem Work.settling_of_advance {g : Registry} {w : Work}
    (h : ((w.advance g).1.channel w.request).settling = true) :
    (∃ w', (w.advance g).2 = some w' ∧ w'.beforeTake = false) ∨
      (w.beforeTake = true ∧ (g.channel w.request).settling = true) := by
  cases w <;> simp only [Work.advance, Work.request] at h ⊢
  case finish => split at h <;> exact Or.inr ⟨rfl, h⟩
  case removeLive => exact Or.inr ⟨rfl, h⟩
  case take r response =>
    split at h
    · next hopen => exact Or.inl ⟨.decrement r response, by simp [hopen], rfl⟩
    · exact Or.inr ⟨rfl, h⟩
  case decrement r response => exact Or.inl ⟨.deliver r response, rfl, rfl⟩
  case deliver => simp [Registry.resolve, ChannelState.settling] at h

/-- The threads that can carry work: a `schedule` call, the loop thread, a `stop` call. -/
inductive Executor
  | call (r : RequestId)
  | loop
  | stop (c : StopId)
  deriving DecidableEq

/-- The registry is balanced, and what is missing between its channels is exactly the
work that some single thread still has to do. -/
structure Accounted (g : Registry) (work : Executor → Option Work) : Prop where
  balanced : g.Balanced
  fits : ∀ x w, work x = some w → w.Fits g
  unique : ∀ x y w v, work x = some w → work y = some v → w.beforeTake = false →
    v.beforeTake = false → w.request = v.request → x = y
  settler : ∀ r, (g.channel r).settling = true →
    ∃ x w, work x = some w ∧ w.request = r ∧ w.beforeTake = false

namespace Accounted

variable {g : Registry} {work : Executor → Option Work}

/-- A thread takes up work that still has to take the sender. -/
theorem begin (h : Accounted g work) {x : Executor} {w : Work} (hidle : work x = none)
    (hbefore : w.beforeTake = true) : Accounted g (Function.update work x (some w)) := by
  refine ⟨h.balanced, fun y v hy => ?_, fun y z v u hy hz hv hu hreq => ?_, fun r hr => ?_⟩
  · by_cases hyx : y = x
    · subst hyx
      simp only [Function.update_self, Option.some.injEq] at hy
      exact hy ▸ Work.fits_of_beforeTake hbefore
    · rw [Function.update_of_ne hyx] at hy
      exact h.fits y v hy
  · have hne {y v} (hy : Function.update work x (some w) y = some v)
        (hv : v.beforeTake = false) : work y = some v := by
      by_cases hyx : y = x
      · subst hyx
        simp only [Function.update_self, Option.some.injEq] at hy
        simp [← hy, hbefore] at hv
      · rwa [Function.update_of_ne hyx] at hy
    exact h.unique y z v u (hne hy hv) (hne hz hu) hv hu hreq
  · obtain ⟨y, v, hy, hreq, hafter⟩ := h.settler r hr
    have hyx : y ≠ x := fun heq => by simp [← heq, hy] at hidle
    exact ⟨y, v, by rw [Function.update_of_ne hyx]; exact hy, hreq, hafter⟩

/-- A registry step that leaves all channels as they are, or only touches channels that
no thread is settling, keeps the accounting. -/
theorem congr {g' : Registry} (h : Accounted g work) (hbalanced : g'.Balanced)
    (hchannel : ∀ r, (g.channel r).settling = true ∨ (g'.channel r).settling = true →
      g'.channel r = g.channel r) : Accounted g' work := by
  refine ⟨hbalanced, fun x w hx => ?_, h.unique, fun r hr => ?_⟩
  · have hfits := h.fits x w hx
    cases w <;> simp only [Work.Fits] at hfits ⊢
    all_goals rw [hchannel _ (Or.inl (by simp [hfits, ChannelState.settling]))]; exact hfits
  · rw [hchannel r (Or.inr hr)] at hr
    exact h.settler r hr

/-- Any thread performing its next access keeps the accounting. -/
theorem advance (h : Accounted g work) {x : Executor} {w : Work} (hx : work x = some w) :
    Accounted (w.advance g).1 (Function.update work x (w.advance g).2) := by
  have hother {y v} (hyx : y ≠ x) (hy : work y = some v) (hafter : v.beforeTake = false) :
      (w.advance g).1.channel v.request = g.channel v.request := by
    by_cases hreq : v.request = w.request
    · by_cases hbefore : w.beforeTake = true
      · refine Work.advance_channel_of_beforeTake hbefore fun hopen => ?_
        have hsettling := Work.settling_of_fits (h.fits y v hy) hafter
        simp [hopen, ChannelState.settling] at hsettling
      · exact absurd (h.unique y x v w hy hx hafter (by simpa using hbefore) hreq) hyx
    · exact Work.advance_channel_of_ne hreq
  refine ⟨h.balanced.advance (h.fits x w hx), fun y v hy => ?_,
    fun y z v u hy hz hv hu hreq => ?_, fun r hr => ?_⟩
  · by_cases hyx : y = x
    · subst hyx
      rw [Function.update_self] at hy
      exact (Work.advance_next hy).2.2
    · rw [Function.update_of_ne hyx] at hy
      by_cases hafter : v.beforeTake = true
      · exact Work.fits_of_beforeTake hafter
      · have hsame := hother hyx hy (by simpa using hafter)
        have hfits := h.fits y v hy
        cases v <;> simp_all [Work.Fits, Work.request]
  · have hnew {y v} (hyx : y ≠ x) (hy : work y = some v) (hafter : v.beforeTake = false)
        {w'} (hw' : (w.advance g).2 = some w') (hafter' : w'.beforeTake = false) :
        v.request ≠ w'.request := by
      intro hsame
      rw [(Work.advance_next hw').1] at hsame
      rcases Work.advance_afterTake hw' hafter' with hw | hopen
      · exact hyx (h.unique y x v w hy hx hafter hw hsame)
      · have hsettling := Work.settling_of_fits (h.fits y v hy) hafter
        simp [hsame, hopen, ChannelState.settling] at hsettling
    by_cases hyx : y = x <;> by_cases hzx : z = x
    · rw [hyx, hzx]
    · subst hyx
      rw [Function.update_self] at hy
      rw [Function.update_of_ne hzx] at hz
      exact absurd hreq.symm (hnew hzx hz hu hy hv)
    · subst hzx
      rw [Function.update_of_ne hyx] at hy
      rw [Function.update_self] at hz
      exact absurd hreq (hnew hyx hy hv hz hu)
    · rw [Function.update_of_ne hyx] at hy
      rw [Function.update_of_ne hzx] at hz
      exact h.unique y z v u hy hz hv hu hreq
  · have hold (hsettling : (g.channel r).settling = true)
        (hkeep : r = w.request → w.beforeTake = true) :
        ∃ y v, Function.update work x (w.advance g).2 y = some v ∧ v.request = r ∧
          v.beforeTake = false := by
      obtain ⟨y, v, hy, hreq, hafter⟩ := h.settler r hsettling
      have hyx : y ≠ x := by
        rintro rfl
        obtain rfl : w = v := by simpa [hx] using hy
        simp [hkeep hreq.symm] at hafter
      exact ⟨y, v, by rw [Function.update_of_ne hyx]; exact hy, hreq, hafter⟩
    by_cases hrw : r = w.request
    · subst hrw
      rcases Work.settling_of_advance hr with ⟨w', hw', hafter'⟩ | ⟨hbefore, hsettling⟩
      · exact ⟨x, w', by rw [Function.update_self, hw'], (Work.advance_next hw').1, hafter'⟩
      · exact hold hsettling fun _ => hbefore
    · rw [Work.advance_channel_of_ne hrw] at hr
      exact hold hr fun heq => absurd heq hrw

end Accounted

end Rayo
