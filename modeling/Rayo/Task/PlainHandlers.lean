import Rayo.Task.HandlerTask

/-!
# Handlers that are plain coroutine functions

A plain coroutine function runs no code before it returns a coroutine. A turn that calls one is one
event here and two events of the driver, so that what is proved of the driver holds here, too.
-/

namespace Rayo.HandlerTask

open Asyncio World

section

variable (respond : Value → HandlerResponse) (built : TaskId → Value × Value)

/-- The call of a plain coroutine function returns at once. -/
def plainCall (faults : Faults) (t : TaskId) (f : Option FutureId) (l : Local) : Local :=
  match (call faults t f l).task.phase with
  | .building turn => start faults t turn (built t).1 (built t).2 (call faults t f l)
  | _ => call faults t f l

/-- `HandlerTask` with handlers that are plain coroutine functions. -/
def plain : Driver LoopHandles HandlerTask :=
  { driver respond with call := fun faults t _ f => plainCall built faults t f }

end

section

variable {respond : Value → HandlerResponse} {built : TaskId → Value × Value}
  {s : Loop LoopHandles HandlerTask}

/-- A turn with a plain coroutine function is one or two events of the driver. -/
theorem reaches_plainCall {faults : Faults} {t : TaskId} {f : Option FutureId}
    (hcalled : (Loop.system (driver respond)).Reaches
      (s.drive (driver respond) t (call faults t f))) :
    (Loop.system (driver respond)).Reaches
      (s.drive (plain respond built) t (plainCall built faults t f)) := by
  have hplain (g : Local → Local)
      (hg : ∀ k, s.tasks t = some k → plainCall built faults t f ⟨s.world, k⟩ = g ⟨s.world, k⟩) :
      s.drive (plain respond built) t (plainCall built faults t f) =
        s.drive (driver respond) t g := Loop.drive_congr (driver respond) hg
  cases htask : s.tasks t with
  | none => simpa only [Loop.drive, htask] using hcalled
  | some k =>
    cases hphase : (call faults t f ⟨s.world, k⟩).task.phase with
    | building turn =>
      have hrunning : (s.drive (driver respond) t (call faults t f)).running = some t := by
        simp [Loop.drive, htask, driver, hphase]
      have hresumed := hcalled.step (e := .resume faults (.factoryReturned (built t).1 (built t).2))
        trivial (by simp [Loop.system, Loop.enabled, Loop.drive, Loop.put, htask, driver, accepts,
          hphase])
      rw [show (Loop.system (driver respond)).effect = Loop.effect (driver respond) from rfl]
        at hresumed
      simp only [Loop.effect, hrunning, Loop.drive_drive] at hresumed
      rw [hplain _ fun k' hk' => ?_]
      · exact hresumed
      · obtain rfl : k = k' := by simpa [htask] using hk'
        simp [plainCall, hphase, driver, resume]
    | idle | stepping | closing entered =>
      rw [hplain _ fun k' hk' => ?_]
      · exact hcalled
      · obtain rfl : k = k' := by simpa [htask] using hk'
        simp only [plainCall, hphase]

/-- Every run with plain coroutine functions is a run of the driver. -/
theorem reaches_of_plain {allowed : Loop LoopHandles HandlerTask → Event → Prop}
    (hreach : (Loop.system (plain respond built)).ReachesUnder allowed s) :
    (Loop.system (driver respond)).Reaches s := by
  have hsame : Loop.enabled (plain respond built) = Loop.enabled (driver respond) := rfl
  induction hreach with
  | init h => exact .init ⟨h.tasks, h.running, h.callbacks, h.ready, h.currentTask, h.contexts,
      h.registered, h.log, h.shared⟩
  | @step s e _ _ henabled ih =>
    rw [show (Loop.system (plain respond built)).enabled = _ from hsame] at henabled
    cases e with
    | act a =>
      have hact := ih.step (e := Event.act a) trivial henabled
      exact hact
    | resume faults input =>
      have hresume := ih.step (e := Event.resume faults input) trivial henabled
      exact hresume
    | run faults =>
      have hidle : s.running = none := by
        have h : s.running.isNone = true ∧ s.world.ready.isEmpty = false := by
          simpa [Loop.system, Loop.enabled] using henabled
        simpa using h.1
      simp only [Loop.system, Loop.effect]
      split
      · exact ih
      next head rest hready =>
      have hrun := ih.step (e := .run faults) trivial
        (by simp [Loop.system, Loop.enabled, hidle, hready])
      rw [show (Loop.system (driver respond)).effect = Loop.effect (driver respond) from rfl]
        at hrun
      simp only [Loop.effect, hready] at hrun
      cases head with
      | step t e => exact reaches_plainCall hrun
      | wake t f => exact reaches_plainCall hrun
      | cancel t => exact hrun
      | doneCallback => exact hrun

end

end Rayo.HandlerTask
