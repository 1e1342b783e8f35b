import Rayo.Guarded

/-!
# Methods that wait for code of others

An environment keeps data of its own, which locked sections may touch and calls change. It answers
most calls at once. In the others code of others takes over, and the method is suspended until
that code comes back. A method that runs in an environment is a thread that nothing interferes
with, so what it does to the state is what a run of such a thread does.
-/

namespace Guarded

variable {I : Interface} {W α β γ : Type}

/-- What surrounds an object, with data from `W`. -/
structure Environment (I : Interface) (W : Type) where
  /-- What a locked section does to the data, given the state that it finds. -/
  enters : I.Sect → I.State → W → W
  /-- What a call does to the data, and its answer. Without one, code of others takes over. -/
  calls (c : I.Call) : W → W × Option (I.Reply c)

/-- How far a method is: it is over, or it is in a call that has not come back. -/
inductive Paused (I : Interface) (α : Type)
  | done (a : α)
  | waiting (c : I.Call) (rest : I.Reply c → Prog I α)

namespace Prog

/-- Run a method until it is over or suspended. -/
def runIn (E : Environment I W) : Prog I α → I.State × W → (I.State × W) × Paused I α
  | .done a, x => (x, .done a)
  | .locked sect rest, x => (rest x.1).runIn E (I.effect sect x.1, E.enters sect x.1 x.2)
  | .call c rest, x =>
    match E.calls c x.2 with
    | (w, some reply) => (rest reply).runIn E (x.1, w)
    | (w, none) => ((x.1, w), .waiting c rest)

/-- Go on with another program, once the first one is over. -/
def goOn (E : Environment I W) (f : α → Prog I β) :
    (I.State × W) × Paused I α → (I.State × W) × Paused I β
  | (x, .done a) => (f a).runIn E x
  | (x, .waiting c rest) => (x, .waiting c fun reply => rest reply >>= f)

section

variable {E : Environment I W} {x : I.State × W}

/-- A program that is done has run. -/
@[simp] theorem runIn_done (a : α) : (Prog.done a).runIn E x = (x, .done a) := rfl

/-- A locked section takes effect before the rest of the program runs. -/
@[simp] theorem runIn_locked (sect : I.Sect) (rest : I.State → Prog I α) :
    (Prog.locked sect rest).runIn E x =
      (rest x.1).runIn E (I.effect sect x.1, E.enters sect x.1 x.2) := rfl

/-- The program goes on after a call that is answered at once. -/
theorem runIn_call_some {c : I.Call} {rest : I.Reply c → Prog I α} {w : W} {reply : I.Reply c}
    (h : E.calls c x.2 = (w, some reply)) :
    (Prog.call c rest).runIn E x = (rest reply).runIn E (x.1, w) := by
  rw [runIn, h]

/-- The program waits for a call that is not answered at once. -/
theorem runIn_call_none {c : I.Call} {rest : I.Reply c → Prog I α} {w : W}
    (h : E.calls c x.2 = (w, none)) :
    (Prog.call c rest).runIn E x = ((x.1, w), .waiting c rest) := by
  rw [runIn, h]

/-- Two programs run one after the other, the second from where the first is done. -/
theorem runIn_bind (p : Prog I α) (f : α → Prog I β) :
    (p >>= f).runIn E x = goOn E f (p.runIn E x) := by
  induction p generalizing x with
  | done a => rfl
  | locked sect rest ih => exact ih x.1
  | call c rest ih =>
    rw [call_bind]
    cases hcall : E.calls c x.2 with
    | mk w answer =>
      cases answer with
      | none => rw [runIn_call_none hcall, runIn_call_none hcall, goOn]
      | some reply => rw [runIn_call_some hcall, runIn_call_some hcall, ih reply]

/-- Code that is never suspended is done before what follows begins. -/
theorem runIn_bind_of_done {p : Prog I α} {f : α → Prog I β} {y : I.State × W} {a : α}
    (h : p.runIn E x = (y, .done a)) : (p >>= f).runIn E x = (f a).runIn E y := by
  rw [runIn_bind, h, goOn]

/-- A program that waits takes along what comes after it. -/
theorem runIn_bind_of_waiting {p : Prog I α} {f : α → Prog I β} {y : I.State × W} {c : I.Call}
    {rest : I.Reply c → Prog I α} (h : p.runIn E x = (y, .waiting c rest)) :
    (p >>= f).runIn E x = (y, .waiting c fun reply => rest reply >>= f) := by
  rw [runIn_bind, h, goOn]

/-- What every locked section keeps, a method keeps. -/
theorem runIn_invariant {P : I.State → Prop} (h : ∀ sect st, P st → P (I.effect sect st))
    (p : Prog I α) (hx : P x.1) : P (p.runIn E x).1.1 := by
  induction p generalizing x with
  | done a => exact hx
  | locked sect rest ih => exact ih x.1 (h sect x.1 hx)
  | call c rest ih =>
    cases hcall : E.calls c x.2 with
    | mk w answer =>
      cases answer with
      | none =>
        rw [runIn_call_none hcall]
        exact hx
      | some reply =>
        rw [runIn_call_some hcall]
        exact ih reply hx

end

end Prog

/-- The frames of a method on top of others. -/
def Paused.frames (below : List (Frame I)) : Paused I Unit → List (Frame I)
  | .done _ => below
  | .waiting c rest => .outside :: .waiting c rest :: below

/-- Neither another thread nor code that comes in between takes part. -/
def Event.undisturbed {Method : Type} : Event I Method → Prop
  | .interrupt | .elsewhere _ => False
  | .call _ | .reply _ | .hookReturns | .step => True

namespace Thread

variable {Method : Type} (talks : I.Hook → Bool) (method : Method → Prog I Unit)

/-- A thread that uses a new object gets there, and nothing interferes. -/
def Alone (st₀ : I.State) : Thread I → Prop :=
  ((system talks method).startingAt ⟨st₀, false, []⟩).ReachesUnder fun _ e => e.undisturbed

variable {talks : I.Hook → Bool} {method : Method → Prog I Unit} {st₀ st : I.State}
  {below : List (Frame I)}

/-- A new object is there alone. -/
theorem Alone.start : Alone talks method st₀ ⟨st₀, false, []⟩ := .init rfl

/-- What a thread does with an object of its own leads to where it gets alone. -/
theorem Alone.next {s : Thread I} (h : Alone talks method st₀ s) (e : Event I Method)
    (hcalm : e.undisturbed) (henabled : enabled talks method s e = true) :
    Alone talks method st₀ (effect method s e) := .step h hcalm henabled

/-- The hooks of a section come back one after another, and the lock is free again. -/
theorem Alone.holding {hooks : List I.Hook} {rest : Prog I Unit}
    (h : Alone talks method st₀ ⟨st, true, .holding hooks rest :: below⟩) :
    Alone talks method st₀ ⟨st, false, .running rest :: below⟩ := by
  induction hooks with
  | nil => exact h.next .step trivial rfl
  | cons hook hooks ih =>
    have hhook : Alone talks method st₀ ⟨st, true, .hook hook :: .holding hooks rest :: below⟩ :=
      h.next .step trivial rfl
    exact ih (hhook.next .hookReturns trivial rfl)

/-- Code of others calls a method. -/
theorem Alone.call {rest : List (Frame I)} (h : Alone talks method st₀ ⟨st, false, rest⟩)
    (houtside : rest = [] ∨ ∃ below, rest = .outside :: below) (m : Method) :
    Alone talks method st₀ ⟨st, false, .running (method m) :: rest⟩ := by
  refine h.next (.call m) trivial ?_
  obtain rfl | ⟨below, rfl⟩ := houtside <;> rfl

variable [∀ c, Nonempty (I.Reply c)]

/-- Whatever a call is answered, code of others can come back with it. -/
theorem Alone.reply {c : I.Call} {rest : I.Reply c → Prog I Unit} (reply : I.Reply c)
    (h : Alone talks method st₀ ⟨st, false, .outside :: .waiting c rest :: below⟩) :
    Alone talks method st₀ ⟨st, false, .running (rest reply) :: below⟩ := by
  classical
  let answer : ∀ c, I.Reply c := Function.update (fun c => Classical.arbitrary (I.Reply c)) c reply
  have hanswer : answer c = reply := Function.update_self ..
  rw [← hanswer]
  exact h.next (.reply answer) trivial rfl

/-- **A method in its environment is a thread on its own.** -/
theorem Alone.runIn (E : Environment I W) (p : Prog I Unit) {x : I.State × W}
    (h : Alone talks method st₀ ⟨x.1, false, .running p :: below⟩) :
    Alone talks method st₀ ⟨(p.runIn E x).1.1, false, (p.runIn E x).2.frames below⟩ := by
  induction p generalizing x with
  | done a => exact h.next .step trivial rfl
  | locked sect rest ih =>
    have hholding : Alone talks method st₀
        ⟨I.effect sect x.1, true, .holding (I.hooks sect x.1) (rest x.1) :: below⟩ :=
      h.next .step trivial rfl
    exact ih x.1 hholding.holding
  | call c rest ih =>
    have hcalled : Alone talks method st₀ ⟨x.1, false, .outside :: .waiting c rest :: below⟩ :=
      h.next .step trivial rfl
    cases hcall : E.calls c x.2 with
    | mk w answer =>
      cases answer with
      | none =>
        rw [Prog.runIn_call_none hcall]
        exact hcalled
      | some reply =>
        rw [Prog.runIn_call_some hcall]
        exact ih reply (hcalled.reply reply)

end Thread

end Guarded
