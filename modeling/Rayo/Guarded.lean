import Rayo.Transition

/-!
# Objects behind a lock that is not reentrant

The methods of an object keep its state behind a lock. A locked section sees the state and
replaces it, and may have to run code of others on the way, which it calls its hooks. Between the
sections a method calls code of others without the lock. Code of others may call any method of
the object, and a hook that does so finds the lock taken by its own thread.
-/

namespace Guarded

/-- What the methods of an object are made of. -/
structure Interface where
  State : Type
  /-- The locked sections. -/
  Sect : Type
  /-- The calls that are made without the lock. -/
  Call : Type
  Reply : Call → Type
  /-- Code of others that a locked section runs. -/
  Hook : Type
  effect : Sect → State → State
  hooks : Sect → State → List Hook

variable {I : Interface} {α β γ : Type}

/-- What a method does: locked sections, which tell the state before them, and calls. -/
inductive Prog (I : Interface) (α : Type) : Type
  | done (a : α)
  | locked (sect : I.Sect) (rest : I.State → Prog I α)
  | call (c : I.Call) (rest : I.Reply c → Prog I α)

namespace Prog

/-- One program after another. -/
def bind : Prog I α → (α → Prog I β) → Prog I β
  | .done a, f => f a
  | .locked sect rest, f => .locked sect fun st => (rest st).bind f
  | .call c rest, f => .call c fun reply => (rest reply).bind f

/-- Programs are put one after the other. -/
instance : Monad (Prog I) where
  pure := .done
  bind := bind

/-- A locked section comes first. -/
@[simp] theorem locked_bind (sect : I.Sect) (rest : I.State → Prog I α) (f : α → Prog I β) :
    Prog.locked sect rest >>= f = .locked sect fun st => rest st >>= f := rfl

/-- A call comes first. -/
@[simp] theorem call_bind (c : I.Call) (rest : I.Reply c → Prog I α) (f : α → Prog I β) :
    Prog.call c rest >>= f = .call c fun reply => rest reply >>= f := rfl

/-- Three programs in a row can be put together in both ways. -/
theorem bind_assoc (p : Prog I α) (f : α → Prog I β) (g : β → Prog I γ) :
    p >>= f >>= g = p >>= fun a => f a >>= g := by
  induction p with
  | done a => rfl
  | locked sect rest ih => exact congrArg (Prog.locked sect) (funext ih)
  | call c rest ih => exact congrArg (Prog.call c) (funext ih)

/-- Nothing follows. -/
theorem bind_done (p : Prog I α) : p >>= Prog.done = p := by
  induction p with
  | done a => rfl
  | locked sect rest ih => exact congrArg (Prog.locked sect) (funext ih)
  | call c rest ih => exact congrArg (Prog.call c) (funext ih)

/-- The program never asks for the lock and never lets others run. -/
def isPure : Prog I α → Bool
  | .done _ => true
  | .locked .. | .call .. => false

/-- All locked sections of the program are of this kind. -/
inductive Within (P : I.Sect → Prop) : Prog I α → Prop
  | done (a : α) : Within P (.done a)
  | locked {sect : I.Sect} {rest : I.State → Prog I α} :
    P sect → (∀ st, Within P (rest st)) → Within P (.locked sect rest)
  | call {c : I.Call} {rest : I.Reply c → Prog I α} :
    (∀ reply, Within P (rest reply)) → Within P (.call c rest)

/-- What the program does to the state and what it returns, if nobody interferes and the code of
others gives these replies. -/
def run (replies : ∀ c, I.Reply c) : Prog I α → I.State → I.State × α
  | .done a, st => (st, a)
  | .locked sect rest, st => (rest st).run replies (I.effect sect st)
  | .call c rest, st => (rest (replies c)).run replies st

/-- A program that is done has run. -/
@[simp] theorem run_done (replies : ∀ c, I.Reply c) (a : α) (st : I.State) :
    (Prog.done a).run replies st = (st, a) := rfl

/-- A locked section takes effect before the rest of the program runs. -/
@[simp] theorem run_locked (replies : ∀ c, I.Reply c) (sect : I.Sect) (rest : I.State → Prog I α)
    (st : I.State) :
    (Prog.locked sect rest).run replies st = (rest st).run replies (I.effect sect st) := rfl

/-- A call is answered before the rest of the program runs. -/
@[simp] theorem run_call (replies : ∀ c, I.Reply c) (c : I.Call) (rest : I.Reply c → Prog I α)
    (st : I.State) :
    (Prog.call c rest).run replies st = (rest (replies c)).run replies st := rfl

/-- Two programs run one after the other. -/
theorem run_bind (replies : ∀ c, I.Reply c) (p : Prog I α) (f : α → Prog I β) (st : I.State) :
    (p >>= f).run replies st =
      (f (p.run replies st).2).run replies (p.run replies st).1 := by
  induction p generalizing st with
  | done a => rfl
  | locked sect rest ih => exact ih st (I.effect sect st)
  | call c rest ih => exact ih (replies c) st

/-- What holds of the sections of two programs holds of the sections of both in a row. -/
theorem Within.bind {P : I.Sect → Prop} {p : Prog I α} {f : α → Prog I β} (hp : Within P p)
    (hf : ∀ a, Within P (f a)) : Within P (p >>= f) := by
  induction hp with
  | done a => exact hf a
  | locked hsect _ ih => exact .locked hsect ih
  | call _ ih => exact .call ih

end Prog

/-- What is on the stack of the thread. -/
inductive Frame (I : Interface)
  /-- Code of others that a locked section runs. -/
  | hook (h : I.Hook)
  /-- Code of others that was called without the lock, or that came in between. -/
  | outside
  | running (rest : Prog I Unit)
  /-- A method whose call has not come back. -/
  | waiting (c : I.Call) (rest : I.Reply c → Prog I Unit)
  /-- A method in a locked section that has still to run these hooks. -/
  | holding (hooks : List I.Hook) (rest : Prog I Unit)

/-- The frame is a method in a locked section. -/
def Frame.holds : Frame I → Bool
  | .holding .. => true
  | .hook _ | .outside | .running _ | .waiting .. => false

/-- What is left of the method has only locked sections of this kind. -/
inductive Frame.Within (P : I.Sect → Prop) : Frame I → Prop
  | hook (h : I.Hook) : Frame.Within P (.hook h)
  | outside : Frame.Within P .outside
  | running {rest : Prog I Unit} : Prog.Within P rest → Frame.Within P (.running rest)
  | waiting {c : I.Call} {rest : I.Reply c → Prog I Unit} :
    (∀ reply, Prog.Within P (rest reply)) → Frame.Within P (.waiting c rest)
  | holding {hooks : List I.Hook} {rest : Prog I Unit} :
    Prog.Within P rest → Frame.Within P (.holding hooks rest)

/-- The object and one of the threads that use it, with the innermost frame first. -/
structure Thread (I : Interface) where
  state : I.State
  /-- The thread has the lock. -/
  held : Bool
  stack : List (Frame I)

/-- The events of a thread. -/
inductive Event (I : Interface) (Method : Type)
  /-- Code of others calls a method of the object. -/
  | call (m : Method)
  /-- It comes back from a call, with an answer for whichever call that is. -/
  | reply (answer : ∀ c, I.Reply c)
  | hookReturns
  /-- The innermost method goes on. -/
  | step
  /-- Code of others gets control between two steps. -/
  | interrupt
  /-- Another thread uses the object. -/
  | elsewhere (st : I.State)

namespace Thread

variable {Method : Type} (talks : I.Hook → Bool) (method : Method → Prog I Unit)

/-- When an event can happen. Only a hook that talks calls methods that take the lock. -/
def enabled (s : Thread I) : Event I Method → Bool
  | .call m => match s.stack with
    | [] | .outside :: _ => true
    | .hook h :: _ => talks h || (method m).isPure
    | _ => false
  | .reply _ => match s.stack with
    | .outside :: _ => true
    | _ => false
  | .hookReturns => match s.stack with
    | .hook _ :: _ => true
    | _ => false
  | .step => match s.stack with
    | .running (.locked ..) :: _ => !s.held
    | .running _ :: _ | .holding .. :: _ => true
    | _ => false
  | .interrupt | .elsewhere _ => !s.held

/-- The stack when the code of others on top has come back with an answer. -/
def afterReply (answer : ∀ c, I.Reply c) : List (Frame I) → List (Frame I)
  | .waiting c rest :: below => .running (rest (answer c)) :: below
  | below => below

/-- The thread when the innermost method has gone on. -/
def advance (s : Thread I) : Thread I :=
  match s.stack with
  | .running (.done _) :: below => { s with stack := below }
  | .running (.locked sect rest) :: below =>
    { state := I.effect sect s.state
      held := true
      stack := .holding (I.hooks sect s.state) (rest s.state) :: below }
  | .running (.call c rest) :: below => { s with stack := .outside :: .waiting c rest :: below }
  | .holding (h :: hooks) rest :: below =>
    { s with stack := .hook h :: .holding hooks rest :: below }
  | .holding [] rest :: below => { s with held := false, stack := .running rest :: below }
  | _ => s

/-- What an event does. -/
def effect (s : Thread I) : Event I Method → Thread I
  | .call m => { s with stack := .running (method m) :: s.stack }
  | .reply answer => { s with stack := afterReply answer s.stack.tail }
  | .hookReturns => { s with stack := s.stack.tail }
  | .step => s.advance
  | .interrupt => { s with stack := .outside :: s.stack }
  | .elsewhere st => { s with state := st }

/-- All runs of a thread that begins outside of the object. -/
def system : Transition.System (Thread I) (Event I Method) where
  init s := s.stack = [] ∧ s.held = false
  enabled := enabled talks method
  effect := effect method

/-- The thread waits for the lock that it has. -/
def Stuck (s : Thread I) : Prop :=
  ∃ sect rest below, s.stack = .running (.locked sect rest) :: below ∧ s.held = true

/-- The thread is about to enter this locked section. -/
def Enters (s : Thread I) (sect : I.Sect) : Prop :=
  s.held = false ∧ ∃ rest below, s.stack = .running (.locked sect rest) :: below

/-- If the event enters a locked section, none of the hooks that the section runs talks. -/
def EntersQuietly (s : Thread I) : Event I Method → Prop
  | .step => ∀ sect, s.Enters sect → ∀ h ∈ I.hooks sect s.state, talks h = false
  | _ => True

/-- Where the lock can be while no hook talks. -/
inductive Sound : Thread I → Prop
  | free {st : I.State} {stack : List (Frame I)} : (∀ f ∈ stack, f.holds = false) →
    Sound ⟨st, false, stack⟩
  | holding {st : I.State} {hooks : List I.Hook} {rest : Prog I Unit} {below : List (Frame I)} :
    (∀ f ∈ below, f.holds = false) → (∀ h ∈ hooks, talks h = false) →
    Sound ⟨st, true, .holding hooks rest :: below⟩
  | hook {st : I.State} {h : I.Hook} {hooks : List I.Hook} {rest : Prog I Unit}
      {below : List (Frame I)} :
    (∀ f ∈ below, f.holds = false) → talks h = false → (∀ h ∈ hooks, talks h = false) →
    Sound ⟨st, true, .hook h :: .holding hooks rest :: below⟩
  | called {st : I.State} {h : I.Hook} {hooks : List I.Hook} {rest : Prog I Unit}
      {below : List (Frame I)} :
    (∀ f ∈ below, f.holds = false) → talks h = false → (∀ h ∈ hooks, talks h = false) →
    Sound ⟨st, true, .running (.done ()) :: .hook h :: .holding hooks rest :: below⟩

variable {talks} {method} {s : Thread I}

/-- While the thread does not have the lock. -/
theorem Sound.of_free (h : Sound talks s) (hfree : s.held = false) :
    ∀ f ∈ s.stack, f.holds = false := by
  cases h with
  | free hstack => exact hstack
  | holding => cases hfree
  | hook => cases hfree
  | called => cases hfree

/-- A free lock that no frame holds is in its place. -/
theorem Sound.free_of_eq {s' : Thread I} (hheld : s'.held = false)
    (hstack : ∀ f ∈ s'.stack, f.holds = false) : Sound talks s' := by
  obtain ⟨st, held, stack⟩ := s'
  obtain rfl : held = false := hheld
  exact .free hstack

/-- With the lock the thread never asks for it. -/
theorem Sound.not_stuck (h : Sound talks s) : ¬s.Stuck := by
  rintro ⟨sect, rest, below, hstack, hheld⟩
  cases h with
  | free => cases hheld
  | holding => cases hstack
  | hook => cases hstack
  | called => cases hstack

/-- No frame holds the lock when the code of others has come back. -/
theorem holds_afterReply {answer : ∀ c, I.Reply c} {stack : List (Frame I)}
    (h : ∀ f ∈ stack, f.holds = false) : ∀ f ∈ afterReply answer stack, f.holds = false := by
  intro f hf
  unfold afterReply at hf
  split at hf
  · rcases List.mem_cons.mp hf with rfl | hf
    · rfl
    · exact h f (List.mem_cons_of_mem _ hf)
  · exact h f hf

/-- A method that is called finds the lock in its place. -/
theorem Sound.call (h : Sound talks s) {m : Method}
    (henabled : enabled talks method s (.call m) = true) :
    Sound talks (s.effect method (.call m)) := by
  cases h with
  | free hstack =>
    refine .free fun f hf => ?_
    rcases List.mem_cons.mp hf with rfl | hf
    · rfl
    · exact hstack f hf
  | holding => simp [enabled] at henabled
  | @hook st h hooks rest below hbelow hquiet hhooks =>
    have hpure : (method m).isPure = true := by simpa [enabled, hquiet] using henabled
    cases hm : method m with
    | done a =>
      simp only [Thread.effect, hm]
      exact .called hbelow hquiet hhooks
    | locked sect rest => simp [hm, Prog.isPure] at hpure
    | call c rest => simp [hm, Prog.isPure] at hpure
  | called => simp [enabled] at henabled

/-- A method that goes on leaves the lock in its place as long as no hook talks. -/
theorem Sound.step (h : Sound talks s) (hquiet : s.EntersQuietly talks (.step : Event I Method))
    (henabled : enabled talks method s .step = true) : Sound talks s.advance := by
  cases h with
  | @free st stack hstack =>
    cases stack with
    | nil => exact .free hstack
    | cons f below =>
      have hbelow : ∀ f ∈ below, f.holds = false := fun f hf =>
        hstack f (List.mem_cons_of_mem _ hf)
      cases f with
      | hook h => exact .free hstack
      | outside => exact .free hstack
      | waiting c rest => exact .free hstack
      | holding hooks rest => exact absurd (hstack _ List.mem_cons_self) (by simp [Frame.holds])
      | running prog =>
        cases prog with
        | done a => exact .free hbelow
        | locked sect rest => exact .holding hbelow (hquiet sect ⟨rfl, rest, below, rfl⟩)
        | call c rest =>
          refine .free fun f hf => ?_
          simp only [List.mem_cons] at hf
          rcases hf with rfl | rfl | hf
          · rfl
          · rfl
          · exact hbelow f hf
  | @holding st hooks rest below hbelow hhooks =>
    cases hooks with
    | nil =>
      refine .free fun f hf => ?_
      rcases List.mem_cons.mp hf with rfl | hf
      · rfl
      · exact hbelow f hf
    | cons h hooks =>
      exact .hook hbelow (hhooks h List.mem_cons_self) fun h' hh' =>
        hhooks h' (List.mem_cons_of_mem _ hh')
  | hook => simp [enabled] at henabled
  | called hbelow hquiet' hhooks => exact .hook hbelow hquiet' hhooks

/-- **One step** leaves the lock in its place as long as no hook talks. -/
theorem Sound.effect (h : Sound talks s) {e : Event I Method} (hquiet : s.EntersQuietly talks e)
    (henabled : enabled talks method s e = true) : Sound talks (s.effect method e) := by
  cases e with
  | call m => exact h.call henabled
  | step => exact h.step hquiet henabled
  | reply answer =>
    cases h with
    | free hstack =>
      exact .free (holds_afterReply fun f hf => hstack f (List.mem_of_mem_tail hf))
    | holding => simp [enabled] at henabled
    | hook => simp [enabled] at henabled
    | called => simp [enabled] at henabled
  | hookReturns =>
    cases h with
    | free hstack => exact .free fun f hf => hstack f (List.mem_of_mem_tail hf)
    | holding => simp [enabled] at henabled
    | hook hbelow _ hhooks => exact .holding hbelow hhooks
    | called => simp [enabled] at henabled
  | interrupt =>
    have hfree : s.held = false := by simpa [enabled] using henabled
    refine .free_of_eq hfree fun f hf => ?_
    rcases List.mem_cons.mp hf with rfl | hf
    · rfl
    · exact h.of_free hfree f hf
  | elsewhere st =>
    have hfree : s.held = false := by simpa [enabled] using henabled
    exact .free_of_eq hfree (h.of_free hfree)

/-- **Quiet hooks are enough.** The thread never waits for the lock that it has, whatever the code
of others does without the lock, and whatever other threads do. -/
theorem not_stuck_of_quiet
    (hreach : (system talks method).ReachesUnder (EntersQuietly talks) s) : ¬s.Stuck := by
  have hsound : Sound talks s := by
    refine hreach.invariant ?_ fun s e h hallowed henabled => h.effect hallowed henabled
    rintro s ⟨hstack, hheld⟩
    exact .free_of_eq hheld (by simp [hstack])
  exact hsound.not_stuck

/-- An answer leaves methods with sections of the same kind. -/
theorem within_afterReply {P : I.Sect → Prop} {answer : ∀ c, I.Reply c} {stack : List (Frame I)}
    (h : ∀ f ∈ stack, f.Within P) : ∀ f ∈ afterReply answer stack, f.Within P := by
  intro f hf
  unfold afterReply at hf
  split at hf
  · next c rest below =>
    rcases List.mem_cons.mp hf with rfl | hf
    · cases h (.waiting c rest) List.mem_cons_self with
      | waiting hrest => exact .running (hrest _)
    · exact h f (List.mem_cons_of_mem _ hf)
  · exact h f hf

/-- A method that goes on keeps to sections of the same kind. -/
theorem within_advance {P : I.Sect → Prop} (h : ∀ f ∈ s.stack, f.Within P) :
    ∀ f ∈ s.advance.stack, f.Within P := by
  obtain ⟨st, held, stack⟩ := s
  cases stack with
  | nil => exact h
  | cons top below =>
    have htop := h top List.mem_cons_self
    have hbelow : ∀ f ∈ below, f.Within P := fun f hf => h f (List.mem_cons_of_mem _ hf)
    cases htop with
    | hook | outside | waiting => exact h
    | running hprog =>
      cases hprog with
      | done => exact hbelow
      | locked _ hrest => exact List.forall_mem_cons.mpr ⟨.holding (hrest st), hbelow⟩
      | call hrest =>
        exact List.forall_mem_cons.mpr ⟨.outside, List.forall_mem_cons.mpr
          ⟨.waiting hrest, hbelow⟩⟩
    | @holding hooks rest hrest =>
      cases hooks with
      | nil => exact List.forall_mem_cons.mpr ⟨.running hrest, hbelow⟩
      | cons h hooks =>
        exact List.forall_mem_cons.mpr ⟨.hook _, List.forall_mem_cons.mpr
          ⟨.holding hrest, hbelow⟩⟩

/-- **Only sections of the methods that are called.** If the methods that a thread calls have only
locked sections of one kind, it enters no others. -/
theorem enters_of_within {P : I.Sect → Prop} (hreach : (system talks method).ReachesUnder
    (fun _ e => ∀ m, e = .call m → Prog.Within P (method m)) s) {sect : I.Sect}
    (henters : s.Enters sect) : P sect := by
  have hstack : ∀ f ∈ s.stack, f.Within P := by
    refine Transition.System.ReachesUnder.invariant (I := fun s => ∀ f ∈ s.stack, f.Within P)
      hreach ?_ fun s e hwithin hallowed _ => ?_
    · rintro s ⟨hstack, -⟩
      simp [hstack]
    · cases e with
      | call m => exact List.forall_mem_cons.mpr ⟨.running (hallowed m rfl), hwithin⟩
      | reply answer => exact within_afterReply fun f hf => hwithin f (List.mem_of_mem_tail hf)
      | hookReturns => exact fun f hf => hwithin f (List.mem_of_mem_tail hf)
      | step => exact within_advance hwithin
      | interrupt => exact List.forall_mem_cons.mpr ⟨.outside, hwithin⟩
      | elsewhere st => exact hwithin
  obtain ⟨-, rest, below, heq⟩ := henters
  have htop := hstack (.running (.locked sect rest)) (by simp [heq])
  cases htop with
  | running hprog =>
    cases hprog with
    | locked hsect => exact hsect

/-- The hooks of a section run one after another. -/
theorem exec_hooks (st : I.State) (rest : Prog I Unit) (below : List (Frame I))
    (before : List I.Hook) (h : I.Hook) (after : List I.Hook) : ∃ es,
    (system talks method).exec ⟨st, true, .holding (before ++ h :: after) rest :: below⟩ es =
      some ⟨st, true, .hook h :: .holding after rest :: below⟩ := by
  induction before with
  | nil => exact ⟨[.step], rfl⟩
  | cons h' before ih =>
    obtain ⟨es, hexec⟩ := ih
    exact ⟨.step :: .hookReturns :: es, hexec⟩

/-- **And they are needed.** A thread that enters a section with a hook that talks comes to wait
for its own lock when the hook calls a method that begins with a locked section. -/
theorem stuck_of_talking {m : Method} {sect sect' : I.Sect} {rest' : I.State → Prog I Unit}
    {h : I.Hook} (henters : s.Enters sect) (hh : h ∈ I.hooks sect s.state) (htalks : talks h = true)
    (hm : method m = .locked sect' rest') :
    ∃ es s', (system talks method).exec s es = some s' ∧ s'.Stuck := by
  obtain ⟨hfree, rest, below, hstack⟩ := henters
  obtain ⟨before, after, hsplit⟩ := List.append_of_mem hh
  obtain ⟨st, held, stack⟩ := s
  obtain rfl : held = false := hfree
  obtain rfl : stack = .running (.locked sect rest) :: below := hstack
  obtain ⟨es, hexec⟩ : ∃ es, (system talks method).exec
      ⟨I.effect sect st, true, .holding (before ++ h :: after) (rest st) :: below⟩ es =
        some ⟨I.effect sect st, true, .hook h :: .holding after (rest st) :: below⟩ :=
    exec_hooks _ _ _ before h after
  rw [← hsplit] at hexec
  refine ⟨.step :: (es ++ [.call m]), ⟨I.effect sect st, true,
    .running (method m) :: .hook h :: .holding after (rest st) :: below⟩, ?_, ?_⟩
  · have hlast : (system talks method).exec
        ⟨I.effect sect st, true, .hook h :: .holding after (rest st) :: below⟩ [.call m] =
          some ⟨I.effect sect st, true,
            .running (method m) :: .hook h :: .holding after (rest st) :: below⟩ := by
      simp [Transition.System.exec, system, enabled, effect, htalks]
    exact (Transition.System.exec_append hexec _).trans hlast
  · exact ⟨sect', rest', _, by rw [hm], rfl⟩

end Thread

end Guarded
