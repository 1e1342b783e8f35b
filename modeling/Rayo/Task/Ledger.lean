import Rayo.Task.Accessors

/-!
# The terminal bookkeeping of one task

Until a task is finished nothing has been written down of its completion. After that the stages of
its one `finish` say what is left to do, and when none is left the response has been sent.
-/

namespace Rayo.Lifecycle

open Asyncio HandlerTask

/-- The task is still in `live_tasks`. -/
def mayBeLive : Option FinishStage → Bool
  | some (.record ..) | some (.removeLive ..) => true
  | _ => false

/-- It is still to be taken out of asyncio's registry. -/
def owesUnregister : Option FinishStage → Bool
  | some (.removeLive _ wasRegistered _) | some (.unregister _ wasRegistered _) => wasRegistered
  | _ => false

/-- The channel still has its sender. -/
def holdsSender : Option FinishStage → Bool
  | some (.decrement _) | some (.deliver _) | none => false
  | _ => true

/-- What is written down of the completion of a task outside of it. -/
structure Ledger where
  live : Bool
  registered : Bool
  responses : List (TaskId × HandlerResponse)
  completions : List CompletionKind
  added : List (Value × Value)
  handed : List (Value × Value)
  unregisterError : Bool

/-- The ledger that a view shows. -/
def View.ledger (v : View) : Ledger where
  live := v.live
  registered := v.registered
  responses := v.responses
  completions := v.completions
  added := v.added
  handed := v.handed
  unregisterError := v.unregisterError

namespace Ledger

/-- Nothing has been written down of a task that is not finished. -/
structure Open (d : Ledger) (k : HandlerTask) : Prop where
  verdict : k.state.verdict = TaskState.noVerdict
  completions : d.completions = []
  added : d.added = k.state.doneCallbacks
  handed : d.handed = []
  sender : k.sender = true
  responses : d.responses = []
  registered : d.registered = true → k.state.registeredWithAsyncio = true

/-- The task is finished, up to what is left of its `finish`. -/
structure Closed (d : Ledger) (k : HandlerTask) (rest : Option FinishStage) : Prop where
  recorded : ∃ completion, d.completions = [completion] ∧
    k.state.verdict = TaskState.verdictOf completion
  doneCallbacks : k.state.doneCallbacks = []
  handed : (d.handed ++ rest.elim [] FinishStage.callbacks).Perm d.added
  live : mayBeLive rest = false → d.live = false
  registered : d.registered = true → owesUnregister rest = true ∨ d.unregisterError = true
  sender : k.sender = holdsSender rest
  responses : d.responses.length = if rest.isSome then 0 else 1
  begun : ∀ response completion, rest ≠ some (.record response completion)

variable {d : Ledger} {k k' : HandlerTask} {rest : Option FinishStage}

/-- A task that nothing has been written down of is not finished. -/
theorem Open.unfinished (h : d.Open k) : k.state.finished = false := congrArg Prod.fst h.verdict

/-- A task with a closed ledger is finished. -/
theorem Closed.finished (h : d.Closed k rest) : k.state.finished = true := by
  obtain ⟨completion, -, hverdict⟩ := h.recorded
  refine (congrArg Prod.fst hverdict).trans ?_
  cases completion <;> rfl

/-- The response has been sent when there is nothing left to do. -/
theorem Closed.rest_eq_none (h : d.Closed k rest) (hsent : d.responses ≠ []) : rest = none := by
  cases rest with
  | none => rfl
  | some stage => exact absurd (List.eq_nil_of_length_eq_zero h.responses) hsent

/-- Only these parts of a finished task matter. -/
theorem Closed.congr (h : d.Closed k rest) (hverdict : k'.state.verdict = k.state.verdict)
    (hcallbacks : k'.state.doneCallbacks = k.state.doneCallbacks) (hsender : k'.sender = k.sender) :
    d.Closed k' rest := by
  obtain ⟨completion, hcompletions, hrecorded⟩ := h.recorded
  exact ⟨⟨completion, hcompletions, hverdict.trans hrecorded⟩, hcallbacks.trans h.doneCallbacks,
    h.handed, h.live, h.registered, hsender.trans h.sender, h.responses, h.begun⟩

end Ledger

variable {v : View} {t : TaskId} {l l' : Local} {faults : Faults} {stage : FinishStage}

/-- A second `finish` finds nothing to do. -/
theorem finish_of_sent {response : HandlerResponse} {completion : CompletionKind}
    (hfinished : l.task.state.finished = true) (hsender : l.task.sender = false) :
    HandlerTask.finish faults t response completion l = l := by
  simp [HandlerTask.finish, hfinished, send, hsender]

/-- The ledger follows from the data of the loop. -/
theorem View.ledger_put (hshows : v.Shows t l) (hshared : l'.world.shared = l.world.shared)
    (hregistered : l'.world.registered = l.world.registered) : (v.put t l').ledger = v.ledger := by
  simp only [View.ledger, View.put, hshows.live, hshows.registered, hshows.responses, hshared,
    hregistered]

/-- A turn that does not end its task leaves the ledger open. -/
theorem Ledger.Open.undecided (h : v.ledger.Open l.task) (hshows : v.Shows t l)
    (hundecided : Undecided t l l') : (v.put t l').ledger.Open l'.task := by
  refine ⟨hundecided.verdict.trans h.verdict, h.completions,
    h.added.trans hundecided.doneCallbacks.symm, h.handed, hundecided.sender.trans h.sender, ?_,
    fun hregistered => ?_⟩
  · have hresponses := h.responses
    simp only [View.ledger, hshows.responses] at hresponses
    simpa only [View.ledger, View.put, hundecided.shared] using hresponses
  · rcases hundecided.registered with ⟨-, hflag⟩ | ⟨hmem, hflag⟩
    · exact hflag
    · rw [hflag]
      refine h.registered ?_
      have hin : t ∈ l'.world.registered := of_decide_eq_true hregistered
      simp only [View.ledger, hshows.registered]
      exact decide_eq_true (hmem.mp hin)

/-- A call on a finished task leaves the ledger as it is. -/
theorem Ledger.Closed.quiet {rest : Option FinishStage} (h : v.ledger.Closed l.task rest)
    (hshows : v.Shows t l) (hquiet : Quiet t l l') : (v.put t l').ledger.Closed l'.task rest := by
  rw [View.ledger_put hshows hquiet.shared hquiet.registry]
  exact h.congr hquiet.verdict hquiet.doneCallbacks hquiet.sender

/-- A completed task has no callbacks left. -/
theorem complete_doneCallbacks (st : TaskState) (completion : CompletionKind) :
    (st.complete completion).doneCallbacks = [] := by
  cases completion <;> rfl

/-- **The first stage closes the ledger.** -/
theorem Ledger.Open.record (h : v.ledger.Open l.task) (faults : Faults)
    (response : HandlerResponse) (completion : CompletionKind) (hshows : v.Shows t l) :
    ∃ l' next, (FinishStage.record response completion).advance faults t l = (l', some next) ∧
      ((v.put t l').remember faults l.task (.record response completion)).ledger.Closed l'.task
        (some next) := by
  have hopen := h.unfinished
  refine ⟨setState l (l.task.state.complete completion), .removeLive response
    l.task.state.registeredWithAsyncio l.task.state.doneCallbacks, ?_, ?_⟩
  · simp only [FinishStage.advance, hopen, Bool.false_eq_true, if_false]
  have hledger : ((v.put t (setState l (l.task.state.complete completion))).remember faults l.task
      (.record response completion)).ledger =
        { v.ledger with completions := completion :: v.ledger.completions } := by
    have hput : (v.put t (setState l (l.task.state.complete completion))).ledger = v.ledger :=
      View.ledger_put hshows rfl rfl
    rw [← hput]
    simp only [View.remember, hopen, Bool.false_eq_true, if_false]
    rfl
  rw [hledger]
  constructor
  case recorded =>
    refine ⟨completion, ?_, TaskState.verdict_complete h.verdict completion⟩
    rw [h.completions]
  case doneCallbacks => exact complete_doneCallbacks _ _
  case handed =>
    simp only [h.handed, h.added, Option.elim_some, FinishStage.callbacks, List.nil_append]
    exact .refl _
  case live => rintro ⟨⟩
  case registered => exact fun hregistered => .inl (h.registered hregistered)
  case sender => exact h.sender
  case responses =>
    simp only [h.responses]
    rfl
  case begun => rintro _ _ ⟨⟩

/-- **Every later stage writes down its part.** -/
theorem Ledger.Closed.advance (h : v.ledger.Closed l.task (some stage)) (faults : Faults)
    (hshows : v.Shows t l) :
    ((v.put t (stage.advance faults t l).1).remember faults l.task stage).ledger.Closed
      (stage.advance faults t l).1.task (stage.advance faults t l).2 := by
  have hput : (v.put t l).ledger = v.ledger := View.ledger_put hshows rfl rfl
  cases stage with
  | record response completion => exact absurd rfl (h.begun response completion)
  | removeLive response wasRegistered callbacks =>
    have hledger : (v.put t (HandlerTask.setWorld l (HandlerTask.removeLive t l.world))).ledger =
        { v.ledger with live := false } := by
      simp [View.ledger, View.put, HandlerTask.removeLive, hshows.registered, hshows.responses]
    show (v.put t (HandlerTask.setWorld l (HandlerTask.removeLive t l.world))).ledger.Closed l.task
      (some (.unregister response wasRegistered callbacks))
    rw [hledger]
    exact ⟨h.recorded, h.doneCallbacks, h.handed, fun _ => rfl, h.registered, h.sender,
      h.responses, by rintro _ _ ⟨⟩⟩
  | unregister response wasRegistered callbacks =>
    have hlive := h.live rfl
    cases wasRegistered with
    | false =>
      simp only [FinishStage.advance, Bool.false_and, Bool.false_eq_true, if_false,
        View.remember]
      rw [hput]
      exact ⟨h.recorded, h.doneCallbacks, h.handed, fun _ => hlive,
        fun hr => .inr ((h.registered hr).resolve_left (by rintro ⟨⟩)), h.sender, h.responses,
        by rintro _ _ ⟨⟩⟩
    | true =>
      cases hfault : faults.unregisterTask with
      | true =>
        simp only [FinishStage.advance, View.remember, hfault, Bool.not_true, Bool.and_false,
          Bool.false_eq_true, if_false, if_true]
        have hledger : ({ v.put t l with unregisterError := true } : View).ledger =
            { v.ledger with unregisterError := true } := by
          rw [← hput]
          rfl
        rw [hledger]
        exact ⟨h.recorded, h.doneCallbacks, h.handed, fun _ => hlive, fun _ => .inr rfl, h.sender,
          h.responses, by rintro _ _ ⟨⟩⟩
      | false =>
        simp only [FinishStage.advance, View.remember, hfault, Bool.not_false, Bool.and_true,
          Bool.false_eq_true, if_false, if_true]
        have hledger : (v.put t (HandlerTask.setWorld l (l.world.unregisterTask t))).ledger =
            { v.ledger with registered := false } := by
          simp [View.ledger, View.put, World.unregisterTask, hshows.live, hshows.responses]
        rw [hledger]
        exact ⟨h.recorded, h.doneCallbacks, h.handed, fun _ => hlive, (by rintro ⟨⟩), h.sender,
          h.responses, by rintro _ _ ⟨⟩⟩
  | fire response callbacks =>
    have hlive := h.live rfl
    have hregistered := fun hr => (h.registered hr).resolve_left (by rintro ⟨⟩)
    cases callbacks with
    | nil =>
      simp only [FinishStage.advance, View.remember]
      rw [hput]
      exact ⟨h.recorded, h.doneCallbacks, h.handed, fun _ => hlive, fun hr => .inr (hregistered hr),
        h.sender, h.responses, by rintro _ _ ⟨⟩⟩
    | cons entry rest =>
      obtain ⟨callback, context⟩ := entry
      have hperm : (v.handed ++ [(callback, context)] ++ rest).Perm v.added := by
        simpa [FinishStage.callbacks, View.ledger] using h.handed
      have hhanded {l' : Local} (hput : (v.put t l').ledger = v.ledger)
          (htask : l'.task = l.task) :
          ({ v.put t l' with handed := v.handed ++ [(callback, context)] } : View).ledger.Closed
            l'.task (some (.fire response rest)) := by
        have hledger : ({ v.put t l' with handed := v.handed ++ [(callback, context)] } : View).ledger
            = { v.ledger with handed := v.handed ++ [(callback, context)] } := by
          rw [← hput]
          rfl
        rw [hledger, htask]
        exact ⟨h.recorded, h.doneCallbacks, hperm, fun _ => hlive,
          fun hr => .inr (hregistered hr), h.sender, h.responses, by rintro _ _ ⟨⟩⟩
      simp only [FinishStage.advance, View.remember]
      split
      · exact hhanded hput rfl
      · exact hhanded (View.ledger_put hshows rfl rfl) rfl
  | take response =>
    have hsender : l.task.sender = true := h.sender
    have hput : (v.put t { l with task := { l.task with sender := false } }).ledger = v.ledger :=
      View.ledger_put hshows rfl rfl
    simp only [FinishStage.advance, View.remember, hsender, if_true]
    rw [hput]
    exact ⟨h.recorded, h.doneCallbacks, h.handed, fun _ => h.live rfl,
      fun hr => .inr ((h.registered hr).resolve_left (by rintro ⟨⟩)), rfl, h.responses,
      by rintro _ _ ⟨⟩⟩
  | decrement response =>
    have hput : (v.put t (HandlerTask.setWorld l { l.world with
        shared := { l.world.shared with inFlight := l.world.shared.inFlight - 1 } })).ledger =
        v.ledger := by
      simp only [View.ledger, hshows.live, hshows.registered, hshows.responses]
      rfl
    simp only [FinishStage.advance, View.remember]
    rw [hput]
    exact ⟨h.recorded, h.doneCallbacks, h.handed, fun _ => h.live rfl,
      fun hr => .inr ((h.registered hr).resolve_left (by rintro ⟨⟩)), h.sender, h.responses,
      by rintro _ _ ⟨⟩⟩
  | deliver response =>
    have hledger : (v.put t (HandlerTask.setWorld l { l.world with
        shared := { l.world.shared with
          responses := (t, response) :: l.world.shared.responses } })).ledger =
        { v.ledger with responses := (t, response) :: v.ledger.responses } := by
      have hfilter : ((t, response) :: l.world.shared.responses).filter (·.1 = t) =
          (t, response) :: l.world.shared.responses.filter (·.1 = t) :=
        List.filter_cons_of_pos (by simp)
      simp only [View.ledger, hshows.live, hshows.registered, hshows.responses, ← hfilter]
      rfl
    simp only [FinishStage.advance, View.remember]
    rw [hledger]
    refine ⟨h.recorded, h.doneCallbacks, h.handed, fun _ => h.live rfl,
      fun hr => .inr ((h.registered hr).resolve_left (by rintro ⟨⟩)), h.sender, ?_,
      by rintro _ _ ⟨⟩⟩
    simp [h.responses]

/-- A turn ends without asyncio's registry. -/
theorem endTurn_registered {entered : Bool} :
    (endTurn faults entered l).world.registered = l.world.registered := by
  unfold endTurn
  split
  · unfold leave
    dsimp only
    split <;> split <;> rfl
  · rfl

/-- The end of the turn writes down nothing. -/
theorem Ledger.Closed.endTurn {k : HandlerTask} {rest : Option FinishStage}
    (h : ((v.put t l).remember faults k stage).ledger.Closed l.task rest) (entered : Bool) :
    ((v.put t (endTurn faults entered l)).remember faults k stage).ledger.Closed
      (endTurn faults entered l).task rest := by
  have hshows : ((v.put t l).remember faults k stage).Shows t l := View.remember_put ..
  have hturn := Undecided.endTurn (t := t) faults entered l
  have hledger := View.ledger_put hshows hturn.shared endTurn_registered
  rw [View.remember_put] at hledger
  rw [show ((v.put t (HandlerTask.endTurn faults entered l)).remember faults k stage).ledger = _
    from hledger]
  exact h.congr hturn.verdict hturn.doneCallbacks hturn.sender

end Rayo.Lifecycle
