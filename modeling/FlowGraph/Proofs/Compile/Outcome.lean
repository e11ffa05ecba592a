/-
How compiling ends.

Compiling ends with a result or an error, and writes a log on the way that nothing reads.
`Ends` speaks of the result and the error and covers every log, so that proofs about the
compiler never see one.  It says what is true in both endings at once: the proofs need the
two together, since an error inside of a body is an error of the graph around it.
-/
import FlowGraph.Compile.Program
import FlowGraph.Proofs.Outcome

namespace FlowGraph.Build

variable {α β : Type} {gives gives' : α → Prop} {fails fails' : BuildError → Prop}

/-- What compiling ends with, when the log is as it is. -/
def result (x : Build α) (log : BuildLog) : Except BuildError α :=
  (StateT.run (ExceptT.run x) log).1

/-- What compiling ends with, together with the log that it leaves. -/
def outcome (x : Build α) (log : BuildLog) : Except BuildError α × BuildLog :=
  StateT.run (ExceptT.run x) log

theorem outcome_bind (x : Build α) (f : α → Build β) (log : BuildLog) :
    outcome (x >>= f) log
      = match outcome x log with
        | (.ok a, after) => outcome (f a) after
        | (.error e, after) => (.error e, after) := by
  refine (FlowGraph.outcome_bind x f log).trans ?_
  rw [show FlowGraph.outcome x log = outcome x log from rfl]
  rcases outcome x log with ⟨_ | _, _⟩ <;> rfl

theorem outcome_lift (x : Except BuildError α) (log : BuildLog) :
    outcome (liftM x : Build α) log = (x, log) := by
  cases x <;> rfl

theorem outcome_noted (f : BuildLog → BuildLog) (log : BuildLog) :
    outcome (modify f : Build Unit) log = (.ok (), f log) := rfl

/-- A step begins with the log that the steps before it have left. -/
theorem result_bind (x : Build α) (f : α → Build β) (log : BuildLog) :
    ∃ after, result (x >>= f) log
      = match result x log with
        | .ok a => result (f a) after
        | .error e => .error e := by
  refine ⟨(outcome x log).2, (congrArg Prod.fst (outcome_bind x f log)).trans ?_⟩
  rw [show result x log = (outcome x log).1 from rfl]
  generalize outcome x log = r
  obtain ⟨out, after⟩ := r
  cases out <;> rfl

theorem result_lift (x : Except BuildError α) (log : BuildLog) :
    result (liftM x : Build α) log = x :=
  congrArg Prod.fst (outcome_lift x log)

/-- However compiling ends, what it gives or the error it fails with has a property. -/
def Ends (x : Build α) (gives : α → Prop) (fails : BuildError → Prop) : Prop :=
  ∀ log, match result x log with
    | .ok a => gives a
    | .error e => fails e

theorem Ends.ok {x : Build α} (h : Ends x gives fails) {log : BuildLog} {a : α}
    (ha : result x log = .ok a) : gives a := by
  have := h log
  rwa [ha] at this

theorem Ends.error {x : Build α} (h : Ends x gives fails) {log : BuildLog} {e : BuildError}
    (he : result x log = .error e) : fails e := by
  have := h log
  rwa [he] at this

theorem Ends.mono {x : Build α} (h : Ends x gives fails) (hg : ∀ a, gives a → gives' a)
    (hf : ∀ e, fails e → fails' e) : Ends x gives' fails' := by
  intro log
  have := h log
  split at this
  · exact hg _ this
  · exact hf _ this

theorem Ends.pure {a : α} (h : gives a) : Ends (Pure.pure a : Build α) gives fails := fun _ => h

theorem Ends.throw {e : BuildError} (h : fails e) :
    Ends (MonadExcept.throw e : Build α) gives fails :=
  fun _ => h

theorem Ends.lift {x : Except BuildError α} (hg : ∀ a, x = .ok a → gives a)
    (hf : ∀ e, x = .error e → fails e) : Ends (liftM x : Build α) gives fails := by
  intro log
  rw [result_lift]
  cases x with
  | ok a => exact hg a rfl
  | error e => exact hf e rfl

theorem Ends.bind {x : Build α} {f : α → Build β} {gives' : β → Prop} (hx : Ends x gives fails)
    (hf : ∀ a, gives a → Ends (f a) gives' fails) : Ends (x >>= f) gives' fails := by
  intro log
  have h := hx log
  obtain ⟨after, hbind⟩ := result_bind x f log
  rw [hbind]
  cases hr : result x log with
  | ok a =>
      rw [hr] at h
      exact hf a h after
  | error e =>
      rw [hr] at h
      exact h

/-- What is written to the log changes nothing. -/
theorem Ends.noted (f : BuildLog → BuildLog) :
    Ends (modify f : Build Unit) (fun _ => True) fails := fun _ => trivial

end FlowGraph.Build
