/-
How a computation ends that may fail and that changes a state.

It ends with a value or an error, and in both cases with the state as it has become.  A second
computation behind it starts from there, and only if there is a value.
-/
import Mathlib.Logic.Basic

namespace FlowGraph

variable {ε σ α β : Type} {s s' : σ} {e : ε}

/-- What a computation ends with, and the state as it leaves it. -/
def outcome (x : ExceptT ε (StateM σ) α) (s : σ) : Except ε α × σ := StateT.run (ExceptT.run x) s

theorem outcome_bind (x : ExceptT ε (StateM σ) α) (f : α → ExceptT ε (StateM σ) β) (s : σ) :
    outcome (x >>= f) s
      = match outcome x s with
        | (.ok a, after) => outcome (f a) after
        | (.error e, after) => (.error e, after) := by
  rw [outcome, ExceptT.run_bind, StateT.run_bind, outcome]
  generalize StateT.run (ExceptT.run x) s = r
  obtain ⟨out, after⟩ := r
  cases out <;> rfl

variable {x : ExceptT ε (StateM σ) α} {f : α → ExceptT ε (StateM σ) β}

theorem bind_ok_iff {b : β} :
    outcome (x >>= f) s = (.ok b, s') ↔
      ∃ a s₁, outcome x s = (.ok a, s₁) ∧ outcome (f a) s₁ = (.ok b, s') := by
  rw [outcome_bind]
  rcases outcome x s with ⟨_ | a, s₁⟩ <;> simp [and_assoc]

theorem bind_error_iff :
    outcome (x >>= f) s = (.error e, s') ↔
      outcome x s = (.error e, s') ∨
        ∃ a s₁, outcome x s = (.ok a, s₁) ∧ outcome (f a) s₁ = (.error e, s') := by
  rw [outcome_bind]
  rcases outcome x s with ⟨_ | a, s₁⟩ <;> simp [and_assoc]

theorem pure_ok_iff {a b : α} :
    outcome (pure a : ExceptT ε (StateM σ) α) s = (.ok b, s') ↔ a = b ∧ s = s' := by
  show ((.ok a, s) : Except ε α × σ) = _ ↔ _
  simp

theorem pure_error {a : α} : outcome (pure a : ExceptT ε (StateM σ) α) s ≠ (.error e, s') := nofun

end FlowGraph
