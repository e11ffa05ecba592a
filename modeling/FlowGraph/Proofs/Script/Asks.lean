/-
What a session asks for.

A script asks its host for something now and then, and what it asks for is a property of the
session, whatever the host answers.  Hence a host whose answers to certain questions keep
something keeps it over a whole session that asks no others.

Here the questions are those that call no function but the granted ones.  A step of the
machine asks for no others if the steps do that it is put together from, and of the simple
steps only one asks at all.
-/
import FlowGraph.Script.Evaluation

namespace FlowGraph.Script

variable {α β σ : Type}

/-- The question is no call of a function that was not granted. -/
def Request.Within (granted : List String) : Request → Prop
  | .print _ | .debug _ => True
  | .call name _ => name ∈ granted

namespace Session

variable {P : Request → Prop}

/-- The session asks such questions only, whatever the answers are. -/
def Asks (P : Request → Prop) : Session α → Prop
  | done _ => True
  | ask q next => P q ∧ ∀ r, (next r).Asks P

theorem Asks.bind {x : Session α} {f : α → Session β} (hx : x.Asks P) (hf : ∀ a, (f a).Asks P) :
    (x.bind f).Asks P := by
  induction x with
  | done a => exact hf a
  | ask q next ih => exact ⟨hx.1, fun r => ih r (hx.2 r)⟩

/-- What every answer to such a question keeps, the whole session keeps. -/
theorem Asks.run_keeps {host : Request → σ → Reply × σ} {Q : σ → Prop} {x : Session α}
    (hx : x.Asks P) (h : ∀ q s, P q → Q s → Q (host q s).2) {s : σ} (hs : Q s) :
    Q (x.run host s).2 := by
  induction x generalizing s with
  | done a => exact hs
  | ask q next ih => exact ih _ (hx.2 _) (h q s hx.1 hs)

end Session

/-- The engine asks for no functions that were not granted. -/
def Engine.AsksGranted (e : Engine) : Prop :=
  ∀ granted scope code, (e.run granted scope code).Asks (Request.Within granted)

namespace Run

variable {granted : List String}

/-- The step asks for no functions that were not granted. -/
def Asks (granted : List String) (x : Run α) : Prop := ∀ m, (x.run m).Asks (Request.Within granted)

/-! ### Steps of the machine -/

namespace Asks

theorem andThen {x : Run α} {f : Ending α → Session β} (hx : Asks granted x)
    (hf : ∀ r, (f r).Asks (Request.Within granted)) (m : Machine) :
    ((x.run m).andThen f).Asks (Request.Within granted) := by
  rw [Session.andThen_eq_bind]
  exact (hx m).bind hf

theorem pure (a : α) : Asks granted (Pure.pure a : Run α) := fun _ => trivial

theorem bind {x : Run α} {f : α → Run β} (hx : Asks granted x) (hf : ∀ a, Asks granted (f a)) :
    Asks granted (x >>= f) := by
  refine hx.andThen fun r => ?_
  cases r with
  | value a m => exact hf a m
  | signal s m => exact trivial
  | exhausted => exact trivial

theorem exhausted : Asks granted (Run.exhausted : Run α) := fun _ => trivial

theorem signal (s : Signal) : Asks granted (Run.signal s : Run α) := fun _ => trivial

/-- What is done with the machine itself asks for nothing. -/
theorem act (x : Action α) : Asks granted (Run.act x) := fun _ => trivial

/-- Of the simple steps only this one asks. -/
theorem ask {q : Request} (h : q.Within granted) : Asks granted (Run.ask q) :=
  fun _ => ⟨h, fun _ => trivial⟩

theorem attempt {x : Run α} (hx : Asks granted x) : Asks granted (Run.attempt x) :=
  hx.andThen fun _ => trivial

theorem locally {x : Run α} (hx : Asks granted x) : Asks granted (Run.locally x) := by
  intro m
  refine hx.andThen (fun _ => ?_) m
  exact trivial

theorem isolated (slots : List Slot) {x : Run α} (hx : Asks granted x) :
    Asks granted (Run.isolated slots x) := by
  intro m
  refine hx.andThen (fun _ => ?_) { m with slots := slots }
  exact trivial

end Asks

end Run

end FlowGraph.Script
