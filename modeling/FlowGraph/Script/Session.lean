/-
What a running script asks of the outside.

A script is a computation that now and then asks its host for something: to show a text,
or to call a function that the host has granted.  It goes on with the answer.  A session
is such a computation, laid open as a tree of questions.

So a script has no state of the host in its hands.  Whatever a host keeps is changed by
its answers and by nothing else, and what holds of every answer holds of the whole run.
-/
import FlowGraph.Json.Value

namespace FlowGraph.Script

/-- A question to the host. -/
inductive Request where
  | print (text : String)
  | debug (text : String)
  /-- Call a granted function. -/
  | call (name : String) (argument : Json)

/-- An answer: a value, or the text of a refusal. -/
abbrev Reply := Except String Json

/-- A computation that asks its host before it ends. -/
inductive Session (α : Type) where
  | done (a : α)
  | ask (q : Request) (next : Reply → Session α)

namespace Session

variable {α β σ : Type}

/-- Go on where a session ends. -/
def bind : Session α → (α → Session β) → Session β
  | done a, f => f a
  | ask q next, f => ask q fun r => (next r).bind f

/-- Go on where a session ends; the case without questions is opened at once. -/
@[always_inline, inline]
def andThen (x : Session α) (f : α → Session β) : Session β :=
  match x with
  | done a => f a
  | ask q next => ask q fun r => (next r).bind f

theorem andThen_eq_bind (x : Session α) (f : α → Session β) : x.andThen f = x.bind f := by
  cases x <;> rfl

/-- Run a session with a host that keeps a state. -/
def run (host : Request → σ → Reply × σ) : Session α → σ → α × σ
  | done a, s => (a, s)
  | ask q next, s =>
    let (r, s) := host q s
    (next r).run host s

/-- What every answer keeps, the whole session keeps. -/
theorem run_keeps {host : Request → σ → Reply × σ} (P : σ → Prop)
    (h : ∀ q s, P s → P (host q s).2) (x : Session α) (s : σ) (hs : P s) :
    P (x.run host s).2 := by
  induction x generalizing s with
  | done a => exact hs
  | ask q next ih => exact ih _ _ (h q s hs)

end Session

end FlowGraph.Script
