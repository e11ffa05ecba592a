/-
Steps that are cut off.

A step that is taken with a smaller budget is the same step, cut off at the places where the budget
is used up.  `Run.Cut` says this of two steps by the way they are put together, and with it that
neither asks its host for a function that was not granted.

What is cut off has two properties, each proved by going through the construction once.  It asks for
granted functions only (`Cut.asks`).  And it asks and ends like the whole, or runs out before that
(`Cut.run_extends`), so a budget that suffices decides how a step ends with every larger budget.
-/
import FlowGraph.Proofs.Script.Asks
import FlowGraph.Proofs.Script.Points

namespace FlowGraph.Script

variable {α β σ : Type}

/-! ### Sessions that go further -/

/-- The second session asks and ends like the first, but goes on where the first has run out. -/
inductive Session.Extends : Session (Ending α) → Session (Ending α) → Prop
  | exhausted (y : Session (Ending α)) : Extends (.done .exhausted) y
  | done (r : Ending α) : Extends (.done r) (.done r)
  | ask (q : Request) {next next' : Reply → Session (Ending α)}
      (h : ∀ r, Extends (next r) (next' r)) : Extends (.ask q next) (.ask q next')

namespace Session.Extends

variable {x y : Session (Ending α)}

/-- Where one session runs out, so does what comes behind it. -/
theorem andThen {f g : Ending α → Session (Ending β)} (h : Extends x y)
    (hfg : ∀ r, Extends (f r) (g r)) (hf : f .exhausted = .done .exhausted) :
    Extends (x.andThen f) (y.andThen g) := by
  rw [andThen_eq_bind, andThen_eq_bind]
  induction h with
  | exhausted y =>
      show Extends (f .exhausted) _
      rw [hf]
      exact .exhausted _
  | done r => exact hfg r
  | ask q _ ih => exact .ask q ih

/-- **With the same host the longer session ends the same way**, unless the shorter runs out. -/
theorem run_eq {host : Request → σ → Reply × σ} (h : Extends x y) {s s' : σ} {r : Ending α}
    (hx : x.run host s = (r, s')) (hr : r ≠ .exhausted) : y.run host s = (r, s') := by
  induction h generalizing s with
  | exhausted y =>
      obtain ⟨rfl, -⟩ := Prod.mk.inj hx
      exact absurd rfl hr
  | done r => exact hx
  | ask q _ ih => exact ih _ hx

end Session.Extends

/-! ### Cutting off -/

namespace Run

/-- The first step is the second, cut off where its budget ends, and they ask for granted functions
only. -/
inductive Cut (granted : List String) : {α : Type} → Run α → Run α → Prop
  | exhausted {α : Type} (y : Run α) : Cut granted .exhausted y
  | pure {α : Type} (a : α) : Cut granted (Pure.pure a : Run α) (Pure.pure a)
  | bind {α β : Type} {x y : Run α} {f g : α → Run β} (h : Cut granted x y)
      (hfg : ∀ a, Cut granted (f a) (g a)) : Cut granted (x >>= f) (y >>= g)
  | signal {α : Type} (s : Signal) : Cut granted (.signal s : Run α) (.signal s)
  | act {α : Type} (a : Action α) : Cut granted (.act a) (.act a)
  | ask {q : Request} (h : q.Within granted) : Cut granted (.ask q) (.ask q)
  | attempt {α : Type} {x y : Run α} (h : Cut granted x y) : Cut granted (.attempt x) (.attempt y)
  | locally {α : Type} {x y : Run α} (h : Cut granted x y) : Cut granted (.locally x) (.locally y)
  | isolated {α : Type} {x y : Run α} (slots : List Slot) (h : Cut granted x y) :
      Cut granted (.isolated slots x) (.isolated slots y)

namespace Cut

variable {granted : List String} {x y : Run α}

theorem fault (f : Fault) : Cut granted (Run.fault f : Run α) (Run.fault f) := signal _

theorem ofExcept (r : Except Fault α) : Cut granted (Run.ofExcept r) (Run.ofExcept r) := by
  cases r with
  | ok a => exact .pure a
  | error f => exact .fault f

theorem print (text : String) : Cut granted (Run.ask (.print text)) (Run.ask (.print text)) :=
  ask trivial

theorem debug (text : String) : Cut granted (Run.ask (.debug text)) (Run.ask (.debug text)) :=
  ask trivial

theorem call {name : String} (h : name ∈ granted) (argument : Json) :
    Cut granted (Run.ask (.call name argument)) (Run.ask (.call name argument)) :=
  ask h

theorem machine : Cut granted Run.machine Run.machine := act _

theorem tick (a : Allowance) : Cut granted (Run.tick a) (Run.tick a) := act _

theorem readVar (name : String) : Cut granted (Run.readVar name) (Run.readVar name) := act _

theorem writeVar (name : String) (v : Val) :
    Cut granted (Run.writeVar name v) (Run.writeVar name v) := act _

theorem declareVar (name : String) (v : Val) (constant : Bool) :
    Cut granted (Run.declareVar name v constant) (Run.declareVar name v constant) := act _

theorem shareVar (name : String) : Cut granted (Run.shareVar name) (Run.shareVar name) := act _

/-- **A step that is cut off asks for granted functions only.** -/
theorem asks (h : Cut granted x y) : Asks granted x := by
  induction h with
  | exhausted y => exact .exhausted
  | pure a => exact .pure a
  | bind _ _ ih ihfg => exact ih.bind ihfg
  | signal s => exact .signal s
  | act a => exact .act a
  | ask h => exact .ask h
  | attempt _ ih => exact ih.attempt
  | locally _ ih => exact ih.locally
  | isolated slots _ ih => exact ih.isolated slots

/-- **The whole step goes further than what is cut off**, and otherwise asks and ends alike. -/
theorem run_extends (h : Cut granted x y) (m : Machine) : (x.run m).Extends (y.run m) := by
  induction h generalizing m with
  | exhausted y => exact .exhausted _
  | pure a => exact .done _
  | bind _ _ ih ihfg =>
      refine (ih m).andThen (fun r => ?_) rfl
      cases r with
      | value a m => exact ihfg a m
      | signal s m => exact .done _
      | exhausted => exact .done _
  | signal s => exact .done _
  | act a => exact .done _
  | ask h => exact .ask _ fun _ => .done _
  | attempt _ ih => exact (ih m).andThen (fun _ => .done _) rfl
  | locally _ ih => exact (ih m).andThen (fun _ => .done _) rfl
  | isolated slots _ ih => exact (ih _).andThen (fun _ => .done _) rfl

/-- With the same host the whole step ends like what is cut off, unless that has run out. -/
theorem endingWith_eq (h : Cut granted x y) {host : Request → σ → Reply × σ} {s : σ} {m : Machine}
    (hx : x.endingWith host s m ≠ .exhausted) :
    y.endingWith host s m = x.endingWith host s m := by
  have hrun : (x.run m).run host s = (x.endingWith host s m, ((x.run m).run host s).2) := rfl
  rw [endingWith, (h.run_extends m).run_eq hrun hx]

end Cut

end Run

end FlowGraph.Script
