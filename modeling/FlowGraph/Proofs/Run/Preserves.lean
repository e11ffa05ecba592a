/-
What steps leave as it is.

A step that only computes changes nothing that blocks can see: the journal grows, and a
script that was granted it may have asked the database.  `Preserves` says of a step that it
keeps some property of the state and that its value has another one, and `Attempts` says
this of a step that may fail, whichever way it ends.

Blocks compute what they need by a few such steps.  All of them come down to scripts, so
whatever scripts keep, they keep.  The property is left open here, since what scripts keep
depends on the property: on the database alone, or on everything that blocks share.
-/
import FlowGraph.Run.Task

namespace FlowGraph

variable {δ χ α β ε ε' : Type}

namespace Act

/-! ### What a step makes of a state -/

theorem bind_apply (x : Act δ χ α) (f : α → Act δ χ β) (ctx : Context δ χ) :
    (x >>= f) ctx = f (x ctx).1 (x ctx).2 := rfl

theorem pure_apply (a : α) (ctx : Context δ χ) : (pure a : Act δ χ α) ctx = (a, ctx) := rfl

theorem note_apply (e : Event) (ctx : Context δ χ) :
    (Act.note e : Act δ χ Unit) ctx = ((), ctx.note e) := rfl

theorem get_apply (ctx : Context δ χ) : (get : Act δ χ (Context δ χ)) ctx = (ctx, ctx) := rfl

/-- After a step that failed nothing more is done. -/
theorem run_bind_apply (x : ExceptT ε (Act δ χ) α) (f : α → ExceptT ε (Act δ χ) β)
    (ctx : Context δ χ) :
    (x >>= f).run ctx
      = match x.run ctx with
        | (.ok a, mid) => (f a).run mid
        | (.error e, mid) => (.error e, mid) := by
  rw [ExceptT.run_bind, bind_apply]
  obtain ⟨r, mid⟩ := x.run ctx
  cases r <;> rfl

/-! ### Steps that keep a property -/

/-- A step keeps a property of the state, and what it gives has another. -/
def Preserves (P : Context δ χ → Prop) (gives : α → Prop) (x : Act δ χ α) : Prop :=
  ∀ ctx, P ctx → P (x ctx).2 ∧ gives (x ctx).1

/-- The same of a step that may fail, with properties of both endings. -/
def Attempts (P : Context δ χ → Prop) (gives : α → Prop) (fails : ε → Prop)
    (x : ExceptT ε (Act δ χ) α) : Prop :=
  Preserves P (fun r => match r with | .ok a => gives a | .error e => fails e) x.run

/-- A step that may fail keeps a property of the state, and nothing more is said. -/
abbrev Computes (P : Context δ χ → Prop) (x : ExceptT ε (Act δ χ) α) : Prop :=
  Attempts P (fun _ => True) (fun _ => True) x

variable {P : Context δ χ → Prop} {gives : α → Prop} {gives' : β → Prop}
variable {fails : ε → Prop} {fails' : ε' → Prop}

/-! ### How steps are put together -/

namespace Preserves

theorem pure {a : α} (h : gives a) : Preserves P gives (Pure.pure a : Act δ χ α) :=
  fun _ hctx => ⟨hctx, h⟩

theorem bind {x : Act δ χ α} {f : α → Act δ χ β} (hx : Preserves P gives x)
    (hf : ∀ a, gives a → Preserves P gives' (f a)) : Preserves P gives' (x >>= f) := by
  intro ctx hctx
  obtain ⟨hkept, hgives⟩ := hx ctx hctx
  exact hf _ hgives _ hkept

/-- A step looks at the state as it is. -/
theorem look : Preserves P P (MonadState.get : Act δ χ (Context δ χ)) :=
  fun _ hctx => ⟨hctx, hctx⟩

theorem change {f : Context δ χ → Context δ χ} (hf : ∀ ctx, P ctx → P (f ctx)) :
    Preserves P (fun _ => True) (modify f : Act δ χ Unit) :=
  fun ctx hctx => ⟨hf ctx hctx, trivial⟩

end Preserves

theorem Computes.intro {x : ExceptT ε (Act δ χ) α} (h : ∀ ctx, P ctx → P (x.run ctx).2) :
    Computes P x := by
  intro ctx hctx
  refine ⟨h ctx hctx, ?_⟩
  cases (x.run ctx).1 <;> exact trivial

variable [Store.Database δ]

/-- Scripts that see this input keep the property. -/
def KeptByScripts (P : Context δ χ → Prop) (params : Json) : Prop :=
  ∀ code, Computes P (script params code)

end Act

end FlowGraph
