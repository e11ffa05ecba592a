/-
What steps are put together from.

Whatever a block does is put together from a few simple steps.  Before one of them it may
look at the state, but never at the journal.  `Composed` says that a step is put together
from steps of some class, and `Composed.preserves` that it then keeps what those keep.  So
the settings of blocks are gone through once, in this module, and not again for every
property: all of them come down to scripts.
-/
import FlowGraph.Proofs.Run.Preserves
import FlowGraph.Proofs.Store.Answers
import FlowGraph.Run.Execute

namespace FlowGraph

variable {δ χ α β ε ε' : Type}

namespace Act

/-- A step is put together from steps of a class, and what it gives has a property. -/
inductive Composed (L : (α : Type) → Act δ χ α → Prop) : {α : Type} → (α → Prop) → Act δ χ α → Prop
  | pure {α : Type} {gives : α → Prop} {a : α} (h : gives a) : Composed L gives (Pure.pure a)
  | step {α : Type} {gives : α → Prop} {x : Act δ χ α} (h : L α x) (hgives : ∀ a, gives a) :
      Composed L gives x
  /-- Go on in a way that depends on the state, but not on its journal. -/
  | look {α : Type} {gives : α → Prop} {f : Context δ χ → Act δ χ α}
      (hblind : ∀ ctx journal, f { ctx with journal := journal } = f ctx)
      (h : ∀ ctx, Composed L gives (f ctx)) : Composed L gives (MonadState.get >>= f)
  | bind {α β : Type} {gives : α → Prop} {gives' : β → Prop} {x : Act δ χ α}
      {f : α → Act δ χ β} (hx : Composed L gives x)
      (hf : ∀ a, gives a → Composed L gives' (f a)) : Composed L gives' (x >>= f)

/-- The same of a step that may fail, with properties of both endings. -/
def Tried (L : (α : Type) → Act δ χ α → Prop) (gives : α → Prop) (fails : ε → Prop)
    (x : ExceptT ε (Act δ χ) α) : Prop :=
  Composed L (fun r => match r with | .ok a => gives a | .error e => fails e) x.run

variable {L L' : (α : Type) → Act δ χ α → Prop} {gives : α → Prop} {gives' : β → Prop}
variable {fails : ε → Prop} {fails' : ε' → Prop}

theorem Composed.mono {gives' : α → Prop} {x : Act δ χ α} (h : Composed L gives x)
    (hL : ∀ α x, L α x → L' α x) (hg : ∀ a, gives a → gives' a) : Composed L' gives' x := by
  induction h with
  | pure h => exact .pure (hg _ h)
  | step h hgives => exact .step (hL _ _ h) fun a => hg a (hgives a)
  | look hblind _ ih => exact .look hblind fun ctx => ih ctx hg
  | bind _ _ ih ihf => exact .bind (ih fun _ ha => ha) fun a ha => ihf a ha hg

/-- **A step keeps what the steps keep that it is put together from.** -/
theorem Composed.preserves {P : Context δ χ → Prop} {x : Act δ χ α} (h : Composed L gives x)
    (hL : ∀ α x, L α x → Preserves P (fun _ => True) x) : Preserves P gives x := by
  induction h with
  | pure h => exact .pure h
  | step h hgives => exact fun ctx hctx => ⟨(hL _ _ h ctx hctx).1, hgives _⟩
  | look _ _ ih => exact fun ctx hctx => ih ctx ctx hctx
  | bind _ _ ih ihf => exact ih.bind ihf

theorem Composed.result {x : Act δ χ α} (h : Composed L gives x) (ctx : Context δ χ) :
    gives (x ctx).1 :=
  (h.preserves (P := fun _ => True) (fun _ _ _ _ _ => ⟨trivial, trivial⟩) ctx trivial).2

namespace Tried

theorem mono {fails' : ε → Prop} {x : ExceptT ε (Act δ χ) α} (h : Tried L gives fails x)
    (hL : ∀ α x, L α x → L' α x) (hf : ∀ e, fails e → fails' e) : Tried L' gives fails' x := by
  refine Composed.mono h hL fun r hr => ?_
  cases r with
  | ok a => exact hr
  | error e => exact hf e hr

theorem pure {a : α} (h : gives a) :
    Tried L gives fails (Pure.pure a : ExceptT ε (Act δ χ) α) :=
  Composed.pure h

theorem throw {e : ε} (h : fails e) :
    Tried L gives fails (MonadExcept.throw e : ExceptT ε (Act δ χ) α) :=
  Composed.pure h

theorem lift {x : Except ε α} (hg : ∀ a, x = .ok a → gives a) (hf : ∀ e, x = .error e → fails e) :
    Tried L gives fails (liftM x : ExceptT ε (Act δ χ) α) := by
  cases x with
  | ok a => exact Composed.pure (hg a rfl)
  | error e => exact Composed.pure (hf e rfl)

theorem bind {x : ExceptT ε (Act δ χ) α} {f : α → ExceptT ε (Act δ χ) β}
    (hx : Tried L gives fails x) (hf : ∀ a, gives a → Tried L gives' fails (f a)) :
    Tried L gives' fails (x >>= f) := by
  rw [Tried, ExceptT.run_bind]
  refine Composed.bind hx fun r hr => ?_
  cases r with
  | ok a => exact hf a hr
  | error e => exact .pure hr

theorem adapt {x : ExceptT ε (Act δ χ) α} {f : ε → ε'} (hx : Tried L gives fails x)
    (hf : ∀ e, fails e → fails' (f e)) : Tried L gives fails' (x.adapt f) := by
  have hadapt : (x.adapt f).run = x.run >>= fun r => Pure.pure (r.mapError f) := rfl
  rw [Tried, hadapt]
  refine Composed.bind hx fun r hr => ?_
  cases r with
  | ok a => exact .pure hr
  | error e => exact .pure (hf e hr)

theorem map {x : ExceptT ε (Act δ χ) α} {f : α → β} (hx : Tried L gives fails x)
    (hf : ∀ a, gives a → gives' (f a)) : Tried L gives' fails (x.map f) := by
  refine Composed.bind hx fun r hr => ?_
  cases r with
  | ok a => exact .pure (hf a hr)
  | error e => exact .pure hr

end Tried

/-! ### Scripts -/

variable [Store.Database δ]

/-- The scripts of a block with this input. -/
inductive Scripts (params : Json) : (α : Type) → Act δ χ α → Prop
  | mk (code : String) : Scripts params (Except Script.Failure Json) (script params code).run

/-- A step that may fail only evaluates scripts with this input. -/
abbrev Evaluates (params : Json) (x : ExceptT ε (Act δ χ) α) : Prop :=
  Tried (Scripts params) (fun _ => True) (fun _ => True) x

/-- A step that only evaluates scripts keeps what the scripts keep. -/
theorem Tried.attempts {params : Json} {P : Context δ χ → Prop} {x : ExceptT ε (Act δ χ) α}
    (h : Tried (Scripts params) gives fails x) (hP : KeptByScripts P params) :
    Attempts P gives fails x := by
  refine h.preserves fun α x hx ctx hctx => ?_
  cases hx with
  | mk code => exact ⟨(hP code ctx hctx).1, trivial⟩

theorem script_evaluates (params : Json) (code : String) :
    Evaluates params (script params code : ExceptT _ (Act δ χ) Json) :=
  .step (.mk code) fun r => by cases r <;> exact trivial

theorem resolve_evaluates (params setting : Json) :
    Evaluates params (resolve params setting : ExceptT _ (Act δ χ) Json) := by
  unfold resolve Template.resolve
  split
  · exact script_evaluates params _
  · exact .pure trivial

mutual

theorem resolveDeep_evaluates (params : Json) : ∀ setting,
    Evaluates params (resolveDeep params setting : ExceptT _ (Act δ χ) Json)
  | .arr items => (resolveItems_evaluates params items).bind fun _ _ => .pure trivial
  | .obj fields => (resolveFields_evaluates params fields).bind fun _ _ => .pure trivial
  | .str s => resolve_evaluates params (.str s)
  | .number n => resolve_evaluates params (.number n)
  | .bool b => resolve_evaluates params (.bool b)
  | .null => resolve_evaluates params .null

theorem resolveItems_evaluates (params : Json) : ∀ items,
    Evaluates params
      (Template.resolveItems (script params) items : ExceptT _ (Act δ χ) (List Json))
  | [] => .pure trivial
  | j :: rest => (resolveDeep_evaluates params j).bind fun _ _ =>
      (resolveItems_evaluates params rest).bind fun _ _ => .pure trivial

theorem resolveFields_evaluates (params : Json) : ∀ fields,
    Evaluates params
      (Template.resolveFields (script params) fields : ExceptT _ (Act δ χ) (List (String × Json)))
  | [] => .pure trivial
  | (_, j) :: rest => (resolveDeep_evaluates params j).bind fun _ _ =>
      (resolveFields_evaluates params rest).bind fun _ _ => .pure trivial

end

end Act

/-! ### Settings with values to compute -/

/-- The error is about a question that could not be put, not about an answer. -/
def BlockError.OfQuestion : BlockError → Prop
  | .script _ | .other _ => True
  | .store _ | .call _ | .run _ => False

/-- The action asks the question. -/
def StoreAction.Asks : StoreAction → Store.Query → Prop
  | .getAll, .getAll .. | .getSingle, .getSingle .. | .insert, .insert ..
  | .insertBulk, .insertBulk .. | .update, .update .. | .delete, .delete .. | .raw, .raw .. => True
  | _, _ => False

theorem StoreAction.Asks.onTables {action : StoreAction} {q : Store.Query} (h : action.Asks q) :
    q.OnTables := by
  cases action <;> cases q <;> first | exact trivial | exact h.elim

namespace Task

open Act

section Rows

variable {L : (α : Type) → Act δ χ α → Prop}

theorem asRow_ofQuestion {v : Json} {e : BlockError} (h : asRow v = .error e) : e.OfQuestion := by
  cases v <;> cases h <;> exact trivial

theorem asRow_tried (v : Json) :
    Tried L (fun _ => True) BlockError.OfQuestion (liftM (asRow v) : Try δ χ Store.Row) :=
  .lift (fun _ _ => trivial) fun _ he => asRow_ofQuestion he

theorem asRows_tried (items : List Json) :
    Tried L (fun _ => True) BlockError.OfQuestion
      (liftM (asRows items) : Try δ χ (List Store.Row)) := by
  refine .lift (fun _ _ => trivial) ?_
  induction items with
  | nil => exact fun e he => nomatch he
  | cons j rest ih =>
      intro e he
      rw [asRows] at he
      cases hj : asRow j with
      | error e' =>
          rw [hj] at he
          obtain rfl := Except.error.inj he
          exact asRow_ofQuestion hj
      | ok row =>
          rw [hj] at he
          cases hrest : asRows rest with
          | error e' =>
              rw [hrest] at he
              obtain rfl := Except.error.inj he
              exact ih _ hrest
          | ok rows =>
              rw [hrest] at he
              exact nomatch he

end Rows

section Settings

variable [Store.Database δ] (params : Json)

theorem operand_evaluates (c : ListConfig) :
    Evaluates params (operand c params : ExceptT _ (Act δ χ) _) := by
  unfold operand
  split
  · exact .pure trivial
  · dsimp only
    split
    · exact .throw trivial
    · exact ((resolve_evaluates params _).adapt fun _ _ => trivial).map fun _ _ => trivial

theorem resolveFilters_tried (filters : List Store.Filter) :
    Tried (Scripts params) (fun _ => True) BlockError.OfQuestion
      (resolveFilters params filters : Try δ χ _) := by
  induction filters with
  | nil => exact .pure trivial
  | cons f rest ih =>
      exact ((resolveDeep_evaluates params f.value).adapt fun _ _ => trivial).bind fun _ _ =>
        ih.bind fun _ _ => .pure trivial

theorem resolveCount_tried (name : String) (setting : Option Json) :
    Tried (Scripts params) (fun _ => True) BlockError.OfQuestion
      (resolveCount params name setting : Try δ χ _) := by
  cases setting with
  | none => exact .pure trivial
  | some j =>
      refine ((resolve_evaluates params j).adapt fun _ _ => trivial).bind fun v _ => ?_
      split
      · exact .pure trivial
      · split
        · exact .pure trivial
        · exact .throw trivial

theorem resolveData_tried (c : StoreConfig) :
    Tried (Scripts params) (fun _ => True) BlockError.OfQuestion
      (resolveData c params : Try δ χ _) :=
  (resolveDeep_evaluates params _).adapt fun _ _ => trivial

/-- A block asks the question of its action, and what keeps it from asking is a script or a value of
a wrong shape. -/
theorem storeQuery_tried (action : StoreAction) (c : StoreConfig) :
    Tried (Scripts params) action.Asks BlockError.OfQuestion
      (storeQuery action c params : Try δ χ _) := by
  have hfilters := resolveFilters_tried (δ := δ) (χ := χ) params c.filters
  have hdata := resolveData_tried (δ := δ) (χ := χ) params c
  cases action with
  | getAll =>
      exact hfilters.bind fun _ _ => (resolveCount_tried params "limit" c.limit).bind fun _ _ =>
        (resolveCount_tried params "offset" c.offset).bind fun _ _ => .pure trivial
  | getSingle => exact hfilters.bind fun _ _ => .pure trivial
  | insert => exact hdata.bind fun v _ => (asRow_tried v).bind fun _ _ => .pure trivial
  | insertBulk =>
      refine hdata.bind fun v _ => ?_
      split
      · exact (asRows_tried _).bind fun _ _ => .pure trivial
      · exact .throw trivial
  | update =>
      exact hfilters.bind fun _ _ => hdata.bind fun v _ =>
        (asRow_tried v).bind fun _ _ => .pure trivial
  | delete => exact hfilters.bind fun _ _ => .pure trivial
  | raw =>
      refine ((resolve_evaluates params (.str c.statement)).adapt fun _ _ => trivial).bind
        fun v _ => ?_
      split
      · exact .pure trivial
      · exact .throw trivial

theorem resolveHeaders_evaluates (headers : List (String × Json)) :
    Evaluates params (resolveHeaders params headers : ExceptT _ (Act δ χ) _) := by
  induction headers with
  | nil => exact .pure trivial
  | cons h rest ih =>
      exact (resolve_evaluates params h.2).bind fun _ _ => ih.bind fun _ _ => .pure trivial

theorem callOf_evaluates (c : CallConfig) :
    Evaluates params (callOf c params : ExceptT _ (Act δ χ) _) := by
  refine (resolve_evaluates params _).bind fun _ _ =>
    (resolveHeaders_evaluates params c.headers).bind fun _ _ => ?_
  split
  · exact .pure trivial
  · exact (resolveDeep_evaluates params c.body).bind fun _ _ => .pure trivial

theorem cookieOf_evaluates (c : CookieConfig) :
    Evaluates params (cookieOf c params : ExceptT _ (Act δ χ) _) :=
  (resolve_evaluates params c.value).bind fun _ _ =>
    (resolveDeep_evaluates params c.options).bind fun _ _ => .pure trivial

theorem answerOf_evaluates (c : ResponseConfig) :
    Evaluates params (answerOf c params : ExceptT _ (Act δ χ) _) := by
  have hbody : ∀ status, Evaluates params (do
      let body ←
        if c.useParam then pure params
        else (Act.resolveDeep params c.body).adapt Script.Failure.message
      return (status, body) : ExceptT String (Act δ χ) (Option Nat × Json)) := by
    intro status
    split
    · exact .pure trivial
    · exact ((resolveDeep_evaluates params c.body).adapt fun _ _ => trivial).bind fun _ _ =>
        .pure trivial
  unfold answerOf
  cases c.status with
  | none => exact hbody none
  | some setting =>
      refine ((resolve_evaluates params setting).adapt fun _ _ => trivial).bind fun v _ => ?_
      have hstatus : Evaluates params (liftM (statusOf v) : ExceptT String (Act δ χ) Nat) :=
        .lift (fun _ _ => trivial) fun _ _ => trivial
      exact hstatus.bind fun status _ => hbody (some status)

theorem condition_evaluates (c : Condition) :
    Evaluates params (c.evaluate (script params) : ExceptT _ (Act δ χ) _) := by
  unfold Condition.evaluate
  split
  · exact (script_evaluates params _).bind fun _ _ => .pure trivial
  · exact (resolve_evaluates params c.lhs).bind fun _ _ =>
      (resolve_evaluates params c.rhs).bind fun _ _ => .pure trivial

theorem conditions_evaluate (cs : List Condition) :
    Evaluates params (Condition.evaluateAll (script params) cs : ExceptT _ (Act δ χ) _) := by
  have heach : Evaluates params
      (Condition.evaluateEach (script params) cs : ExceptT _ (Act δ χ) _) := by
    induction cs with
    | nil => exact .pure trivial
    | cons c rest ih =>
        exact (condition_evaluates params c).bind fun _ _ => ih.bind fun _ _ => .pure trivial
  exact heach.bind fun _ _ => .pure trivial

theorem resolveBound_evaluates (name : String) (setting : Json) :
    Evaluates params (resolveBound params name setting : ExceptT _ (Act δ χ) _) := by
  unfold resolveBound
  split
  · exact ((script_evaluates params _).adapt fun _ _ => trivial).bind fun _ _ =>
      .lift (fun _ _ => trivial) fun _ _ => trivial
  · exact .lift (fun _ _ => trivial) fun _ _ => trivial

theorem resolveBounds_evaluates (c : CountConfig) :
    Evaluates params (resolveBounds c params : ExceptT _ (Act δ χ) _) :=
  (resolveBound_evaluates params "start" c.start).bind fun _ _ =>
    (resolveBound_evaluates params "end" c.stop).bind fun _ _ =>
      (resolveBound_evaluates params "step" c.step).bind fun _ _ => .pure trivial

theorem resolveItems_evaluates (c : EachConfig) :
    Evaluates params (resolveItems c params : ExceptT _ (Act δ χ) _) := by
  unfold resolveItems
  split
  · split
    · exact .pure trivial
    · exact .throw trivial
  · refine ((resolve_evaluates params c.values).adapt fun _ _ => trivial).bind fun v _ => ?_
    split
    · exact .pure trivial
    · exact .throw trivial

end Settings

end Task

end FlowGraph
