/-
What everything that is run goes along.

A loop does nothing but what its body does, and a walk nothing but what its blocks do, apart
from notes in the journal.  So a relation between states that every step of a block goes
along holds between the states before and after whatever is run, provided that it can be put
together from piece to piece.  `Carried` lists what has to be shown for it.

A transaction does not fit into this: what lies between opening and closing may be undone.
It is one step, of which only its body is known to go along the relation.
-/
import FlowGraph.Proofs.Run.Changes
import FlowGraph.Proofs.Run.Execution
import FlowGraph.Proofs.Run.Visits

namespace FlowGraph

open Act

variable {δ χ α : Type} [Store.Database δ] [Client χ]

/-- Steps that change nothing that blocks share and ask nothing. -/
abbrev Act.Idle : (α : Type) → Act δ χ α → Prop := Basic (fun _ => False) fun _ => False

/-- All steps go along a relation, where only some tasks are done. -/
structure Carried (R : Context δ χ → Context δ χ → Prop) (allowed : Task → Prop) : Prop where
  refl : ∀ ctx, R ctx ctx
  trans : ∀ {first mid last}, R first mid → R mid last → R first last
  idle : ∀ {α : Type} {x : Act δ χ α}, Idle α x → ∀ ctx, R ctx (x ctx).2
  task : ∀ t, allowed t → ∀ id next params ctx, R ctx (t.run id next params ctx).2
  refused : ∀ {ctx mid : Context δ χ} {db : δ} {f : Store.Fault}, ctx.database = some db →
    ctx.query db (.setMode .transaction) = (.error f, mid) → R ctx mid
  closed : ∀ {ctx mid left : Context δ χ} {db : δ} {answer : Json}, ctx.database = some db →
    ctx.query db (.setMode .transaction) = (.ok answer, mid) → R mid left →
    ∀ id next r, R ctx (leaveTransaction id (close id next r left).2).2

/-- Whatever a bounded step ends with, it goes along the relation. -/
def Bounded.Carries (R : Context δ χ → Context δ χ → Prop) (f : Bounded δ χ α) : Prop :=
  ∀ ctx r ctx', f ctx = some (r, ctx') → R ctx ctx'

/-- The block is no task, or one that is allowed. -/
def Block.Does (allowed : Task → Prop) : Block → Prop
  | .task _ _ t => allowed t
  | _ => True

/-- So are all blocks of a map and of the bodies in it. -/
def BlockMap.Does (allowed : Task → Prop) (blocks : BlockMap) : Prop :=
  ∀ start start' blocks', Within start blocks start' blocks' →
    ∀ id b, Entries.find? id blocks' = some b → b.Does allowed

namespace BlockMap

variable {allowed : Task → Prop} {id entry : String} {blocks inner : BlockMap} {b : Block}

theorem Does.at (h : blocks.Does allowed) (hb : Entries.find? id blocks = some b) :
    b.Does allowed := h id id blocks .self id b hb

/-- Where a walk begins plays no part in what lies within. -/
theorem does_of_within (start : String) (h : ∀ start' blocks', Within start blocks start' blocks' →
    ∀ id b, Entries.find? id blocks' = some b → b.Does allowed) : blocks.Does allowed := by
  intro start' start'' blocks' hin
  cases hin with
  | self => exact h start blocks .self
  | body hb hbody hin => exact h _ _ (.body hb hbody hin)

theorem Does.body (h : blocks.Does allowed) (hb : Entries.find? id blocks = some b)
    (hbody : b.body? = some (entry, inner)) : inner.Does allowed :=
  does_of_within entry fun start' blocks' hin => h id start' blocks' (.body hb hbody hin)

theorem does_anything (blocks : BlockMap) : blocks.Does fun _ => True := by
  intro start start' blocks' _ id b _
  cases b <;> exact trivial

end BlockMap

namespace Carried

variable {R : Context δ χ → Context δ χ → Prop} {allowed : Task → Prop} (hR : Carried R allowed)
include hR

theorem composed {gives : α → Prop} {x : Act δ χ α} (h : Composed Idle gives x)
    (ctx : Context δ χ) : R ctx (x ctx).2 :=
  (h.preserves (P := R ctx) (fun _ _ hx mid hmid => ⟨hR.trans hmid (hR.idle hx mid), trivial⟩) ctx
    (hR.refl ctx)).1

theorem evaluates {ε : Type} {params : Json} {x : ExceptT ε (Act δ χ) α} (h : Evaluates params x)
    {ctx mid : Context δ χ} {r : Except ε α} (hx : x.run ctx = (r, mid)) : R ctx mid := by
  have hkept := hR.composed (h.mono Task.basic_of_scripts fun _ he => he) ctx
  rwa [hx] at hkept

theorem note (e : Event) (ctx : Context δ χ) : R ctx (ctx.note e) := hR.idle (.note e) ctx

theorem record (id : String) (kind : Kind) (r : Except BlockError Output) (ctx : Context δ χ) :
    R ctx (Walk.record id kind r ctx) := by
  rw [Walk.record]
  induction Walk.events id kind r generalizing ctx with
  | nil => exact hR.refl ctx
  | cons e rest ih => exact hR.trans (hR.note e ctx) (ih _)

/-! ### What is run -/

theorem walk {run : Block → Json → Bounded δ χ (Except BlockError Output)} {blocks : BlockMap}
    (hrun : ∀ id b, Entries.find? id blocks = some b → ∀ params, (run b params).Carries R) :
    ∀ (fuel : Nat) (id : String) (params : Json),
      (BlockMap.walk run blocks fuel id params).Carries R := by
  intro fuel
  induction fuel with
  | zero => intro id params ctx r ctx' h; simp [BlockMap.walk_zero] at h
  | succ fuel ih =>
      intro id params ctx r ctx' h
      have hrecord : ∀ (b : Block) (o : Except BlockError Output) (mid : Context δ χ),
          Entries.find? id blocks = some b → run b params ctx = some (o, mid) →
          R ctx (Walk.record b.id b.kind o mid) := fun b o mid hb hr =>
        hR.trans (hrun id b hb params ctx o mid hr) (hR.record _ _ _ _)
      rw [BlockMap.walk_succ_iff] at h
      cases h with
      | missing hb => exact hR.refl ctx
      | finished hb hr hafter | aborted hb hr hafter => exact hrecord _ _ _ hb hr
      | onward hb hr hafter h => exact hR.trans (hrecord _ _ _ hb hr) (ih _ _ _ _ _ h)

theorem countLoop {body : Option (BodyRun δ χ)} (hbody : ∀ run ∈ body, ∀ v, (run v).Carries R)
    (b : Bounds) : ∀ (fuel : Nat) (index : Float) (turns : Nat),
      Bounded.Carries R (countLoop b body fuel index turns) := by
  intro fuel
  induction fuel with
  | zero => intro index turns ctx r ctx' h; simp [FlowGraph.countLoop] at h
  | succ fuel ih =>
      intro index turns ctx r ctx' h
      rw [countLoop_succ_iff] at h
      cases h with
      | past hover => exact hR.refl ctx
      | idle hover hnone h => exact ih _ _ _ _ _ h
      | failed hover hsome hr => exact hbody _ hsome _ _ _ _ hr
      | passed hover hsome hr h =>
          exact hR.trans (hbody _ hsome _ _ _ _ hr) (ih _ _ _ _ _ h)

theorem eachLoop {run : BodyRun δ χ} (hrun : ∀ v, (run v).Carries R) :
    ∀ items : List Json, Bounded.Carries R (eachLoop run items) := by
  intro items
  induction items with
  | nil =>
      intro ctx r ctx' h
      obtain ⟨rfl, rfl⟩ := Prod.mk.inj (Option.some.inj h)
      exact hR.refl ctx
  | cons v rest ih =>
      intro ctx r ctx' h
      rw [eachLoop_cons_iff] at h
      cases h with
      | failed hr => exact hrun v _ _ _ hr
      | passed hr h => exact hR.trans (hrun v _ _ _ hr) (ih _ _ _ h)

theorem executes {fuel : Nat} {b : Block} {params : Json} {ctx ctx' : Context δ χ}
    {r : Except BlockError Output} (h : b.Executes fuel params ctx r ctx') (hb : b.Does allowed)
    (hbody : ∀ run ∈ bodyRun fuel b.body?, ∀ v, Bounded.Carries R (run v)) : R ctx ctx' := by
  cases h with
  | @task id next t => exact hR.task t hb id next params ctx
  | @branch id c onSuccess onFailure =>
      exact hR.composed (Task.runBranch_made id params c onSuccess onFailure) ctx
  | countUnset hbounds => exact hR.evaluates (Task.resolveBounds_evaluates params _) hbounds
  | countDone hbounds hloop =>
      exact hR.trans (hR.evaluates (Task.resolveBounds_evaluates params _) hbounds)
        (hR.trans (hR.countLoop hbody _ _ _ _ _ _ _ hloop) (hR.note _ _))
  | countFailed hbounds hloop =>
      exact hR.trans (hR.evaluates (Task.resolveBounds_evaluates params _) hbounds)
        (hR.countLoop hbody _ _ _ _ _ _ _ hloop)
  | eachUnset hitems => exact hR.evaluates (Task.resolveItems_evaluates params _) hitems
  | eachIdle hitems =>
      exact hR.trans (hR.evaluates (Task.resolveItems_evaluates params _) hitems) (hR.note _ _)
  | eachDone hitems hloop =>
      exact hR.trans (hR.evaluates (Task.resolveItems_evaluates params _) hitems)
        (hR.trans (hR.eachLoop (hbody _ rfl) _ _ _ _ hloop) (hR.note _ _))
  | eachFailed hitems hloop =>
      exact hR.trans (hR.evaluates (Task.resolveItems_evaluates params _) hitems)
        (hR.eachLoop (hbody _ rfl) _ _ _ _ hloop)
  | transactionUnserved | transactionIdle => exact hR.refl ctx
  | transactionRefused hdb hopen => exact hR.refused hdb hopen
  | transactionClosed hdb hopen hrun =>
      exact hR.closed hdb hopen (hbody _ rfl _ _ _ _ hrun) _ _ _

/-- **Every block goes along the relation**, if the tasks in its body are allowed. -/
theorem execute : ∀ (fuel : Nat) (b : Block), b.Does allowed →
    (∀ entry inner, b.body? = some (entry, inner) → inner.Does allowed) →
    ∀ params, (b.execute fuel params).Carries R := by
  intro fuel
  induction fuel with
  | zero => intro b _ _ params ctx r ctx' h; simp [Block.execute_zero] at h
  | succ fuel ih =>
      intro b hb hdoes params ctx r ctx' h
      refine hR.executes (Block.execute_succ_iff.mp h) hb ?_
      intro run hrun v
      obtain ⟨⟨entry, inner⟩, hbody, rfl⟩ := Option.map_eq_some_iff.mp hrun
      have hinner := hdoes entry inner hbody
      exact hR.walk (fun id b' hb' => ih b' (hinner.at hb') fun _ _ hbody' =>
        hinner.body hb' hbody') _ _ _

variable {blocks : BlockMap} {id : String} {b : Block}

theorem found (h : blocks.Does allowed) (hb : Entries.find? id blocks = some b) (fuel : Nat)
    (params : Json) : (b.execute fuel params).Carries R :=
  hR.execute fuel b (h.at hb) (fun _ _ hbody => h.body hb hbody) params

theorem run (h : blocks.Does allowed) (fuel : Nat) (start : String) (params : Json) :
    (blocks.run fuel start params).Carries R :=
  hR.walk (fun _ _ hb => hR.found h hb fuel) fuel start params

/-! ### What is started -/

variable {o : Outset δ χ} {v : Visit δ χ}

theorem ends (h : o.blocks.Does allowed) {r : Except RunError Output} {ctx : Context δ χ}
    (hends : o.Ends r ctx) : R o.ctx ctx := by
  obtain ⟨fuel, hrun⟩ := hends
  exact hR.run h fuel o.start o.params _ _ _ hrun

theorem visits (h : o.blocks.Does allowed) (hvisits : o.Visits v) : R o.ctx v.ctx := by
  induction hvisits with
  | here _ => exact hR.refl _
  | onward hb hr _ _ ih =>
      obtain ⟨fuel, hfuel⟩ := hr
      exact hR.trans (hR.found h hb fuel _ _ _ _ hfuel) (hR.trans (hR.record _ _ _ _) (ih h))

theorem turns {entry : String} {values : List Json} {ctx : Context δ χ}
    (h : blocks.Does allowed) (hturns : Turns entry blocks values ctx o) : R ctx o.ctx := by
  induction hturns with
  | here => exact hR.refl _
  | later hv _ ih => exact hR.trans (hR.ends (o := ⟨_, _, _, _⟩) h hv) ih

/-- A loop opens its body in a state that the relation leads to. -/
theorem opens (h : ∀ entry inner, v.block.body? = some (entry, inner) → inner.Does allowed)
    (hopens : v.Opens o) (hloop : v.block.kind ≠ .transaction) : R v.ctx o.ctx := by
  cases hopens with
  | count n hbounds hturns =>
      exact hR.trans (hR.evaluates (Task.resolveBounds_evaluates _ _) hbounds)
        (hR.turns (h _ _ rfl) hturns)
  | each hitems hturns =>
      exact hR.trans (hR.evaluates (Task.resolveItems_evaluates _ _) hitems)
        (hR.turns (h _ _ rfl) hturns)
  | transaction _ _ => exact absurd rfl hloop

end Carried

end FlowGraph
