/-
What tasks do to the database, and where they lead.

A task asks the database about tables if it asks at all, and its output names the
successor of the block or none.  Most tasks ask nothing, so that what scripts keep they keep.
The tasks that use the database compute a question and put it: `StoreEnds` lists how far
they may come.
-/
import FlowGraph.Proofs.Run.Keeps

namespace FlowGraph

variable {δ χ : Type} {Q : Option δ → Prop}

namespace Task

open Act

/-- The step keeps the property, and its output leads to the successor of the block. -/
abbrev Runs (Q : Option δ → Prop) (next : Option String) (x : Act δ χ Output) : Prop :=
  Keeps Q (Output.LeadsTo next) x

/-! ### Questions to the database -/

/-- How a task ends that uses the database. -/
inductive StoreEnds [Store.Database δ] (action : StoreAction) (c : StoreConfig) (id : String)
    (next : Option String) (params : Json) (ctx : Context δ χ) : Output × Context δ χ → Prop
  | absent (hdb : ctx.database = none) :
      StoreEnds action c id next params ctx
        (.failure (action.kind.name ++ " requires a database adapter"), ctx)
  /-- The block does not come to its question. -/
  | unasked {db : δ} {e : BlockError} {mid : Context δ χ} (hdb : ctx.database = some db)
      (hquery : (storeQuery action c params).run ctx = (.error e, mid)) :
      StoreEnds action c id next params ctx
        (.failure e.message, mid.note (.databaseUsed id action.kind c.table false))
  | refused {db : δ} {q : Store.Query} {f : Store.Fault} {mid after : Context δ χ}
      (hdb : ctx.database = some db)
      (hquery : (storeQuery action c params).run ctx = (.ok q, mid))
      (hanswer : mid.query db q = (.error f, after)) :
      StoreEnds action c id next params ctx
        (.failure (BlockError.store f).message,
          after.note (.databaseUsed id action.kind c.table false))
  | answered {db : δ} {q : Store.Query} {v : Json} {mid after : Context δ χ}
      (hdb : ctx.database = some db)
      (hquery : (storeQuery action c params).run ctx = (.ok q, mid))
      (hanswer : mid.query db q = (.ok v, after)) :
      StoreEnds action c id next params ctx
        (.success next v, after.note (.databaseUsed id action.kind c.table true))

theorem runStore_ends [Store.Database δ] (action : StoreAction) (c : StoreConfig) (id : String)
    (next : Option String) (params : Json) (ctx : Context δ χ) :
    StoreEnds action c id next params ctx (runStore action c id next params ctx) := by
  rw [runStore, Act.bind_apply]
  cases hdb : ctx.database with
  | none =>
      simp only [Act.get_apply, hdb]
      exact .absent hdb
  | some db =>
      simp only [Act.get_apply, hdb, Act.bind_apply, Act.run_bind_apply]
      cases hquery : (storeQuery action c params).run ctx with
      | mk r mid =>
          cases r with
          | error e => exact .unasked hdb hquery
          | ok q =>
              have hask : (askStore db q).run mid
                  = ((mid.query db q).1.mapError BlockError.store, (mid.query db q).2) := rfl
              simp only [hask]
              cases hanswer : mid.query db q with
              | mk answer after =>
                  cases answer with
                  | error f => exact .refused hdb hquery hanswer
                  | ok v => exact .answered hdb hquery hanswer

/-! ### Task by task -/

section Kinds

variable [Store.Database δ] (hQ : Store.Lasts Q) (id : String) (next : Option String)
  (params : Json)
include hQ

theorem runStore_runs (action : StoreAction) (c : StoreConfig) :
    Runs (χ := χ) Q next (runStore action c id next params) := by
  intro ctx hctx
  have hasked := (storeQuery_tried params action c).attempts (keptByScripts hQ params) ctx hctx
  -- The question is about tables, also if scripts have asked others before it.
  have hanswered : ∀ {db q mid}, ctx.database = some db →
      (storeQuery action c params).run ctx = (.ok q, mid) → Q (mid.query db q).2.database := by
    intro db q mid hdb hquery
    rw [hquery] at hasked
    rw [Context.query_database]
    exact hQ q db hasked.2.onTables (hdb ▸ hctx)
  have hends := runStore_ends action c id next params ctx
  generalize runStore action c id next params ctx = out at hends ⊢
  cases hends with
  | absent => exact ⟨hctx, Output.failure_leadsTo next _⟩
  | unasked _ hquery =>
      rw [hquery] at hasked
      exact ⟨hasked.1, Output.failure_leadsTo next _⟩
  | refused hdb hquery hanswer =>
      have hkept := hanswered hdb hquery
      rw [hanswer] at hkept
      exact ⟨hkept, Output.failure_leadsTo next _⟩
  | answered hdb hquery hanswer =>
      have hkept := hanswered hdb hquery
      rw [hanswer] at hkept
      exact ⟨hkept, Output.success_leadsTo next _⟩

/-- **Every task asks about tables only and leads to the successor of its block.** -/
theorem run_runs [Client χ] (t : Task) : Runs (χ := χ) Q next (t.run id next params) := by
  cases t with
  | store action c => exact runStore_runs hQ id next params action c
  | _ => exact ((run_made id params _).composed next).keeps hQ fun _ hq => hq

end Kinds

end Task

end FlowGraph
