/-
How blocks end.

A block without a body ends at once.  One with a body first computes what it needs or opens
a transaction, and may end there.  Otherwise it ends with what its body ends with: a loop
raises the error of a turn, and a transaction is closed in one way or the other.
`Block.Executes` lists these cases with all that is known in each, as `WalkEnds` does for
walks, so that nothing else has to look into how the kinds of blocks are run.

Bodies are run with a smaller budget than their block.  That is what an induction over
everything that is run goes down on.
-/
import FlowGraph.Proofs.Run.Steps

namespace FlowGraph

variable {δ χ : Type} [Store.Database δ] [Client χ]

/-- The body of a block, as something that is run. -/
def bodyRun (fuel : Nat) (body : Option (String × BlockMap)) : Option (BodyRun δ χ) :=
  body.map fun inner => inner.2.run fuel inner.1

/-- How a block ends, where bodies are run with some budget. -/
inductive Block.Executes (fuel : Nat) :
    Block → Json → Context δ χ → Except BlockError Output → Context δ χ → Prop
  | task {id : String} {next : Option String} {t : Task} {params : Json} {ctx : Context δ χ} :
      Executes fuel (.task id next t) params ctx (.ok (t.run id next params ctx).1)
        (t.run id next params ctx).2
  | branch {id : String} {c : BranchConfig} {onSuccess onFailure : Option String} {params : Json}
      {ctx : Context δ χ} :
      Executes fuel (.branch id c onSuccess onFailure) params ctx
        (Task.runBranch c id onSuccess onFailure params ctx).1
        (Task.runBranch c id onSuccess onFailure params ctx).2
  | countUnset {id text : String} {next : Option String} {c : CountConfig}
      {body : Option (String × BlockMap)} {params : Json} {ctx mid : Context δ χ}
      (hbounds : (resolveBounds c params).run ctx = (.error text, mid)) :
      Executes fuel (.nested id next (.count c) body) params ctx (.ok (.failure text)) mid
  | countDone {id : String} {next : Option String} {c : CountConfig}
      {body : Option (String × BlockMap)} {params : Json} {ctx mid last : Context δ χ}
      {bounds : Bounds} {turns : Nat}
      (hbounds : (resolveBounds c params).run ctx = (.ok bounds, mid))
      (hloop : countLoop bounds (bodyRun fuel body) fuel bounds.start 0 mid
        = some (.ok turns, last)) :
      Executes fuel (.nested id next (.count c) body) params ctx (.ok (.success next params))
        (last.note (.countCompleted id turns))
  | countFailed {id : String} {next : Option String} {c : CountConfig}
      {body : Option (String × BlockMap)} {params : Json} {ctx mid last : Context δ χ}
      {bounds : Bounds} {e : RunError}
      (hbounds : (resolveBounds c params).run ctx = (.ok bounds, mid))
      (hloop : countLoop bounds (bodyRun fuel body) fuel bounds.start 0 mid
        = some (.error e, last)) :
      Executes fuel (.nested id next (.count c) body) params ctx (.error (.run e)) last
  | eachUnset {id text : String} {next : Option String} {c : EachConfig}
      {body : Option (String × BlockMap)} {params : Json} {ctx mid : Context δ χ}
      (hitems : (resolveItems c params).run ctx = (.error text, mid)) :
      Executes fuel (.nested id next (.each c) body) params ctx (.ok (.failure text)) mid
  | eachIdle {id : String} {next : Option String} {c : EachConfig} {params : Json}
      {ctx mid : Context δ χ} {items : List Json}
      (hitems : (resolveItems c params).run ctx = (.ok items, mid)) :
      Executes fuel (.nested id next (.each c) none) params ctx (.ok (.success next params))
        (mid.note (.eachCompleted id items.length))
  | eachDone {id entry : String} {next : Option String} {c : EachConfig} {inner : BlockMap}
      {params : Json} {ctx mid last : Context δ χ} {items : List Json}
      (hitems : (resolveItems c params).run ctx = (.ok items, mid))
      (hloop : eachLoop (inner.run fuel entry) items mid = some (.ok (), last)) :
      Executes fuel (.nested id next (.each c) (some (entry, inner))) params ctx
        (.ok (.success next params)) (last.note (.eachCompleted id items.length))
  | eachFailed {id entry : String} {next : Option String} {c : EachConfig} {inner : BlockMap}
      {params : Json} {ctx mid last : Context δ χ} {items : List Json} {e : RunError}
      (hitems : (resolveItems c params).run ctx = (.ok items, mid))
      (hloop : eachLoop (inner.run fuel entry) items mid = some (.error e, last)) :
      Executes fuel (.nested id next (.each c) (some (entry, inner))) params ctx
        (.error (.run e)) last
  | transactionUnserved {id : String} {next : Option String} {body : Option (String × BlockMap)}
      {params : Json} {ctx : Context δ χ} (hdb : ctx.database = none) :
      Executes fuel (.nested id next .transaction body) params ctx
        (.ok (.failure "transaction block requires a database adapter")) ctx
  | transactionIdle {id : String} {next : Option String} {params : Json} {ctx : Context δ χ}
      {db : δ} (hdb : ctx.database = some db) :
      Executes fuel (.nested id next .transaction none) params ctx (.ok (.success next params)) ctx
  | transactionRefused {id : String} {next : Option String} {body : String × BlockMap}
      {params : Json} {ctx mid : Context δ χ} {db : δ} {f : Store.Fault}
      (hdb : ctx.database = some db)
      (hopen : ctx.query db (.setMode .transaction) = (.error f, mid)) :
      Executes fuel (.nested id next .transaction (some body)) params ctx (.error (.store f)) mid
  | transactionClosed {id entry : String} {next : Option String} {inner : BlockMap}
      {params answer : Json} {ctx mid left : Context δ χ} {db : δ} {r : Except RunError Output}
      (hdb : ctx.database = some db)
      (hopen : ctx.query db (.setMode .transaction) = (.ok answer, mid))
      (hbody : inner.run fuel entry params mid = some (r, left)) :
      Executes fuel (.nested id next .transaction (some (entry, inner))) params ctx
        (.ok (close id next r left).1) (leaveTransaction id (close id next r left).2).2

variable {fuel : Nat} {b : Block} {params : Json} {ctx ctx' : Context δ χ}
  {r : Except BlockError Output}

theorem Block.execute_zero (b : Block) (params : Json) (ctx : Context δ χ) :
    b.execute 0 params ctx = none := rfl

section Kinds

variable {id : String} {next : Option String} {body : Option (String × BlockMap)}

theorem execute_count (c : CountConfig) :
    (Block.nested id next (.count c) body).execute (fuel + 1) params ctx
      = runCount c id next (bodyRun fuel body) fuel params ctx := rfl

theorem execute_each (c : EachConfig) :
    (Block.nested id next (.each c) body).execute (fuel + 1) params ctx
      = runEach c id next (bodyRun fuel body) params ctx := rfl

theorem execute_transaction :
    (Block.nested id next .transaction body).execute (fuel + 1) params ctx
      = runTransaction id next (bodyRun fuel body) params ctx := rfl

theorem executes_of_runCount {c : CountConfig}
    (h : runCount c id next (bodyRun fuel body) fuel params ctx = some (r, ctx')) :
    Block.Executes fuel (.nested id next (.count c) body) params ctx r ctx' := by
  rw [runCount, Act.within_context] at h
  cases hbounds : (resolveBounds c params).run ctx with
  | mk bounds mid =>
      rw [hbounds] at h
      cases bounds with
      | error text =>
          obtain ⟨rfl, rfl⟩ := Prod.mk.inj (Option.some.inj h)
          exact .countUnset hbounds
      | ok bounds =>
          simp only at h
          cases hloop : countLoop bounds (bodyRun fuel body) fuel bounds.start 0 mid with
          | none => simp [hloop] at h
          | some looped =>
              obtain ⟨turns, last⟩ := looped
              rw [hloop] at h
              cases turns with
              | ok turns =>
                  obtain ⟨rfl, rfl⟩ := Prod.mk.inj (Option.some.inj h)
                  exact .countDone hbounds hloop
              | error e =>
                  obtain ⟨rfl, rfl⟩ := Prod.mk.inj (Option.some.inj h)
                  exact .countFailed hbounds hloop

theorem executes_of_runEach {c : EachConfig}
    (h : runEach c id next (bodyRun fuel body) params ctx = some (r, ctx')) :
    Block.Executes fuel (.nested id next (.each c) body) params ctx r ctx' := by
  rw [runEach, Act.within_context] at h
  cases hitems : (resolveItems c params).run ctx with
  | mk items mid =>
      rw [hitems] at h
      cases items with
      | error text =>
          obtain ⟨rfl, rfl⟩ := Prod.mk.inj (Option.some.inj h)
          exact .eachUnset hitems
      | ok items =>
          cases body with
          | none =>
              obtain ⟨rfl, rfl⟩ := Prod.mk.inj (Option.some.inj h)
              exact .eachIdle hitems
          | some body =>
              obtain ⟨⟨looped, last⟩, hloop, hend⟩ := Option.map_eq_some_iff.mp h
              obtain ⟨rfl, rfl⟩ := Prod.mk.inj hend
              cases looped with
              | ok u => exact .eachDone hitems hloop
              | error e => exact .eachFailed hitems hloop

theorem executes_of_runTransaction
    (h : runTransaction id next (bodyRun fuel body) params ctx = some (r, ctx')) :
    Block.Executes fuel (.nested id next .transaction body) params ctx r ctx' := by
  simp only [runTransaction, HoldsContext.context_context, Act.within_context] at h
  cases hdb : ctx.database with
  | none =>
      simp only [hdb] at h
      obtain ⟨rfl, rfl⟩ := Prod.mk.inj (Option.some.inj h)
      exact .transactionUnserved hdb
  | some db =>
      cases body with
      | none =>
          simp only [hdb, bodyRun, Option.map_none] at h
          obtain ⟨rfl, rfl⟩ := Prod.mk.inj (Option.some.inj h)
          exact .transactionIdle hdb
      | some body =>
          simp only [hdb, bodyRun, Option.map_some] at h
          cases hopen : ctx.query db (.setMode .transaction) with
          | mk answer mid =>
              rw [hopen] at h
              cases answer with
              | error f =>
                  obtain ⟨rfl, rfl⟩ := Prod.mk.inj (Option.some.inj h)
                  exact .transactionRefused hdb hopen
              | ok answer =>
                  simp only at h
                  cases hbody : body.2.run fuel body.1 params mid with
                  | none => simp [hbody] at h
                  | some out =>
                      rw [hbody] at h
                      obtain ⟨rfl, rfl⟩ := Prod.mk.inj (Option.some.inj h)
                      exact .transactionClosed hdb hopen hbody

end Kinds

/-- **How blocks end.** -/
theorem Block.execute_succ_iff :
    b.execute (fuel + 1) params ctx = some (r, ctx') ↔ b.Executes fuel params ctx r ctx' := by
  constructor
  · intro h
    cases b with
    | task id next t =>
        obtain ⟨rfl, rfl⟩ := Prod.mk.inj (Option.some.inj h)
        exact .task
    | branch id c onSuccess onFailure =>
        obtain ⟨rfl, rfl⟩ := Prod.mk.inj (Option.some.inj h)
        exact .branch
    | nested id next frame body =>
        cases frame with
        | count c => exact executes_of_runCount h
        | each c => exact executes_of_runEach h
        | transaction => exact executes_of_runTransaction h
  · intro h
    cases h with
    | task | branch => rfl
    | countUnset hbounds =>
        rw [execute_count, runCount, Act.within_context, hbounds]
    | countDone hbounds hloop | countFailed hbounds hloop =>
        rw [execute_count, runCount, Act.within_context, hbounds]
        simp only [hloop]
        rfl
    | eachUnset hitems =>
        rw [execute_each, runEach, Act.within_context, hitems]
    | eachIdle hitems =>
        rw [execute_each, runEach, Act.within_context, hitems]
        rfl
    | eachDone hitems hloop | eachFailed hitems hloop =>
        rw [execute_each, runEach, Act.within_context, hitems]
        simp only [bodyRun, Option.map_some, hloop]
        rfl
    | transactionUnserved hdb | transactionIdle hdb =>
        simp only [execute_transaction, runTransaction, HoldsContext.context_context, hdb, bodyRun,
          Option.map_none]
    | transactionRefused hdb hopen =>
        simp only [execute_transaction, runTransaction, HoldsContext.context_context,
          Act.within_context, hdb, bodyRun, Option.map_some, hopen]
    | transactionClosed hdb hopen hbody =>
        simp only [execute_transaction, runTransaction, HoldsContext.context_context,
          Act.within_context, hdb, bodyRun, Option.map_some, hopen, hbody]
        rfl

end FlowGraph
