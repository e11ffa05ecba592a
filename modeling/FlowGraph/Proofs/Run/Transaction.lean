/-
Transactions on a database in memory.

The mode of the database and the tables that it remembers are shared by everything that
runs, and only a transaction changes them.  `Memory.Stands` ties the two together: either
no transaction is open, or one is and its tables are remembered.  A block leaves the
database standing as it found it, whatever is nested in it, since a transaction inside of
another cannot open and one that can open closes again.

So the tables that were remembered are still there when the body is over.  A commit finds
them, which is why it never fails, and a rollback puts them back.  A transaction inside of
another raises, and that error ends everything up to the transaction around it, which
therefore rolls back.
-/
import FlowGraph.Proofs.Run.Frames
import FlowGraph.Proofs.Run.Tasks
import FlowGraph.Proofs.Run.Raising
import FlowGraph.Store.Memory

namespace FlowGraph

open Store

variable {χ : Type}

namespace Store

/-- The database is there, and stands in some way. -/
def Standing (opened : Option Tables) (d : Option Memory) : Prop :=
  ∃ m, d = some m ∧ m.Stands opened

theorem Standing.lasts (opened : Option Tables) : Lasts (Standing opened) := by
  rintro q m hq ⟨m', hm', hstands⟩
  obtain rfl := Option.some.inj hm'
  exact ⟨_, rfl, Memory.answer_stands q m hq hstands⟩

end Store

/-! ### Opening and closing -/

/-- The state in which a transaction runs its body. -/
def Context.opened (ctx : Context Memory χ) (m : Memory) : Context Memory χ :=
  { ctx with database := some { m with mode := .transaction, snapshot := some m.tables } }

theorem Context.opened_standing (ctx : Context Memory χ) (m : Memory) :
    Standing (some m.tables) (ctx.opened m).database := ⟨_, rfl, rfl, rfl⟩

section Steps

variable {ctx : Context Memory χ} {m : Memory} {before : Tables}

theorem query_answer {q : Query} {a : Json} {m' : Memory} (h : m.answer q = (.ok a, m')) :
    ctx.query m q
      = (.ok a,
          (Context.queryEvents q).foldl (fun c e => c.note e)
            { ctx with database := some m' }) := by
  have hanswer : Database.answer q m = (.ok a, m') := h
  rw [Context.query, hanswer]

theorem ask_eq (q : Query) (hdb : ctx.database = some m) : ask q ctx = ctx.query m q := by
  rw [ask, hdb]

/-- Inside of a transaction no other one opens, and to try changes nothing. -/
theorem query_open_refused (hdb : ctx.database = some m) (hm : m.mode = .transaction) :
    ctx.query m (.setMode .transaction)
      = (.error (.transaction "transaction already open"), ctx) := by
  have hanswer : Database.answer (.setMode .transaction) m
      = (.error (.transaction "transaction already open"), m) := by
    show m.answer (.setMode .transaction) = _
    rw [Memory.answer, hm]
  rw [Context.query, hanswer]
  simp only [← hdb]

/-- Where none is open, a transaction opens and remembers the tables. -/
theorem query_open (hm : m.mode = .normal) :
    ctx.query m (.setMode .transaction) = (.ok .null, ctx.opened m) := by
  refine query_answer ?_
  rw [Memory.answer, hm]

/-- A commit finds the tables that were remembered, so it does not fail. -/
theorem close_ok (id : String) (next : Option String) (o : Output) (hdb : ctx.database = some m)
    (hm : m.Stands (some before)) :
    (close id next (.ok o) ctx).1 = .success next (o.output.getD .null) ∧
      (close id next (.ok o) ctx).2.database = some { m with snapshot := none } := by
  have hanswer : m.answer .commit = (.ok .null, { m with snapshot := none }) := by
    rw [Memory.answer, hm.snapshot]
  simp only [close, Act.bind_apply, Act.pure_apply, Act.note_apply, ask_eq _ hdb,
    query_answer hanswer]
  exact ⟨trivial, rfl⟩

/-- A rollback finds them too, and puts them back. -/
theorem close_error (id : String) (next : Option String) (e : RunError)
    (hdb : ctx.database = some m) (hm : m.Stands (some before)) :
    (close id next (.error e) ctx).1 = .failure ("transaction rolled back: " ++ e.message) ∧
      (close id next (.error e) ctx).2.database
        = some { m with tables := before, snapshot := none } := by
  have hanswer : m.answer .rollback
      = (.ok .null, { m with tables := before, snapshot := none }) := by
    rw [Memory.answer, hm.snapshot]
  simp only [close, undo, Act.bind_apply, Act.pure_apply, Act.note_apply, ask_eq _ hdb,
    query_answer hanswer]
  exact ⟨trivial, rfl⟩

theorem leaveTransaction_database (id : String) (hdb : ctx.database = some m) :
    (leaveTransaction id ctx).2.database = some { m with mode := .normal, snapshot := none } := by
  have hanswer : m.answer (.setMode .normal)
      = (.ok .null, { m with mode := .normal, snapshot := none }) :=
    rfl
  simp only [leaveTransaction, Act.bind_apply, Act.pure_apply, ask_eq _ hdb, query_answer hanswer]
  rfl

end Steps

/-! ### How a transaction ends -/

/-- The tables that the body left are kept, no transaction is open, and the output of the body goes
on. -/
structure Visit.Kept (next : Option String) (out : Output) (left : Context Memory χ)
    (r : Except BlockError Output) (ctx : Context Memory χ) : Prop where
  output : r = .ok (.success next (out.output.getD .null))
  tables : ∃ m after, left.database = some m ∧ ctx.database = some after ∧ after.Stands none ∧
    after.tables = m.tables

/-- The tables are those from before the block, no transaction is open, and the output is fatal. -/
structure Visit.Undone (v : Visit Memory χ) (r : Except BlockError Output)
    (ctx : Context Memory χ) : Prop where
  output : ∃ out, r = .ok out ∧ out.isFatal = true
  tables : ∃ before after, v.ctx.database = some before ∧ ctx.database = some after ∧
    after.Stands none ∧ after.tables = before.tables

/-- What the end of its body makes of a transaction. -/
def Visit.Settles (v : Visit Memory χ) (next : Option String) (left : Context Memory χ)
    (r : Except BlockError Output) (ctx : Context Memory χ) : Except RunError Output → Prop
  | .ok out => Visit.Kept next out left r ctx
  | .error _ => v.Undone r ctx

section Ends

variable {ctx left : Context Memory χ} {m : Memory} (id : String) (next : Option String)
  (run : BodyRun Memory χ) (params : Json)

theorem runTransaction_refused {before : Tables} (hdb : ctx.database = some m)
    (hm : m.Stands (some before)) :
    runTransaction id next (some run) params ctx
      = some (.error (.store (.transaction "transaction already open")), ctx) := by
  simp only [runTransaction, HoldsContext.context_context, Act.within_context, hdb,
    query_open_refused hdb hm.mode]

theorem runTransaction_eq (hdb : ctx.database = some m) (hm : m.Stands none) :
    runTransaction id next (some run) params ctx
      = (run params (ctx.opened m)).map fun (result, left) =>
          (.ok (close id next result left).1,
            (leaveTransaction id (close id next result left).2).2) := by
  simp only [runTransaction, HoldsContext.context_context, Act.within_context, hdb,
    query_open hm.mode]
  cases run params _ <;> rfl

theorem closes {v : Visit Memory χ} (hdb : v.ctx.database = some m)
    (hleft : Standing (some m.tables) left.database) (result : Except RunError Output) :
    v.Settles next left (.ok (close id next result left).1)
      (leaveTransaction id (close id next result left).2).2 result := by
  obtain ⟨m', hm', hstands⟩ := hleft
  cases result with
  | ok out =>
      obtain ⟨hout, hclosed⟩ := close_ok id next out hm' hstands
      exact ⟨congrArg Except.ok hout, m', _, hm', leaveTransaction_database id hclosed,
        ⟨rfl, rfl⟩, rfl⟩
  | error e =>
      obtain ⟨hout, hclosed⟩ := close_error id next e hm' hstands
      exact ⟨⟨_, congrArg Except.ok hout, rfl⟩, m, _, hdb, leaveTransaction_database id hclosed,
        ⟨rfl, rfl⟩, rfl⟩

theorem Visit.Settles.idle {v : Visit Memory χ} {r : Except BlockError Output}
    {result : Except RunError Output} (h : v.Settles next left r ctx result) :
    Standing none ctx.database := by
  cases result with
  | ok out =>
      obtain ⟨m, after, -, hafter, hstands, -⟩ := Visit.Kept.tables h
      exact ⟨after, hafter, hstands⟩
  | error e =>
      obtain ⟨m, after, -, hafter, hstands, -⟩ := Visit.Undone.tables h
      exact ⟨after, hafter, hstands⟩

end Ends

/-- However the database stood before, it stands so after. -/
def Context.StandsAs (before after : Context Memory χ) : Prop :=
  ∀ opened, Standing opened before.database → Standing opened after.database

/-- **Whatever is run leaves the database standing as it found it**: in the transaction that was
open, or in none. -/
theorem standing_carried [Client χ] : Carried (Context.StandsAs (χ := χ)) fun _ => True where
  refl _ _ h := h
  trans h h' opened ho := h' opened (h opened ho)
  idle hx ctx opened ho := by
    have hkept := (Act.Composed.step hx fun _ => trivial).keeps (Standing.lasts opened)
      fun _ hq => hq
    exact (hkept ctx ho).1
  task t _ id next params ctx opened ho :=
    (Task.run_runs (Standing.lasts opened) id next params t ctx ho).1
  refused := by
    rintro ctx mid db f hdb hopen opened ⟨m, hm, hstands⟩
    obtain rfl : m = db := Option.some.inj (hm.symm.trans hdb)
    cases opened with
    | none =>
        rw [query_open hstands.mode] at hopen
        simp at hopen
    | some before =>
        rw [query_open_refused hdb hstands.mode] at hopen
        obtain rfl : ctx = mid := congrArg Prod.snd hopen
        exact ⟨m, hm, hstands⟩
  closed := by
    rintro ctx mid left db answer hdb hopen hbody id next r opened ⟨m, hm, hstands⟩
    obtain rfl : m = db := Option.some.inj (hm.symm.trans hdb)
    cases opened with
    | none =>
        rw [query_open hstands.mode] at hopen
        obtain rfl : ctx.opened m = mid := congrArg Prod.snd hopen
        have hleft := hbody (some m.tables) (ctx.opened_standing m)
        have hsettles := closes (v := ⟨.task id next .entrypoint, .null, ctx⟩) id next hdb hleft r
        exact hsettles.idle
    | some before =>
        rw [query_open_refused hdb hstands.mode] at hopen
        simp at hopen

end FlowGraph
