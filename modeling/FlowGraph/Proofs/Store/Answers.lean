/-
What a question does to a database in memory.

Questions are of two sorts.  Those about tables are answered from the tables and the counter
alone: `answer_framed` says that the mode and the tables that are remembered play no part in
the answer and stay as they are.  The others open and close transactions, and each of them
either does all that it says or is refused.

Whatever its sort, a question that is refused changes nothing.
-/
import FlowGraph.Store.Memory

namespace FlowGraph.Store

/-- A question about tables, not about transactions. -/
def Query.OnTables : Query → Prop
  | .setMode _ | .commit | .rollback => False
  | _ => True

/-- A transaction is open that began with some tables, or none is open. -/
structure Memory.Stands (m : Memory) (opened : Option Tables) : Prop where
  snapshot : m.snapshot = opened
  mode : m.mode = if opened.isSome then .transaction else .normal

/-- A database with its transaction exchanged for another one, or for none. -/
def Memory.framed (m : Memory) (mode : Mode) (snapshot : Option Tables) : Memory :=
  { m with mode := mode, snapshot := snapshot }

namespace Memory

variable {m : Memory} {q : Query}

/-- A question that is refused changes nothing. -/
theorem answer_refused {f : Fault} (h : (m.answer q).1 = .error f) :
    (m.answer q).2 = m := by
  rw [answer.eq_def] at h ⊢
  cases q <;> grind

/-- **What is asked about tables is answered alike in a transaction and outside of one**, and leaves
the transaction as it is. -/
theorem answer_framed (hq : q.OnTables) (m : Memory) (mode : Mode) (snapshot : Option Tables) :
    (m.framed mode snapshot).answer q = ((m.answer q).1, (m.answer q).2.framed mode snapshot) := by
  cases q with
  | setMode mode => exact hq.elim
  | commit => exact hq.elim
  | rollback => exact hq.elim
  | getSingle name filters | update name filters row | delete name filters =>
      -- These look for their table first, which is the same in both.
      have htable : (m.framed mode snapshot).table name = m.table name := rfl
      rw [answer, answer, htable]
      cases m.table name <;> rfl
  | getAll name filters limit offset sort | insert name row | insertBulk name rows
  | raw statement => rfl

theorem answer_mode (hq : q.OnTables) (m : Memory) : (m.answer q).2.mode = m.mode :=
  congrArg (fun r => r.2.mode) (answer_framed hq m m.mode m.snapshot)

theorem answer_snapshot (hq : q.OnTables) (m : Memory) : (m.answer q).2.snapshot = m.snapshot :=
  congrArg (fun r => r.2.snapshot) (answer_framed hq m m.mode m.snapshot)

/-- Nothing that is asked about tables opens or closes a transaction. -/
theorem answer_stands {opened : Option Tables} (q : Query) (m : Memory) (hq : q.OnTables)
    (h : m.Stands opened) : (m.answer q).2.Stands opened :=
  ⟨(answer_snapshot hq m).trans h.snapshot, (answer_mode hq m).trans h.mode⟩

end Memory

end FlowGraph.Store
