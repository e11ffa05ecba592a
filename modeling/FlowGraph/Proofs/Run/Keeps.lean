/-
What steps do to the database.

Blocks share one database, and whatever they do to it is a question that they or their
scripts ask.  A script can ask for statements only, and tasks ask about tables only: nothing
but a transaction asks to open or close one.  So a property that no question about tables
takes away outlives every step that is put together from others, and `Keeps` says so of a
step.

`Keeps` also says what a step gives.  It is `Preserves` for properties of the database alone.
-/
import FlowGraph.Proofs.Run.Changes

namespace FlowGraph

variable {δ χ α : Type}

/-- A property of the database, there or not, that no question about tables takes away. -/
def Store.Lasts [Store.Database δ] (Q : Option δ → Prop) : Prop :=
  ∀ (q : Store.Query) (db : δ), q.OnTables → Q (some db) → Q (some (Store.Database.answer q db).2)

/-! ### Notes, questions and scripts -/

namespace Context

/-- Notes change the journal only. -/
theorem notes_leave (es : List Event) (c : Context δ χ) :
    ∃ journal, es.foldl (fun c e => c.note e) c = { c with journal := journal } := by
  induction es generalizing c with
  | nil => exact ⟨c.journal, rfl⟩
  | cons e rest ih => exact ih (c.note e)

variable [Store.Database δ]

/-- A question changes the database, and else the journal only. -/
theorem query_leaves (db : δ) (q : Store.Query) (c : Context δ χ) :
    ∃ journal, (c.query db q).2
      = { c with database := some (Store.Database.answer q db).2, journal := journal } := by
  rw [query]
  rcases Store.Database.answer q db with ⟨f | v, after⟩
  · exact ⟨c.journal, rfl⟩
  · exact notes_leave (queryEvents q) { c with database := some after }

theorem query_database (db : δ) (q : Store.Query) (c : Context δ χ) :
    (c.query db q).2.database = some (Store.Database.answer q db).2 := by
  obtain ⟨journal, h⟩ := query_leaves db q c
  rw [h]

/-- If a script asks the database, it sends a statement. -/
theorem host_leaves (q : Script.Request) (c : Context δ χ) :
    ∃ database journal, (host q c).2 = { c with database := database, journal := journal } ∧
      (database = c.database ∨ ∃ statement db, c.database = some db ∧
        database = some (Store.Database.answer (.raw statement) db).2) := by
  unfold host
  split
  · exact ⟨_, _, rfl, Or.inl rfl⟩
  · exact ⟨_, _, rfl, Or.inl rfl⟩
  · split
    · rename_i statement db hdb
      obtain ⟨journal, hquery⟩ :=
        query_leaves db (.raw statement) (c.note (.codeQueried statement))
      refine ⟨_, journal, ?_, Or.inr ⟨statement, db, hdb, rfl⟩⟩
      split <;> rename_i heq <;> rw [heq] at hquery <;> exact hquery
    · exact ⟨_, _, rfl, Or.inl rfl⟩
    · exact ⟨_, _, rfl, Or.inl rfl⟩

/-- **Whatever a script does, it changes nothing but the database and the journal.** -/
theorem evaluate_leaves (granted : List String) (params : Json) (code : String)
    (c : Context δ χ) : ∃ database journal, (c.evaluate granted params code).2
      = { c with database := database, journal := journal } := by
  refine Script.Session.run_keeps
    (fun c' => ∃ database journal, c' = { c with database := database, journal := journal }) ?_ _ c
    ⟨_, _, rfl⟩
  rintro q _ ⟨database, journal, rfl⟩
  obtain ⟨database', journal', h, -⟩ :=
    host_leaves q { c with database := database, journal := journal }
  exact ⟨database', journal', h⟩

theorem evaluateApart_leaves (granted : List String) (params : Json) (code : String)
    (c : Context δ χ) : ∃ database journal, (c.evaluateApart granted params code).2
      = { c with database := database, journal := journal } := by
  obtain ⟨database, journal, h⟩ := evaluate_leaves granted params code { c with span := none }
  refine ⟨database, journal, ?_⟩
  simp only [evaluateApart, h]

end Context

namespace Act

/-- A step keeps a property of the database, and what it gives has another. -/
def Keeps (Q : Option δ → Prop) (gives : α → Prop) (x : Act δ χ α) : Prop :=
  ∀ ctx, Q ctx.database → Q (x ctx).2.database ∧ gives (x ctx).1

variable {Q : Option δ → Prop} {gives : α → Prop}

/-! ### Steps that ask nothing themselves -/

variable [Store.Database δ]

theorem host_keeps (hQ : Store.Lasts Q) (q : Script.Request) (ctx : Context δ χ)
    (h : Q ctx.database) : Q (Context.host q ctx).2.database := by
  obtain ⟨database, journal, heq, rfl | ⟨statement, db, hdb, rfl⟩⟩ := Context.host_leaves q ctx
  · rw [heq]
    exact h
  · rw [heq]
    exact hQ (.raw statement) db trivial (hdb ▸ h)

/-- Whatever a script asks for, its host asks for no transaction. -/
theorem evaluate_keeps (hQ : Store.Lasts Q) (granted : List String) (params : Json)
    (code : String) :
    Keeps Q (fun _ => True) (Context.evaluate granted params code : Act δ χ _) :=
  fun ctx h => ⟨Script.Session.run_keeps (fun c => Q c.database) (host_keeps hQ) _ ctx h, trivial⟩

theorem scriptApart_keeps (hQ : Store.Lasts Q) (granted : List String) (params : Json)
    (code : String) :
    Keeps Q (fun _ => True) (scriptApart granted params code : Act δ χ _) :=
  fun ctx h => ⟨(evaluate_keeps hQ granted params code { ctx with span := none } h).1, trivial⟩

/-- A step that only evaluates scripts changes nothing but the database and the journal. -/
theorem Evaluates.leaves {ε : Type} {params : Json} {x : ExceptT ε (Act δ χ) α}
    (h : Evaluates params x) (ctx : Context δ χ) :
    ∃ database journal, (x.run ctx).2 = { ctx with database := database, journal := journal } := by
  have hscripts : KeptByScripts (fun c : Context δ χ => ∃ database journal,
      c = { ctx with database := database, journal := journal }) params := by
    refine fun code => .intro ?_
    rintro _ ⟨database, journal, rfl⟩
    exact Context.evaluate_leaves [] params code
      { ctx with database := database, journal := journal }
  exact (h.attempts hscripts ctx ⟨_, _, rfl⟩).1

theorem keptByScripts (hQ : Store.Lasts Q) (params : Json) :
    KeptByScripts (χ := χ) (fun ctx => Q ctx.database) params :=
  fun code => .intro fun ctx h => (evaluate_keeps hQ [] params code ctx h).1

/-- A step that asks no question itself keeps what scripts keep. -/
theorem Composed.keeps [Client χ] {changes : Change → Prop} {asks : Store.Query → Prop}
    {x : Act δ χ α} (h : Composed (Basic changes asks) gives x) (hQ : Store.Lasts Q)
    (hasks : ∀ q, ¬ asks q) : Keeps Q gives x := by
  refine h.preserves (P := fun ctx => Q ctx.database) fun α x hx => ?_
  cases hx with
  | note | call => exact fun _ hctx => ⟨hctx, trivial⟩
  | script params code => exact evaluate_keeps hQ [] params code
  | scriptApart granted params code => exact scriptApart_keeps hQ granted params code
  | ask db q hq => exact absurd hq (hasks q)
  | change c => cases c <;> exact fun _ hctx => ⟨hctx, trivial⟩

end Act

end FlowGraph
