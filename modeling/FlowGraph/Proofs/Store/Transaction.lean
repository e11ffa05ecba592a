/-
Transactions on a database in memory, undone and kept.

While a transaction is open the database answers questions about tables as it does outside
of one, because neither the mode nor the tables that are remembered are looked at.  So a
transaction is a frame around what is done in it: `serve_framed` says it of any number of
questions, refused ones among them.

The frame is what a rollback needs.  It finds the tables that were remembered and puts them
back whole, whatever has been put in, changed, deleted or begun since.  The counter is not a
table, so an `id` that was given once is not given again.  A commit and the mode set back take
the frame off, and nothing tells that there was a transaction.
-/
import FlowGraph.Proofs.Store.History

namespace FlowGraph.Store.Memory

/-- Put questions one after the other. -/
def serve (m : Memory) : List Query → List (Except Fault Json) × Memory
  | [] => ([], m)
  | q :: rest =>
    let (answer, m) := m.answer q
    let (answers, m) := m.serve rest
    (answer :: answers, m)

variable {m : Memory} {qs : List Query}

/-- No number of questions about tables sees or changes the transaction that they are asked in. -/
theorem serve_framed (hqs : ∀ q ∈ qs, q.OnTables) (m : Memory) (mode : Mode)
    (snapshot : Option Tables) :
    (m.framed mode snapshot).serve qs
      = ((m.serve qs).1, (m.serve qs).2.framed mode snapshot) := by
  induction qs generalizing m with
  | nil => rfl
  | cons q rest ih =>
      obtain ⟨hq, hrest⟩ := List.forall_mem_cons.mp hqs
      rw [serve, serve, answer_framed hq m mode snapshot]
      simp only [ih hrest]

/-- The questions leave the transaction that there was. -/
theorem serve_snd_framed (hqs : ∀ q ∈ qs, q.OnTables) (m : Memory) :
    (m.serve qs).2 = (m.serve qs).2.framed m.mode m.snapshot :=
  congrArg Prod.snd (serve_framed hqs m m.mode m.snapshot)

/-- **A transaction that is rolled back leaves all tables as they were and the counter where it came
to; one that is committed leaves no trace of itself.**  In both, the questions inside of it are
answered as without it. -/
theorem serve_transaction (hm : m.mode = .normal) (hqs : ∀ q ∈ qs, q.OnTables) :
    let plain := m.serve qs
    let inside := m.serve (.setMode .transaction :: qs)
    let undone := inside.2.answer .rollback
    let kept := inside.2.serve [.commit, .setMode .normal]
    inside.1 = .ok .null :: plain.1 ∧
      (undone.1 = .ok .null ∧ undone.2.tables = m.tables ∧
        undone.2.lastId = inside.2.lastId ∧ inside.2.lastId = plain.2.lastId) ∧
      kept.1 = [.ok .null, .ok .null] ∧ kept.2 = { plain.2 with snapshot := none } ∧
      ((∃ h, History.Leaves h m) → kept.2 = plain.2) := by
  have hopened : m.answer (.setMode .transaction)
      = (.ok .null, m.framed .transaction (some m.tables)) := by
    rw [answer, hm]
    rfl
  have hinside : m.serve (.setMode .transaction :: qs)
      = (.ok .null :: (m.serve qs).1, (m.serve qs).2.framed .transaction (some m.tables)) := by
    rw [serve, hopened]
    simp only [serve_framed hqs]
  have hplain : (m.serve qs).2 = (m.serve qs).2.framed .normal m.snapshot :=
    hm ▸ serve_snd_framed hqs m
  have hkept : { (m.serve qs).2 with snapshot := none } = (m.serve qs).2.framed .normal none :=
    congrArg (fun m' : Memory => { m' with snapshot := none }) hplain
  simp only [hinside, hkept]
  refine ⟨trivial, ⟨rfl, rfl, rfl, rfl⟩, rfl, rfl, ?_⟩
  rintro ⟨h, hleaves⟩
  rw [hleaves.snapshot_none hm] at hplain
  exact hplain.symm

/-- A row of a table. -/
def ada : Row := [("id", Json.nat 1), ("name", .str "ada")]

/-- A database that was filled in with one table of this row. -/
def seeded : Memory := { tables := [("users", [ada])], lastId := 1 }

/-- Questions that begin a table, change a row, take it away and fail twice. -/
def questions : List Query :=
  [.insert "log" [("text", .str "new")], .update "users" [] [("name", .str "alan")],
   .getAll "nowhere" [] none none none, .delete "users" [], .raw "VACUUM"]

theorem serve_transaction_seeded :
    seeded.mode = .normal ∧ (∀ q ∈ questions, q.OnTables) ∧ (∃ h, History.Leaves h seeded) ∧
      (let inside := seeded.serve (.setMode .transaction :: questions)
       inside.2.tables = [("log", [[("id", Json.nat 2), ("text", .str "new")]]), ("users", [])] ∧
         (inside.2.answer .rollback).2.tables = seeded.tables ∧
         (inside.2.answer .rollback).2.lastId = 2 ∧
         (inside.2.serve [.commit, .setMode .normal]).2 = (seeded.serve questions).2) := by
  have htables : ∀ q ∈ questions, q.OnTables := by simp [questions, Query.OnTables]
  have hseed : ofSeed (.obj [("users", .arr [.obj ada])]) = .ok seeded := rfl
  have hleaves : ∃ h, History.Leaves h seeded := ⟨[], .seeded hseed⟩
  obtain ⟨-, ⟨-, hundone, hcounter, -⟩, -, -, hkept⟩ := serve_transaction (m := seeded) rfl htables
  exact ⟨rfl, htables, hleaves, rfl, hundone, hcounter.trans rfl, hkept hleaves⟩

end FlowGraph.Store.Memory
