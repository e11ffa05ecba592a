/-
Many rows at once.

Rows that are put in together are given their `id`s first, all of them, and stand behind those of
the table then.  Rows that are put in one after the other are given an `id` and stored in turn.
That makes no difference: what is stored is never looked at when an `id` is given, only the counter
is, and the counter goes through all rows in the same order.

The one question that puts in nothing has no counterpart among single ones.  It begins a table.
-/
import FlowGraph.Proofs.Store.Ids
import FlowGraph.Proofs.Store.Selection
import FlowGraph.Proofs.Store.Transaction

namespace FlowGraph.Store.Memory

theorem rows_append (m : Memory) (name : String) (rows : List Row) (lastId : Nat) :
    (m.append name rows lastId).rows name = m.rows name ++ rows := by
  rw [append, Memory.rows, Entries.find?_insert_self, Option.getD_some]

/-- Rows that are put behind others twice are put there at once. -/
theorem append_append (m : Memory) (name : String) (first second : List Row) (last lastId : Nat) :
    (m.append name first last).append name second lastId
      = m.append name (first ++ second) lastId := by
  rw [append, rows_append, List.append_assoc]
  simp only [append, Entries.insert_insert]

/-- A table with rows behind those it had. -/
theorem rewrites_append (m : Memory) (name : String) (rows : List Row) :
    m.Rewrites name (m.rows name ++ rows) (m.append name rows m.lastId) :=
  m.rewrites_insert name _

theorem serve_cons (m : Memory) (q : Query) (qs : List Query) :
    m.serve (q :: qs)
      = ((m.answer q).1 :: ((m.answer q).2.serve qs).1, ((m.answer q).2.serve qs).2) := rfl

theorem answer_insert (m : Memory) (name : String) (row : Row) :
    m.answer (.insert name row)
      = (.ok (rowValue (assignId m.lastId row).1),
          m.append name [(assignId m.lastId row).1] (assignId m.lastId row).2) := rfl

theorem answer_insertBulk (m : Memory) (name : String) (rows : List Row) :
    m.answer (.insertBulk name rows)
      = (.ok (rowsValue (assignIds m.lastId rows).1),
          m.append name (assignIds m.lastId rows).1 (assignIds m.lastId rows).2) := rfl

/-- Rows that are put in one after the other are given the `id`s of rows that are put in together,
and stand where those stand.  The induction is on the rows behind the first one, which begins the
table if there was none. -/
theorem serve_inserts (m : Memory) (name : String) (row : Row) (rest : List Row) :
    m.serve ((row :: rest).map (Query.insert name))
      = ((assignIds m.lastId (row :: rest)).1.map fun stored => .ok (rowValue stored),
          m.append name (assignIds m.lastId (row :: rest)).1
            (assignIds m.lastId (row :: rest)).2) := by
  induction rest generalizing m row with
  | nil => rfl
  | cons second rest ih =>
      have hcounter : (m.append name [(assignId m.lastId row).1] (assignId m.lastId row).2).lastId
          = (assignId m.lastId row).2 := rfl
      rw [List.map_cons, serve_cons, answer_insert, ih, hcounter, append_append,
        assignIds_cons m.lastId row]
      rfl

/-- **To put in rows together is to put them in one after the other.**  The rows are given the same
`id`s, they are answered in the same order, and the database is the same afterwards, with its
counter.  If there are no rows, their table is there afterwards, empty if it was not there before,
and all else is as it was. -/
theorem insertBulk_serves (m : Memory) (name : String) :
    (∀ rows : List Row, rows ≠ [] → ∃ stored m',
      m.answer (.insertBulk name rows) = (.ok (rowsValue stored), m') ∧
      m.serve (rows.map (Query.insert name))
        = (stored.map fun row => .ok (rowValue row), m')) ∧
    ∃ m', m.answer (.insertBulk name []) = (.ok (rowsValue []), m') ∧
      m.Rewrites name (m.rows name) m' ∧
      (Entries.Sorted m.tables → m'.tables = Entries.insertNew name [] m.tables) := by
  refine ⟨fun rows hrows => ?_, m.append name [] m.lastId, rfl, ?_, fun hsorted => ?_⟩
  · cases rows with
    | nil => exact absurd rfl hrows
    | cons row rest => exact ⟨_, _, m.answer_insertBulk name _, m.serve_inserts name row rest⟩
  · have hbegun := m.rewrites_append name []
    rwa [List.append_nil] at hbegun
  · refine hsorted.insert.ext hsorted.insertNew fun other => ?_
    rw [Entries.find?_insert, Entries.find?_insertNew, List.append_nil, Memory.rows]

/-- A row whose `id` is far ahead, between rows that have none. -/
def arrivals : List Row := [[], [("id", Json.nat 40)], [("name", .str "alan")]]

theorem insertBulk_serves_arrivals :
    let stored : List Row := [[("id", Json.nat 2)], [("id", Json.nat 40)],
      [("id", Json.nat 41), ("name", .str "alan")]]
    (∃ m', m'.lastId = 41 ∧
      seeded.answer (.insertBulk "users" arrivals) = (.ok (rowsValue stored), m') ∧
      seeded.serve (arrivals.map (Query.insert "users"))
        = (stored.map fun row => .ok (rowValue row), m')) ∧
    ∃ m', seeded.answer (.insertBulk "log" []) = (.ok (rowsValue []), m') ∧
      m'.tables = [("log", []), ("users", [ada])] := by
  intro stored
  obtain ⟨hrows, -⟩ := seeded.insertBulk_serves "users"
  obtain ⟨-, begun, hbegun, -, htables⟩ := seeded.insertBulk_serves "log"
  obtain ⟨answered, after, hbulk, hsingle⟩ := hrows arrivals (by decide)
  have hcomputed : seeded.answer (.insertBulk "users" arrivals)
      = (.ok (rowsValue stored), seeded.append "users" stored 41) := rfl
  obtain ⟨hsame, rfl⟩ := Prod.mk.inj (hbulk.symm.trans hcomputed)
  obtain rfl := rowsValue_injective (Except.ok.inj hsame)
  exact ⟨⟨_, rfl, hbulk, hsingle⟩, begun, hbegun, htables (List.pairwise_singleton _ _)⟩

end FlowGraph.Store.Memory
