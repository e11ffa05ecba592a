/-
A database that is written down and filled in again.

The object that holds the rows of every table under its name is a seed.  To fill in a seed gives an
`id` to each row that has none, so a database comes back from it as it was only if there is no such
row.  There is none: a row is stored with an `id`, and though a question may write any value over
it, none takes a column away.  The same must be known of the tables that a transaction remembers,
because a rollback puts them back.

What does not come back is the transaction itself, and the counter is only as far as the rows say.
-/
import FlowGraph.Proofs.Store.Ids
import FlowGraph.Proofs.Store.Transaction

namespace FlowGraph.Store

/-- All rows have an `id`. -/
def Marked (rows : List Row) : Prop := ∀ row ∈ rows, Entries.contains "id" row = true

/-- Tables stand in the order of their names, and all their rows have an `id`. -/
structure Tables.Kept (tables : Tables) : Prop where
  sorted : Entries.Sorted tables
  marked : ∀ name rows, (name, rows) ∈ tables → Marked rows

/-- Tables that are stored or remembered are kept. -/
structure Memory.Kept (m : Memory) : Prop where
  tables : m.tables.Kept
  remembered : ∀ tables, m.snapshot = some tables → tables.Kept

variable {m : Memory} {tables : Tables} {name : String} {rows : List Row} {row : Row}

theorem Marked.nil : Marked [] := fun _ hrow => absurd hrow List.not_mem_nil

theorem Marked.append {more : List Row} (h : Marked rows) (hmore : Marked more) :
    Marked (rows ++ more) :=
  fun row hrow => (List.mem_append.mp hrow).elim (h row) (hmore row)

theorem Tables.Kept.nil : Tables.Kept [] := ⟨Entries.Sorted.nil, nofun⟩

theorem Tables.Kept.insert (h : Tables.Kept tables) (hrows : Marked rows) :
    Tables.Kept (Entries.insert name rows tables) := by
  refine ⟨h.sorted.insert, fun other others hmem => ?_⟩
  rcases Entries.mem_insert hmem with heq | hmem
  · obtain ⟨-, rfl⟩ := Prod.mk.inj heq
    exact hrows
  · exact h.marked other others hmem

/-- Where no tables are remembered, only those that are stored matter. -/
theorem Memory.Kept.of_closed (h : m.tables.Kept) (hsnapshot : m.snapshot = none) : m.Kept :=
  ⟨h, fun _ hsome => absurd (hsome.symm.trans hsnapshot) (Option.some_ne_none _)⟩

/-! ### Rows that are put in -/

namespace Memory

theorem contains_assignId (last : Nat) (row : Row) :
    Entries.contains "id" (assignId last row).1 = true := by
  cases hid : Entries.find? "id" row with
  | some v =>
      rw [assignId_some hid]
      exact Entries.contains_of_find? hid
  | none =>
      rw [assignId, hid]
      exact Entries.contains_of_find? (Entries.find?_insert_self row)

theorem marked_assignIds (last : Nat) (rows : List Row) : Marked (assignIds last rows).1 := by
  induction rows generalizing last with
  | nil => exact .nil
  | cons row rest ih =>
      rw [assignIds_cons]
      exact List.forall_mem_cons.mpr ⟨contains_assignId last row, ih _⟩

/-- Rows that have an `id` are stored as they are. -/
theorem assignIds_of_marked (last : Nat) (h : Marked rows) : (assignIds last rows).1 = rows := by
  induction rows generalizing last with
  | nil => rfl
  | cons row rest ih =>
      obtain ⟨hrow, hrest⟩ := List.forall_mem_cons.mp h
      obtain ⟨v, hv⟩ := Entries.contains_iff.mp hrow
      rw [assignIds_cons, assignId_some hv, ih _ hrest]

/-! ### Questions -/

theorem marked_rows (h : m.tables.Kept) (name : String) : Marked (m.rows name) := by
  rw [Memory.rows]
  cases hfind : Entries.find? name m.tables with
  | none => exact .nil
  | some rows => exact h.marked name rows (Entries.mem_of_find? hfind)

theorem marked_of_table (h : m.tables.Kept) (htable : m.table name = .ok rows) : Marked rows := by
  rw [table] at htable
  cases hfind : Entries.find? name m.tables with
  | none => simp [hfind] at htable
  | some found =>
      obtain rfl : found = rows := by simpa [hfind] using htable
      exact h.marked name found (Entries.mem_of_find? hfind)

/-- Rows are put in with an `id`, and no row loses the one that it has. -/
theorem answer_tables_kept {q : Query} (h : m.tables.Kept) (hq : q.OnTables) :
    (m.answer q).2.tables.Kept := by
  cases q with
  | setMode mode => exact hq.elim
  | commit => exact hq.elim
  | rollback => exact hq.elim
  | raw statement => exact h
  | insert name row =>
      refine h.insert ((marked_rows h name).append ?_)
      exact List.forall_mem_singleton.mpr (contains_assignId m.lastId row)
  | insertBulk name rows =>
      exact h.insert ((marked_rows h name).append (marked_assignIds m.lastId rows))
  | getAll name filters limit offset sort | getSingle name filters =>
      rw [answer]
      cases m.table name <;> exact h
  | update name filters fields =>
      rw [answer]
      cases htable : m.table name with
      | error e => exact h
      | ok rows =>
          refine h.insert fun row hrow => ?_
          obtain ⟨old, hold, rfl⟩ := List.mem_map.mp hrow
          have hid := marked_of_table h htable old hold
          split
          · exact Entries.contains_union hid fields
          · exact hid
  | delete name filters =>
      rw [answer]
      cases htable : m.table name with
      | error e => exact h
      | ok rows =>
          exact h.insert fun row hrow =>
            marked_of_table h htable row (List.mem_of_mem_filter hrow)

/-- **No question takes an `id` away**, neither from what is stored nor from what is remembered. -/
theorem Kept.answer (h : m.Kept) (q : Query) : (m.answer q).2.Kept := by
  have honTables : q.OnTables → (m.answer q).2.Kept := fun hq =>
    ⟨answer_tables_kept h.tables hq, answer_snapshot hq m ▸ h.remembered⟩
  cases q with
  | setMode mode =>
      cases mode with
      | normal => exact .of_closed h.tables rfl
      | transaction =>
          rw [Memory.answer]
          cases m.mode with
          | transaction => exact h
          | normal => exact ⟨h.tables, fun tables hsame => Option.some.inj hsame ▸ h.tables⟩
  | commit =>
      rw [Memory.answer]
      cases m.snapshot with
      | none => exact h
      | some _ => exact .of_closed h.tables rfl
  | rollback =>
      rw [Memory.answer]
      cases hsnapshot : m.snapshot with
      | none => exact h
      | some tables => exact .of_closed (h.remembered tables hsnapshot) rfl
  | _ => exact honTables trivial

/-! ### Seeds -/

/-- Whatever is filled in, its rows have an `id`. -/
theorem seedTables_kept (seed : List (String × Json)) {m m' : Memory}
    (hseeded : seedTables m seed = .ok m') (h : m.tables.Kept) : m'.tables.Kept := by
  induction seed generalizing m with
  | nil => exact Except.ok.inj hseeded ▸ h
  | cons t rest ih =>
      exact ih (seedTables_cons hseeded) (h.insert (marked_assignIds m.lastId (seedTable t)))

theorem ofSeed_kept {seed : Json} (h : ofSeed seed = .ok m) : m.Kept := by
  cases seed with
  | obj tables => exact .of_closed (seedTables_kept tables h .nil) (ofSeed_stands h).snapshot
  | _ => simp [ofSeed] at h

/-- The tables of a database as one object. -/
def dump (m : Memory) : Json := .obj (Entries.mapValues rowsValue m.tables)

theorem seedRows_map (name : String) (rows : List Row) :
    seedRows name (rows.map rowValue) = .ok rows := by
  induction rows with
  | nil => rfl
  | cons row rest ih =>
      rw [List.map_cons, rowValue, seedRows, ih]
      rfl

/-- Tables whose rows have an `id` are filled in as they are. -/
theorem seedTables_of_marked (tables : Tables)
    (h : ∀ name rows, (name, rows) ∈ tables → Marked rows) (m : Memory) :
    ∃ m', seedTables m (Entries.mapValues rowsValue tables) = .ok m' ∧
      m'.tables = Entries.union m.tables tables := by
  induction tables generalizing m with
  | nil => exact ⟨m, rfl, rfl⟩
  | cons table rest ih =>
      obtain ⟨name, rows⟩ := table
      obtain ⟨m', hseeded, htables⟩ := ih
        (fun other others hmem => h other others (List.mem_cons_of_mem _ hmem)) (m.fill name rows)
      have hfill : (m.fill name rows).tables = Entries.insert name rows m.tables := by
        rw [fill, assignIds_of_marked m.lastId (h name rows List.mem_cons_self)]
      rw [hfill] at htables
      refine ⟨m', ?_, htables⟩
      rw [Entries.mapValues, List.map_cons, rowsValue, seedTables, seedRows_map]
      exact hseeded

theorem Kept.ofSeed_dump (h : m.Kept) : ∃ m', ofSeed m.dump = .ok m' ∧ m'.tables = m.tables := by
  obtain ⟨m', hseeded, htables⟩ := seedTables_of_marked m.tables h.tables.marked {}
  exact ⟨m', hseeded, htables.trans (Entries.ofList_eq h.tables.sorted)⟩

end Memory

namespace History

variable {h : History}

theorem Leaves.kept (hm : h.Leaves m) : m.Kept := by
  induction hm with
  | new => exact .of_closed .nil rfl
  | seeded hseed => exact Memory.ofSeed_kept hseed
  | asked _ q ih => exact ih.answer q

/-- **A database comes back from its own tables.**  Whatever it was filled in with and whatever it
was asked, every row that is stored has an `id`, and a new database that is filled in with the
object of its tables has the same tables: those without rows, and the same rows in the same order
with the same values. -/
theorem Leaves.reloads (hm : h.Leaves m) :
    (∀ name rows, Entries.find? name m.tables = some rows →
      ∀ row ∈ rows, ∃ v, Entries.find? "id" row = some v) ∧
    ∃ m', Memory.ofSeed m.dump = .ok m' ∧ m'.tables = m.tables := by
  refine ⟨fun name rows hrows row hrow => ?_, hm.kept.ofSeed_dump⟩
  have hmarked := hm.kept.tables.marked name rows (Entries.mem_of_find? hrows)
  exact Entries.contains_iff.mp (hmarked row hrow)

/-- A table is begun and emptied again, an `id` is overwritten with a text, and what is put in later
is rolled back. -/
theorem Leaves.reloads_overwritten :
    ∃ h m m', Leaves h m ∧
      m.tables = [("log", []), ("users", [[("id", .str "a-1"), ("name", .str "ada")]])] ∧
      Memory.ofSeed m.dump = .ok m' ∧ m'.tables = m.tables := by
  have hseed : Memory.ofSeed (.obj [("users", .arr [.obj Memory.ada])]) = .ok .seeded := rfl
  have hemptied := ((Leaves.seeded hseed).asked (.insert "log" [])).asked (.delete "log" [])
  have hwritten := hemptied.asked (.update "users" [] [("id", .str "a-1")])
  have hleaves := ((hwritten.asked (.setMode .transaction)).asked (.insert "users" [])).asked
    .rollback
  obtain ⟨-, m', hseeded, htables⟩ := hleaves.reloads
  exact ⟨_, _, m', hleaves, rfl, hseeded, htables⟩

end History

end FlowGraph.Store
