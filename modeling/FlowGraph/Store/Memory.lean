/-
A database in memory.

Tables come into being with the first row that is put in.  A row without an `id` is given
the next one: a counter that is never behind the greatest natural `id` that was seen.

When a transaction is opened the tables are remembered, and `rollback` puts them back.
Commit and rollback close the transaction but leave the mode as it is; to leave the mode
is a question of its own.  A rollback leaves the counter as it is.

Rows are sorted by values of any kind, and not all of these can be compared with one another.
What a routine does that sorts by such comparisons is its own affair: it may give the rows in
any order, or give up.  So rows are read with a routine that is handed over.  Questions are
answered with one that never gives up.
-/
import FlowGraph.Store.Query

namespace FlowGraph.Store

/-- Tables of rows, in the order of their insertion. -/
abbrev Tables := Entries (List Row)

structure Memory where
  tables : Tables := []
  mode : Mode := .normal
  /-- The tables as they were when the transaction was opened. -/
  snapshot : Option Tables := none
  /-- The last `id` that was given or seen. -/
  lastId : Nat := 0

namespace Memory

/-- The `id` after another.  Counting has 64 bits and starts again at zero. -/
def nextId (last : Nat) : Nat := (last + 1) % 18446744073709551616

/-- The row with an `id`, and the counter behind it. -/
def assignId (last : Nat) (row : Row) : Row × Nat :=
  match Entries.find? "id" row with
  | some v =>
    match v.natural? with
    | some id => (row, max last id)
    | none => (row, last)
  | none => (Entries.insert "id" (Json.nat (nextId last)) row, nextId last)

/-- Rows with their `id`s, from the first one on. -/
def assignIds (last : Nat) : List Row → List Row × Nat
  | [] => ([], last)
  | row :: rest =>
    let (row, last) := assignId last row
    let (rows, last) := assignIds last rest
    (row :: rows, last)

/-- The value of a column, or `null`. -/
def cell (row : Row) (column : String) : Json := (Entries.find? column row).getD .null

/-- The row meets the filters. -/
def meets (filters : List Filter) (row : Row) : Bool :=
  Chain.resolve (filters.map fun f => (f.operator.holds (cell row f.column) f.value, f.chain))

/-- How two rows are ordered.  Rows that have no order are equal. -/
def compareRows (s : SortBy) (a b : Row) : Ordering :=
  let order := (Json.looseOrder (cell a s.column) (cell b s.column)).getD .eq
  match s.direction with
  | .ascending => order
  | .descending => order.swap

/-- Put an element among others that stand from the last one to the first: past those that it
comes before, up to the first that it does not. -/
def putBack {α : Type} (order : α → α → Ordering) (x : α) : List α → List α
  | [] => [x]
  | last :: rest =>
    if order x last = .lt then last :: putBack order x rest else x :: last :: rest

/-- A list in an order, put together one by one from its first element on.  Elements neither of
which comes before the other stay as they are. -/
def inOrder {α : Type} (order : α → α → Ordering) (xs : List α) : List α :=
  (xs.foldl (fun placed x => putBack order x placed) []).reverse

/-- A routine that sorts rows by comparing them.  Whatever it may do but give them back is in the
monad. -/
abbrev Sorting (μ : Type → Type) := (Row → Row → Ordering) → List Row → μ (List Row)

/-- Sorting that always gives the rows back. -/
def insertion : Sorting Id := inOrder

/-- The rows in an order, if one is asked for. -/
def sortRows {μ : Type → Type} [Monad μ] (sorting : Sorting μ) (sort : Option SortBy)
    (rows : List Row) : μ (List Row) :=
  match sort with
  | some s => sorting (compareRows s) rows
  | none => pure rows

/-- A part of some rows. -/
def page (limit offset : Option Nat) (rows : List Row) : List Row :=
  let rest := rows.drop (offset.getD 0)
  match limit with
  | some n => rest.take n
  | none => rest

/-- A row as a value. -/
def rowValue (row : Row) : Json := .obj row

/-- Rows as a value. -/
def rowsValue (rows : List Row) : Json := .arr (rows.map rowValue)

/-- The rows of a table. -/
def table (m : Memory) (name : String) : Except Fault (List Row) :=
  match Entries.find? name m.tables with
  | some rows => .ok rows
  | none => .error (.tableNotFound name)

/-- The rows of a table; none if there is no such table. -/
def rows (m : Memory) (name : String) : List Row := (Entries.find? name m.tables).getD []

/-- Put rows behind those of a table. -/
def append (m : Memory) (name : String) (rows : List Row) (lastId : Nat) : Memory :=
  { m with tables := Entries.insert name (m.rows name ++ rows) m.tables, lastId := lastId }

/-- Read the rows of a table that meet the filters, a part of them and in an order. -/
def getAll {μ : Type → Type} [Monad μ] (sorting : Sorting μ) (name : String) (filters : List Filter)
    (limit offset : Option Nat) (sort : Option SortBy) (m : Memory) : μ (Except Fault Json) :=
  match m.table name with
  | .error e => return .error e
  | .ok rows => do
    let sorted ← sortRows sorting sort (rows.filter (meets filters))
    return .ok (rowsValue (page limit offset sorted))

/-- Answer a question. -/
def answer (q : Query) (m : Memory) : Except Fault Json × Memory :=
  match q with
  | .getAll name filters limit offset sort =>
    ((m.getAll insertion name filters limit offset sort).run, m)
  | .getSingle name filters =>
    match m.table name with
    | .error e => (.error e, m)
    | .ok rows => (.ok (((rows.find? (meets filters)).map rowValue).getD .null), m)
  | .insert name row =>
    let (row, lastId) := assignId m.lastId row
    (.ok (rowValue row), m.append name [row] lastId)
  | .insertBulk name rows =>
    let (rows, lastId) := assignIds m.lastId rows
    (.ok (rowsValue rows), m.append name rows lastId)
  | .update name filters row =>
    match m.table name with
    | .error e => (.error e, m)
    | .ok rows =>
      let changed := rows.map fun r => if meets filters r then Entries.union r row else r
      (.ok (Json.nat (rows.filter (meets filters)).length),
        { m with tables := Entries.insert name changed m.tables })
  | .delete name filters =>
    match m.table name with
    | .error e => (.error e, m)
    | .ok rows =>
      let kept := rows.filter fun r => !meets filters r
      (.ok (Json.nat (rows.length - kept.length)),
        { m with tables := Entries.insert name kept m.tables })
  | .raw statement =>
    (.error (.invalidQuery ("raw queries are not supported by the in-memory store: " ++ statement)), m)
  | .setMode .transaction =>
    match m.mode with
    | .transaction => (.error (.transaction "transaction already open"), m)
    | .normal => (.ok .null, { m with mode := .transaction, snapshot := some m.tables })
  | .setMode .normal => (.ok .null, { m with mode := .normal, snapshot := none })
  | .commit =>
    match m.snapshot with
    | some _ => (.ok .null, { m with snapshot := none })
    | none => (.error (.transaction "no open transaction"), m)
  | .rollback =>
    match m.snapshot with
    | some tables => (.ok .null, { m with tables := tables, snapshot := none })
    | none => (.error (.transaction "no open transaction"), m)

instance : Database Memory := ⟨answer⟩

/-! ### Filling a database -/

/-- The rows of a table that should be filled in. -/
def seedRows (name : String) : List Json → Except Fault (List Row)
  | [] => .ok []
  | .obj row :: rest => (seedRows name rest).map (row :: ·)
  | _ :: _ => .error (.invalidQuery ("seed rows of " ++ name ++ " must be objects"))

/-- Fill in tables, one after the other. -/
def seedTables (m : Memory) : List (String × Json) → Except Fault Memory
  | [] => .ok m
  | (name, .arr items) :: rest =>
    match seedRows name items with
    | .error e => .error e
    | .ok rows =>
      let (rows, lastId) := assignIds m.lastId rows
      seedTables { m with tables := Entries.insert name rows m.tables, lastId := lastId } rest
  | (name, _) :: _ => .error (.invalidQuery ("seed table " ++ name ++ " must be an array"))

/-- A database from its tables, given as one object. -/
def ofSeed : Json → Except Fault Memory
  | .obj tables => seedTables {} tables
  | _ => .error (.invalidQuery "seed must be an object of tables")

end Memory

end FlowGraph.Store
