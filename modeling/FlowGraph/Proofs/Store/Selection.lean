/-
One selection of rows.

Four questions walk the rows of a table with filters, and each in its own way: one collects rows,
one stops at the first, one throws away what it meets, and one writes into it.  They mean the same
rows, those that satisfy the filters, and `answer_selects` says what each of them makes of these.

What a question does besides is said by `Rewrites`: one table has other rows, and there is nothing
else.
-/
import FlowGraph.Proofs.Condition.Chains
import FlowGraph.Proofs.Entries

namespace FlowGraph.Store

/-- A row is another one, overwritten with fields. -/
structure Row.Overwritten (fields old new : Row) : Prop where
  find? : ∀ column, Entries.find? column new
    = (Entries.find? column fields).or (Entries.find? column old)
  sorted : Entries.Sorted old → Entries.Sorted new

theorem Row.overwritten_union {fields : Row} (h : (Entries.keys fields).Nodup) (old : Row) :
    Row.Overwritten fields old (Entries.union old fields) :=
  ⟨fun _ => Entries.find?_union h, fun hold => hold.union fields⟩

namespace Memory

/-- One table of a database has other rows, and the rest is as it was. -/
structure Rewrites (m : Memory) (name : String) (rows : List Row) (m' : Memory) : Prop where
  table : Entries.find? name m'.tables = some rows
  others : ∀ other, other ≠ name → Entries.find? other m'.tables = Entries.find? other m.tables
  mode : m'.mode = m.mode
  snapshot : m'.snapshot = m.snapshot
  lastId : m'.lastId = m.lastId

variable {m : Memory} {name : String} {rows : List Row}

theorem rewrites_insert (m : Memory) (name : String) (rows : List Row) :
    m.Rewrites name rows { m with tables := Entries.insert name rows m.tables } :=
  ⟨Entries.find?_insert_self _, fun _ hother => Entries.find?_insert_ne _ hother, rfl, rfl, rfl⟩

theorem rowsValue_injective : Function.Injective rowsValue := fun _ _ h =>
  List.map_injective_iff.mpr (fun _ _ => Json.obj.inj) (Json.arr.inj h)

theorem table_ok (h : Entries.find? name m.tables = some rows) : m.table name = .ok rows := by
  rw [table, h]

/-- Without filters all rows are meant. -/
theorem filter_unfiltered (rows : List Row) : rows.filter (Satisfies [] ·) = rows :=
  List.filter_eq_self.mpr fun _ _ => decide_eq_true (Or.inl rfl)

/-- Reading a table sorts the rows that satisfy the filters, in whatever way rows are sorted. -/
theorem getAll_eq {μ : Type → Type} [Monad μ] (sorting : Sorting μ)
    (h : Entries.find? name m.tables = some rows) (filters : List Filter)
    (limit offset : Option Nat) (sort : Option SortBy) :
    m.getAll sorting name filters limit offset sort
      = (do
          let sorted ← sortRows sorting sort (rows.filter (Satisfies filters ·))
          return .ok (rowsValue (page limit offset sorted))) := by
  rw [getAll, table_ok h, meets_eq]

theorem answer_getAll (h : Entries.find? name m.tables = some rows) (filters : List Filter)
    (limit offset : Option Nat) (sort : Option SortBy) :
    m.answer (.getAll name filters limit offset sort)
      = (.ok (rowsValue (page limit offset
          (sortRows insertion sort (rows.filter (Satisfies filters ·))).run)), m) := by
  rw [answer, getAll_eq insertion h]
  rfl

theorem answer_getSingle (h : Entries.find? name m.tables = some rows) (filters : List Filter) :
    m.answer (.getSingle name filters)
      = (.ok (((rows.filter (Satisfies filters ·)).head?.map rowValue).getD .null), m) := by
  rw [answer, table_ok h, meets_eq, List.head?_filter]

theorem answer_delete (h : Entries.find? name m.tables = some rows) (filters : List Filter) :
    ∃ m', m.answer (.delete name filters)
        = (.ok (Json.nat (rows.filter (Satisfies filters ·)).length), m') ∧
      m.Rewrites name (rows.filter (¬ Satisfies filters ·)) m' := by
  have hcount := rows.length_eq_length_filter_add (Satisfies filters ·)
  rw [answer, table_ok h, meets_eq]
  simp only [decide_not]
  refine ⟨_, Prod.ext (congrArg (Except.ok ∘ Json.nat) ?_) rfl, rewrites_insert _ _ _⟩
  omega

theorem answer_update (h : Entries.find? name m.tables = some rows) (filters : List Filter)
    (fields : Row) :
    ∃ m', m.answer (.update name filters fields)
        = (.ok (Json.nat (rows.filter (Satisfies filters ·)).length), m') ∧
      m.Rewrites name
        (rows.map fun row => if Satisfies filters row then Entries.union row fields else row)
        m' := by
  rw [answer, table_ok h, meets_eq]
  simp only [decide_eq_true_eq]
  exact ⟨_, rfl, rewrites_insert _ _ _⟩

/-- **All questions with the same filters mean the same rows**: those of the table that satisfy
them, in the order in which they are stored.  Reading finds them, or the first of them, and changes
nothing.  Deleting and updating count them, and take them away or overwrite them where they
stand. -/
theorem answer_selects (h : Entries.find? name m.tables = some rows) (filters : List Filter) :
    let selected := rows.filter (Satisfies filters ·)
    m.answer (.getAll name filters none none none) = (.ok (rowsValue selected), m) ∧
      m.answer (.getSingle name filters)
        = (.ok ((selected.head?.map rowValue).getD .null), m) ∧
      (∀ limit offset sort, (m.answer (.getAll name filters limit offset sort)).2 = m) ∧
      (∃ m', m.answer (.delete name filters) = (.ok (Json.nat selected.length), m') ∧
        m.Rewrites name (rows.filter (¬ Satisfies filters ·)) m') ∧
      ∀ fields, (Entries.keys fields).Nodup →
        ∃ m' changed, m.answer (.update name filters fields)
            = (.ok (Json.nat selected.length), m') ∧
          m.Rewrites name changed m' ∧
          List.Forall₂ (fun old new => (Satisfies filters old → Row.Overwritten fields old new) ∧
            (¬ Satisfies filters old → new = old)) rows changed := by
  refine ⟨answer_getAll h filters none none none, answer_getSingle h filters,
    fun limit offset sort => congrArg Prod.snd (answer_getAll h filters limit offset sort),
    answer_delete h filters, fun fields hfields => ?update⟩
  obtain ⟨m', hanswer, hrewrites⟩ := answer_update h filters fields
  refine ⟨m', _, hanswer, hrewrites, ?_⟩
  rw [List.forall₂_map_right_iff, List.forall₂_same]
  intro row _
  split
  · rename_i hrow
    exact ⟨fun _ => Row.overwritten_union hfields row, fun hnot => absurd hrow hnot⟩
  · rename_i hrow
    exact ⟨fun hsat => absurd hsat hrow, fun _ => rfl⟩

/-- A row with a name and an age. -/
def aged (name : String) (age : Int) : Row := [("age", .int age), ("name", .str name)]

/-- Users, and tags that nobody asks for. -/
def staff : Memory :=
  { tables :=
      [("tags", [[("t", .str "a")]]),
       ("users", [aged "ada" 36, aged "alan" 41, aged "grace" 85])],
    lastId := 3 }

/-- Who is older than forty. -/
def older : List Filter := [⟨"age", .gt, .int 40, .and⟩]

theorem answer_selects_staff :
    Entries.find? "users" staff.tables = some [aged "ada" 36, aged "alan" 41, aged "grace" 85] ∧
      (Entries.keys [("senior", Json.bool true)]).Nodup ∧
      staff.answer (.getSingle "users" older) = (.ok (rowValue (aged "alan" 41)), staff) ∧
      ∃ m' changed, staff.answer (.update "users" older [("senior", .bool true)])
          = (.ok (Json.nat 2), m') ∧
        Entries.find? "users" m'.tables = some (aged "ada" 36 :: changed) ∧
        Entries.find? "tags" m'.tables = some [[("t", .str "a")]] := by
  have hada : ¬ Satisfies older (aged "ada" 36) := by decide +kernel
  have halan : Satisfies older (aged "alan" 41) := by decide +kernel
  have hgrace : Satisfies older (aged "grace" 85) := by decide +kernel
  have hselected : [aged "ada" 36, aged "alan" 41, aged "grace" 85].filter (Satisfies older ·)
      = [aged "alan" 41, aged "grace" 85] := by
    simp [hada, halan, hgrace]
  have htable : Entries.find? "users" staff.tables
      = some [aged "ada" 36, aged "alan" 41, aged "grace" 85] := rfl
  have hnodup : (Entries.keys [("senior", Json.bool true)]).Nodup := by decide
  obtain ⟨-, hsingle, -, -, hupdate⟩ := answer_selects htable older
  obtain ⟨m', changed, hanswer, hrewrites, hrows⟩ := hupdate [("senior", .bool true)] hnodup
  rw [hselected] at hsingle hanswer
  cases hrows with
  | @cons _ first _ rest hfirst hrest =>
      obtain rfl := hfirst.2 hada
      exact ⟨htable, hnodup, hsingle, m', rest, hanswer, hrewrites.table,
        (hrewrites.others "tags" (by decide)).trans rfl⟩

end Memory

end FlowGraph.Store
