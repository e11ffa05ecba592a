/-
The ids that a database in memory gives.

A row that is put in without an `id` gets the number after the counter, so the number is new as
long as the counter is behind no number that is stored.  `Known` says how far that is so.
The counter follows the rows that are put in, one by one, and a rollback does not set it back.
It does not follow what an update writes into rows that are there: a number that comes from an
update may be ahead of the counter, and the counter will reach it.  It has an end, too, after
which it starts again.  Those are the ways in which a number that is given can be taken.

Within a seed the rows are numbered from the first one on, so the number of a row is new among
the rows before it.  A row behind it may have come with the same number.
-/
import FlowGraph.Proofs.Store.Transaction
import FlowGraph.Proofs.Entries

namespace FlowGraph.Store

variable {row : Row} {rows before rest put written : List Row} {last n : Nat}

/-- The row has a number as its `id`. -/
def Row.HasId (row : Row) (n : Nat) : Prop := Entries.find? "id" row = some (Json.nat n)

/-! ### The counter -/

/-- How many numbers there are. -/
def numbers : Nat := 18446744073709551616

/-- The counter behind a row, if it had no end. -/
def Row.count (last : Nat) (row : Row) : Nat :=
  match Entries.find? "id" row with
  | some v => max last (v.natural?.getD 0)
  | none => last + 1

/-- The counter behind some rows, if it had no end. -/
def counted (last : Nat) (rows : List Row) : Nat := rows.foldl Row.count last

theorem Row.le_count (last : Nat) (row : Row) : last ≤ row.count last := by
  rw [Row.count]
  split
  · exact Nat.le_max_left ..
  · exact Nat.le_succ last

theorem Row.HasId.le_count (h : row.HasId n) (last : Nat) : n ≤ row.count last := by
  rw [Row.HasId] at h
  rw [Row.count, h]
  exact Nat.le_max_right ..

theorem le_counted (last : Nat) (rows : List Row) : last ≤ counted last rows := by
  induction rows generalizing last with
  | nil => exact Nat.le_refl last
  | cons row rows ih => exact Nat.le_trans (row.le_count last) (ih _)

theorem counted_cons (last : Nat) (row : Row) (rows : List Row) :
    counted last (row :: rows) = counted (row.count last) rows := rfl

theorem counted_append (last : Nat) (rows rows' : List Row) :
    counted last (rows ++ rows') = counted (counted last rows) rows' := by
  rw [counted, List.foldl_append]
  rfl

/-- The counter behind rows without an end to it is behind each beginning of them. -/
theorem counted_le_append (last : Nat) (rows rows' : List Row) :
    counted last rows ≤ counted last (rows ++ rows') := by
  rw [counted_append]
  exact le_counted _ _

/-! ### Questions -/

/-- The table that a question puts rows into, and the rows. -/
def Query.puts : Query → Option (String × List Row)
  | .insert name row => some (name, [row])
  | .insertBulk name rows => some (name, rows)
  | _ => none

/-- The rows that a question puts in. -/
def Query.putRows (q : Query) : List Row := (q.puts.map Prod.snd).getD []

/-- The row whose columns a question writes into rows that are there. -/
def Query.writtenRows : Query → List Row
  | .update _ _ row => [row]
  | _ => []

namespace Memory

/-! ### Rows that are put in -/

theorem assignId_snd (h : row.count last < numbers) : (assignId last row).2 = row.count last := by
  rw [Row.count] at *
  rw [assignId]
  cases hid : Entries.find? "id" row with
  | none =>
      rw [hid] at h
      exact Nat.mod_eq_of_lt h
  | some v => cases hv : v.natural? <;> simp [hv]

/-- A row that has no `id` gets the number after the counter. -/
theorem assignId_none (hid : Entries.find? "id" row = none) (h : row.count last < numbers) :
    (assignId last row).1 = Entries.insert "id" (Json.nat (last + 1)) row := by
  rw [Row.count, hid] at h
  have hnext : nextId last = last + 1 := Nat.mod_eq_of_lt h
  rw [assignId, hid, hnext]

/-- A row that has an `id` keeps it. -/
theorem assignId_some {v : Json} (hid : Entries.find? "id" row = some v) :
    (assignId last row).1 = row := by
  rw [assignId, hid]
  cases hv : v.natural? <;> simp [hv]

theorem hasId_insert {k : Nat} : Row.HasId (Entries.insert "id" (Json.nat k) row) n ↔ n = k := by
  rw [Row.HasId, Entries.find?_insert_self, Json.nat, Json.nat]
  simp only [Option.some.injEq, Json.number.injEq, Number.int.injEq, Int.ofNat_inj]
  exact eq_comm

/-- The counter is not behind the number of a row that was put in. -/
theorem assignId_le (h : row.count last < numbers) (hn : Row.HasId (assignId last row).1 n) :
    n ≤ row.count last := by
  cases hid : Entries.find? "id" row with
  | none =>
      rw [assignId_none hid h, hasId_insert] at hn
      simp only [hn, Row.count, hid, Nat.le_refl]
  | some v =>
      rw [assignId_some hid] at hn
      exact hn.le_count last

/-- A number that the counter has passed was not given. -/
theorem assignId_of_le (h : row.count last < numbers) (hn : Row.HasId (assignId last row).1 n)
    (hle : n ≤ last) : (assignId last row).1 = row := by
  cases hid : Entries.find? "id" row with
  | none =>
      rw [assignId_none hid h, hasId_insert] at hn
      omega
  | some v => exact assignId_some hid

theorem assignIds_cons (last : Nat) (row : Row) (rows : List Row) :
    assignIds last (row :: rows)
      = ((assignId last row).1 :: (assignIds (assignId last row).2 rows).1,
          (assignIds (assignId last row).2 rows).2) := rfl

theorem assignIds_append (last : Nat) (rows rows' : List Row) :
    assignIds last (rows ++ rows')
      = ((assignIds last rows).1 ++ (assignIds (assignIds last rows).2 rows').1,
          (assignIds (assignIds last rows).2 rows').2) := by
  induction rows generalizing last with
  | nil => rfl
  | cons row rows ih => rw [List.cons_append, assignIds_cons, ih, assignIds_cons]; rfl

theorem length_assignIds (last : Nat) (rows : List Row) :
    (assignIds last rows).1.length = rows.length := by
  induction rows generalizing last with
  | nil => rfl
  | cons row rows ih => rw [assignIds_cons, List.length_cons, ih, List.length_cons]

theorem assignIds_snd (h : counted last rows < numbers) :
    (assignIds last rows).2 = counted last rows := by
  induction rows generalizing last with
  | nil => rfl
  | cons row rows ih =>
      have hrow : row.count last < numbers := Nat.lt_of_le_of_lt (le_counted _ rows) h
      rw [assignIds_cons, assignId_snd hrow]
      exact ih h

/-- The counter is not behind any number of rows that were put in. -/
theorem assignIds_le (h : counted last rows < numbers) :
    ∀ r ∈ (assignIds last rows).1, r.HasId n → n ≤ counted last rows := by
  induction rows generalizing last with
  | nil => intro r hr; simp [assignIds] at hr
  | cons row rows ih =>
      have hrow : row.count last < numbers := Nat.lt_of_le_of_lt (le_counted _ rows) h
      intro r hr hn
      rw [assignIds_cons, assignId_snd hrow] at hr
      rcases List.mem_cons.mp hr with rfl | hr
      · exact Nat.le_trans (assignId_le hrow hn) (le_counted _ rows)
      · exact ih h r hr hn

/-- A number that the counter has passed before came with its row. -/
theorem mem_of_assignIds_le (h : counted last rows < numbers) :
    ∀ r ∈ (assignIds last rows).1, r.HasId n → n ≤ last → r ∈ rows := by
  induction rows generalizing last with
  | nil => intro r hr; simp [assignIds] at hr
  | cons row rows ih =>
      have hrow : row.count last < numbers := Nat.lt_of_le_of_lt (le_counted _ rows) h
      intro r hr hn hle
      rw [assignIds_cons, assignId_snd hrow] at hr
      rcases List.mem_cons.mp hr with rfl | hr
      · exact List.mem_cons.mpr (Or.inl (assignId_of_le hrow hn hle))
      · exact List.mem_cons_of_mem _ (ih h r hr hn (Nat.le_trans hle (row.le_count last)))

/-- Among rows that are put in, one without an `id` gets a number that the counter comes to there.
The rows before it have other numbers, and a row behind it that has this one has come with it. -/
theorem exists_given (hid : Entries.find? "id" row = none)
    (h : counted last (before ++ [row]) < numbers) (rest : List Row) :
    ∃ n earlier later, (assignIds last (before ++ row :: rest)).1
        = earlier ++ Entries.insert "id" (Json.nat n) row :: later ∧
      earlier.length = before.length ∧ last < n ∧ (∀ r ∈ earlier, ¬ r.HasId n) ∧
      (counted last (before ++ row :: rest) < numbers → ∀ r ∈ later, Row.HasId r n → r ∈ rest) := by
  have hbefore : counted last before < numbers :=
    Nat.lt_of_le_of_lt (counted_le_append ..) h
  have hrow : row.count (counted last before) < numbers := by
    rwa [counted_append, counted_cons] at h
  have hcount : row.count (counted last before) = counted last before + 1 := by
    rw [Row.count, hid]
  refine ⟨counted last before + 1, (assignIds last before).1,
    (assignIds (counted last before + 1) rest).1, ?_, length_assignIds last before,
    Nat.lt_succ_of_le (le_counted last before), ?_, ?_⟩
  · rw [assignIds_append, assignIds_snd hbefore, assignIds_cons, assignId_none hid hrow,
      assignId_snd hrow, hcount]
  · intro r hr hn
    exact Nat.not_succ_le_self _ (assignIds_le hbefore r hr hn)
  · intro hall r hr hn
    rw [counted_append, counted_cons, hcount] at hall
    exact mem_of_assignIds_le hall r hr hn (Nat.le_refl _)

/-! ### Rows that are stored -/

/-- A number that the row has is not ahead of the counter, or it was written. -/
def Traced (last : Nat) (written : List Row) (r : Row) : Prop :=
  ∀ n, r.HasId n → n ≤ last ∨ ∃ w ∈ written, ("id", Json.nat n) ∈ w

/-- The rows of all tables are traced. -/
def Known (tables : Tables) (last : Nat) (written : List Row) : Prop :=
  ∀ name, ∀ r ∈ (Entries.find? name tables).getD [], Traced last written r

/-- What holds of a database as long as the numbers last. -/
structure Counts (m : Memory) (put written : List Row) : Prop where
  last : m.lastId = counted 0 put
  tables : Known m.tables m.lastId written
  /-- A rollback brings no number back that the counter has not passed. -/
  snapshot : ∀ tables, m.snapshot = some tables → Known tables m.lastId written

variable {m m' : Memory} {tables : Tables} {last' : Nat} {written' : List Row} {name : String}

theorem Traced.mono {r : Row} (h : Traced last written r) (hlast : last ≤ last')
    (hwritten : written ⊆ written') : Traced last' written' r := by
  intro n hn
  rcases h n hn with hle | ⟨w, hw, hmem⟩
  · exact Or.inl (Nat.le_trans hle hlast)
  · exact Or.inr ⟨w, hwritten hw, hmem⟩

/-- What is written into a row is what was written. -/
theorem Traced.union {r : Row} (h : Traced last written r) (hrow : row ∈ written) :
    Traced last written (Entries.union r row) := by
  intro n hn
  rcases Entries.find?_union_some hn with hfound | hmem
  · exact h n hfound
  · exact Or.inr ⟨row, hrow, hmem⟩

theorem known_nil (last : Nat) (written : List Row) : Known [] last written := by
  intro name r hr
  simp at hr

theorem Known.mono (h : Known tables last written) (hlast : last ≤ last')
    (hwritten : written ⊆ written') : Known tables last' written' :=
  fun name r hr => (h name r hr).mono hlast hwritten

theorem Known.insert (h : Known tables last written) (hrows : ∀ r ∈ rows, Traced last written r) :
    Known (Entries.insert name rows tables) last written := by
  intro other r hr
  rw [Entries.find?_insert] at hr
  split at hr
  · exact hrows r hr
  · exact h other r hr

theorem Known.table (h : Known m.tables last written) (htable : m.table name = .ok rows) :
    ∀ r ∈ rows, Traced last written r := by
  intro r hr
  refine h name r ?_
  rw [Memory.table] at htable
  cases hfound : Entries.find? name m.tables with
  | none =>
      rw [hfound] at htable
      exact nomatch htable
  | some found =>
      rw [hfound] at htable
      cases htable
      exact hr

theorem counts_new : Counts {} [] [] :=
  ⟨rfl, known_nil 0 [], nofun⟩

theorem Counts.wrote (h : m.Counts put written) (hwritten : written ⊆ written') :
    m.Counts put written' :=
  ⟨h.last, h.tables.mono (Nat.le_refl _) hwritten,
    fun tables htables => (h.snapshot tables htables).mono (Nat.le_refl _) hwritten⟩

/-- The tables are exchanged for tables of which the same holds. -/
theorem Counts.changed (h : m.Counts put written) (htables : Known tables m.lastId written)
    {snapshot : Option Tables}
    (hsnapshot : ∀ tables, snapshot = some tables → Known tables m.lastId written) (mode : Mode) :
    Counts { m with tables := tables, snapshot := snapshot, mode := mode } put written :=
  ⟨h.last, htables, hsnapshot⟩

/-- The same, and no tables are remembered any more. -/
theorem Counts.closed (h : m.Counts put written) (htables : Known tables m.lastId written)
    (mode : Mode) :
    Counts { m with tables := tables, snapshot := none, mode := mode } put written :=
  ⟨h.last, htables, nofun⟩

/-- Rows are numbered and put behind rows of which the same holds. -/
theorem Counts.append (h : m.Counts put written) (hcount : counted 0 (put ++ rows) < numbers)
    {stored : List Row} (hstored : ∀ r ∈ stored, Traced m.lastId written r) :
    Counts { m with
      tables := Entries.insert name (stored ++ (assignIds m.lastId rows).1) m.tables
      lastId := (assignIds m.lastId rows).2 } (put ++ rows) written := by
  rw [counted_append, ← h.last] at hcount
  have hle : m.lastId ≤ (assignIds m.lastId rows).2 := by
    rw [assignIds_snd hcount]
    exact le_counted _ rows
  have hmono : ∀ {ts}, Known ts m.lastId written → Known ts (assignIds m.lastId rows).2 written :=
    fun hts => hts.mono hle (List.Subset.refl _)
  refine ⟨?_, (hmono h.tables).insert ?_, fun tables htables => hmono (h.snapshot tables htables)⟩
  · rw [counted_append, ← h.last, assignIds_snd hcount]
  · intro r hr
    rcases List.mem_append.mp hr with hr | hr
    · exact (hstored r hr).mono hle (List.Subset.refl _)
    · intro n hn
      refine Or.inl ?_
      rw [assignIds_snd hcount]
      exact assignIds_le hcount r hr hn

theorem answer_of_puts {q : Query} (hq : q.puts = some (name, rows)) (m : Memory) :
    (m.answer q).2
      = m.append name (assignIds m.lastId rows).1 (assignIds m.lastId rows).2 := by
  cases q with
  | insert name' row =>
      obtain ⟨rfl, rfl⟩ := Prod.mk.inj (Option.some.inj hq)
      rfl
  | insertBulk name' rows' =>
      obtain ⟨rfl, rfl⟩ := Prod.mk.inj (Option.some.inj hq)
      rfl
  | _ => exact nomatch hq

/-- **Every question keeps the counter behind no number** but those that were written. -/
theorem Counts.answered (h : m.Counts put written) (q : Query)
    (hcount : counted 0 (put ++ q.putRows) < numbers) :
    (m.answer q).2.Counts (put ++ q.putRows) (written ++ q.writtenRows) := by
  have h' : m.Counts put (written ++ q.writtenRows) := h.wrote (List.subset_append_left ..)
  cases hq : q.puts with
  | some p =>
      obtain ⟨name, rows⟩ := p
      have hput : q.putRows = rows := by rw [Query.putRows, hq]; rfl
      rw [hput] at hcount
      rw [answer_of_puts hq, hput]
      exact h'.append hcount (h'.tables name)
  | none =>
      have hput : q.putRows = [] := by rw [Query.putRows, hq]; rfl
      rw [hput, List.append_nil]
      cases q with
      | insert name row => exact nomatch hq
      | insertBulk name rows => exact nomatch hq
      | raw statement => exact h'
      | getAll name filters limit offset sort =>
          rw [answer]
          cases m.table name <;> exact h'
      | getSingle name filters =>
          rw [answer]
          cases m.table name <;> exact h'
      | update name filters row =>
          rw [answer]
          cases htable : m.table name with
          | error e => exact h'
          | ok rows =>
              refine h'.changed (h'.tables.insert fun r hr => ?_) h'.snapshot _
              obtain ⟨old, hold, rfl⟩ := List.mem_map.mp hr
              have htraced := h'.tables.table htable old hold
              split
              · exact htraced.union (List.mem_append_right _ (List.mem_singleton.mpr rfl))
              · exact htraced
      | delete name filters =>
          rw [answer]
          cases htable : m.table name with
          | error e => exact h'
          | ok rows =>
              refine h'.changed (h'.tables.insert fun r hr => ?_) h'.snapshot _
              exact h'.tables.table htable r (List.mem_filter.mp hr).1
      | setMode mode =>
          cases mode with
          | normal => exact h'.closed h'.tables _
          | transaction =>
              rw [answer]
              cases m.mode with
              | transaction => exact h'
              | normal => exact h'.changed h'.tables (fun _ hs => Option.some.inj hs ▸ h'.tables) _
      | commit =>
          rw [answer]
          cases m.snapshot with
          | none => exact h'
          | some tables => exact h'.closed h'.tables _
      | rollback =>
          rw [answer]
          cases hs : m.snapshot with
          | none => exact h'
          | some tables => exact h'.closed (h'.snapshot tables hs) _

/-! ### Seeds -/

/-- The rows of one table of a seed. -/
def seedTable : String × Json → List Row
  | (name, .arr items) => (seedRows name items).toOption.getD []
  | _ => []

/-- The rows of a seed. -/
def seedPut (tables : List (String × Json)) : List Row := tables.flatMap seedTable

/-- Number rows and make a table of them. -/
def fill (m : Memory) (name : String) (rows : List Row) : Memory :=
  { m with
    tables := Entries.insert name (assignIds m.lastId rows).1 m.tables
    lastId := (assignIds m.lastId rows).2 }

theorem seedTables_cons {t : String × Json} {rest : List (String × Json)}
    (h : seedTables m (t :: rest) = .ok m') :
    seedTables (m.fill t.1 (seedTable t)) rest = .ok m' := by
  obtain ⟨name, value⟩ := t
  cases value with
  | arr items =>
      rw [seedTables] at h
      cases hrows : seedRows name items with
      | error e => simp [hrows] at h
      | ok rows =>
          have hseed : seedTable (name, .arr items) = rows := by
            rw [seedTable, hrows]
            rfl
          rw [hseed]
          simp only [hrows] at h
          exact h
  | _ => simp [seedTables] at h

theorem Counts.seeded {tables : List (String × Json)} (h : m.Counts put written)
    (hseed : seedTables m tables = .ok m') (hcount : counted 0 (put ++ seedPut tables) < numbers) :
    m'.Counts (put ++ seedPut tables) written := by
  induction tables generalizing m put with
  | nil =>
      cases hseed
      simpa [seedPut] using h
  | cons t rest ih =>
      rw [seedPut, List.flatMap_cons, ← List.append_assoc] at hcount ⊢
      have hfirst : counted 0 (put ++ seedTable t) < numbers :=
        Nat.lt_of_le_of_lt (counted_le_append ..) hcount
      have hnone : ∀ r ∈ ([] : List Row), Traced m.lastId written r := fun r hr => nomatch hr
      have hfilled : (m.fill t.1 (seedTable t)).Counts (put ++ seedTable t) written :=
        h.append hfirst hnone
      exact ih hfilled (seedTables_cons hseed) hcount

theorem rows_fill_self (m : Memory) (name : String) (rows : List Row) :
    (m.fill name rows).rows name = (assignIds m.lastId rows).1 := by
  rw [Memory.rows, fill, Entries.find?_insert_self]
  rfl

/-- Other tables of a seed leave a table as it is. -/
theorem rows_of_seedTables {tables : List (String × Json)} (h : seedTables m tables = .ok m')
    (hname : name ∉ Entries.keys tables) : m'.rows name = m.rows name := by
  induction tables generalizing m with
  | nil =>
      cases h
      rfl
  | cons t rest ih =>
      obtain ⟨hne, hrest⟩ := not_or.mp (mt List.mem_cons.mpr hname)
      rw [ih (seedTables_cons h) hrest, Memory.rows, Memory.rows, fill,
        Entries.find?_insert_ne _ hne]

/-- A row of a seed gets a number that is new among the rows before it.  A row behind it that has
the number has come with it. -/
theorem seeded_row {tables : List (String × Json)} (hm : m.Counts put written)
    (h : seedTables m tables = .ok m') (hkeys : (Entries.keys tables).Nodup)
    (hcount : counted 0 (put ++ seedPut tables) < numbers) {value : Json}
    (hmem : (name, value) ∈ tables) (hrows : seedTable (name, value) = before ++ row :: rest)
    (hid : Entries.find? "id" row = none) :
    ∃ n earlier later, m'.rows name = earlier ++ Entries.insert "id" (Json.nat n) row :: later ∧
      earlier.length = before.length ∧ (∀ r ∈ earlier, ¬ r.HasId n) ∧
      ∀ r ∈ later, Row.HasId r n → r ∈ rest := by
  induction tables generalizing m put with
  | nil => exact nomatch hmem
  | cons t tables ih =>
      rw [seedPut, List.flatMap_cons, ← List.append_assoc] at hcount
      have hfirst : counted 0 (put ++ seedTable t) < numbers :=
        Nat.lt_of_le_of_lt (counted_le_append ..) hcount
      have hnone : ∀ r ∈ ([] : List Row), Traced m.lastId written r := fun r hr => nomatch hr
      obtain ⟨hnew, hkeys⟩ := List.nodup_cons.mp hkeys
      rcases List.mem_cons.mp hmem with rfl | hmem
      · -- The table itself: the tables behind it have other names.
        rw [rows_of_seedTables (seedTables_cons h) hnew, rows_fill_self, hrows]
        rw [hrows, counted_append, ← hm.last] at hfirst
        have hbegin : counted m.lastId (before ++ [row]) < numbers := by
          refine Nat.lt_of_le_of_lt (counted_le_append _ _ rest) ?_
          rwa [List.append_assoc, List.singleton_append]
        obtain ⟨n, earlier, later, hgiven, hlength, -, hearlier, hlater⟩ :=
          exists_given hid hbegin rest
        exact ⟨n, earlier, later, hgiven, hlength, hearlier, hlater hfirst⟩
      · exact ih (hm.append hfirst hnone) (seedTables_cons h) hkeys hcount hmem

/-! ### Databases that were filled -/

/-- A database that was new or filled in, and was asked.  Listed are the rows that were put in and
the rows that updates wrote. -/
inductive Filled : List Row → List Row → Memory → Prop
  | new : Filled [] [] {}
  | seeded {tables : List (String × Json)} {m : Memory} (h : ofSeed (.obj tables) = .ok m) :
      Filled (seedPut tables) [] m
  | asked {put written : List Row} {m : Memory} (h : Filled put written m) (q : Query) :
      Filled (put ++ q.putRows) (written ++ q.writtenRows) (m.answer q).2

theorem Filled.counts (h : Filled put written m) (hcount : counted 0 put < numbers) :
    m.Counts put written := by
  induction h with
  | new => exact counts_new
  | seeded h => exact counts_new.seeded h hcount
  | asked _ q ih => exact (ih (Nat.lt_of_le_of_lt (counted_le_append ..) hcount)).answered q hcount

/-- **An `id` that is given is new, unless an update has written it.**  As long as the numbers last,
a row that is put in without an `id` gets one that no stored row of any table has, but those into
which an update may have written it, and no row that is put in before it at the same time.  In a
seed, only a row behind it in its table can have the same number, and it has come with it. -/
theorem given_id_is_new (name : String) (before : List Row) (row : Row) (rest : List Row)
    (hid : Entries.find? "id" row = none) :
    (∀ put written m, Filled put written m → ∀ q : Query,
      q.puts = some (name, before ++ row :: rest) →
      counted 0 (put ++ before ++ [row]) < numbers →
      ∃ n earlier later,
        (m.answer q).2.rows name
          = m.rows name ++ earlier ++ Entries.insert "id" (Json.nat n) row :: later ∧
        earlier.length = before.length ∧
        (∀ other, ∀ r ∈ m.rows other, r.HasId n → ∃ w ∈ written, ("id", Json.nat n) ∈ w) ∧
        ∀ r ∈ earlier, ¬ r.HasId n) ∧
    ∀ tables m, ofSeed (.obj tables) = .ok m → (Entries.keys tables).Nodup →
      counted 0 (seedPut tables) < numbers →
      ∀ value, (name, value) ∈ tables → seedTable (name, value) = before ++ row :: rest →
      ∃ n earlier later,
        m.rows name = earlier ++ Entries.insert "id" (Json.nat n) row :: later ∧
        earlier.length = before.length ∧ (∀ r ∈ earlier, ¬ r.HasId n) ∧
        ∀ r ∈ later, Row.HasId r n → r ∈ rest := by
  constructor
  · intro put written m hfilled q hq hcount
    have hcounts : m.Counts put written := by
      refine hfilled.counts (Nat.lt_of_le_of_lt ?_ hcount)
      rw [List.append_assoc]
      exact counted_le_append ..
    rw [List.append_assoc, counted_append, ← hcounts.last] at hcount
    obtain ⟨n, earlier, later, hgiven, hlength, hn, hearlier, -⟩ := exists_given hid hcount rest
    refine ⟨n, earlier, later, ?_, hlength, fun other r hr hrn => ?_, hearlier⟩
    · rw [answer_of_puts hq, rows, append, Entries.find?_insert_self, hgiven, List.append_assoc]
      rfl
    · exact (hcounts.tables other r hr n hrn).resolve_left (Nat.not_le_of_lt hn)
  · intro tables m h hkeys hcount value hmem hrows
    exact seeded_row counts_new h hkeys hcount hmem hrows hid

/-- A seed of two rows.  The second one comes with the number that the first one gets. -/
def twins : List (String × Json) :=
  [("t", .arr [.obj [("name", .str "ada")], .obj [("id", Json.nat 1)]])]

/-- The same rows as they are stored. -/
def storedTwins : Memory :=
  { tables := [("t", [[("id", Json.nat 1), ("name", .str "ada")], [("id", Json.nat 1)]])]
    lastId := 1 }

theorem given_id_is_new_twins :
    ofSeed (.obj twins) = .ok storedTwins ∧
      (∃ n earlier later, storedTwins.rows "t"
          = earlier ++ Entries.insert "id" (Json.nat n) [("name", .str "ada")] :: later ∧
        earlier.length = 0 ∧ ∀ r ∈ later, Row.HasId r n → r ∈ [[("id", Json.nat 1)]]) ∧
      ∃ n earlier later,
        (storedTwins.answer (.insertBulk "t" [[("id", Json.nat 7)], []])).2.rows "t"
          = storedTwins.rows "t" ++ earlier ++ Entries.insert "id" (Json.nat n) [] :: later ∧
        (∀ r ∈ storedTwins.rows "t", ¬ Row.HasId r n) ∧ ∀ r ∈ earlier, ¬ Row.HasId r n := by
  have hseed : ofSeed (.obj twins) = .ok storedTwins := rfl
  refine ⟨hseed, ?_, ?_⟩
  · obtain ⟨n, earlier, later, hrows, hlength, -, hlater⟩ :=
      (given_id_is_new "t" [] [("name", .str "ada")] [[("id", Json.nat 1)]] rfl).2 twins storedTwins
        hseed (by decide) (by decide) _ (List.mem_singleton.mpr rfl) rfl
    exact ⟨n, earlier, later, hrows, hlength, hlater⟩
  · obtain ⟨n, earlier, later, hrows, -, hstored, hearlier⟩ :=
      (given_id_is_new "t" [[("id", Json.nat 7)]] [] [] rfl).1 _ _ storedTwins (.seeded hseed)
        (.insertBulk "t" [[("id", Json.nat 7)], []]) rfl (by decide)
    refine ⟨n, earlier, later, hrows, fun r hr hn => ?_, hearlier⟩
    obtain ⟨w, hw, -⟩ := hstored "t" r hr hn
    exact nomatch hw

/-- A row was put in, and an update has written the next number into it. -/
def overtaken : Memory :=
  ((({} : Memory).answer (.insert "t" [("name", .str "ada")])).2.answer
    (.update "t" [] [("id", Json.nat 2)])).2

/-- After an update the number that is given can be that of a stored row, and two rows of a table
have it. -/
theorem given_id_is_taken :
    Filled [[("name", .str "ada")]] [[("id", Json.nat 2)]] overtaken ∧
      overtaken.rows "t" = [[("id", Json.nat 2), ("name", .str "ada")]] ∧
      (overtaken.answer (.insert "t" [("name", .str "alan")])).1
        = .ok (rowValue [("id", Json.nat 2), ("name", .str "alan")]) ∧
      (overtaken.answer (.insert "t" [("name", .str "alan")])).2.rows "t"
        = [[("id", Json.nat 2), ("name", .str "ada")],
            [("id", Json.nat 2), ("name", .str "alan")]] :=
  ⟨.asked (.asked .new (.insert "t" [("name", .str "ada")])) (.update "t" [] [("id", Json.nat 2)]),
    rfl, rfl, rfl⟩

end Memory

end FlowGraph.Store
