/-
The numbers that are given, over the whole history of a database.

What a caller sees of the numbering are rows that go in without an `id` and are answered with one.
`Numbered` collects these numbers over a history: filling in, and then questions of all kinds.  The
counter is behind none of them, and no question sets it back, a rollback no more than a delete.  So
the numbers rise, and none is given twice.

That ends when the counter does.  An `id` that comes with a row takes the counter along, however
large it is, so one row can use up all numbers at once.  The next row without an `id` is then given
zero, and what follows was given before (`given_ids_repeat`).  There is no other way to come to the
end (`counted_lt_or_spent`).
-/
import FlowGraph.Proofs.Store.Ids
import FlowGraph.Proofs.Json.Legal
import Mathlib.Data.List.Induction

namespace FlowGraph.Store

variable {row : Row} {rows put : List Row} {ids more : List Nat} {last top n : Nat}

/-! ### Numbers that rise -/

/-- Numbers go up, from behind a first one to a last one at most. -/
structure Rising (last : Nat) (ids : List Nat) (top : Nat) : Prop where
  le : last ≤ top
  inOrder : ids.Pairwise (· < ·)
  within : ∀ n ∈ ids, last < n ∧ n ≤ top

theorem Rising.nil (h : last ≤ top) : Rising last [] top := ⟨h, .nil, nofun⟩

theorem Rising.next (last : Nat) : Rising last [last + 1] (last + 1) := by
  refine ⟨Nat.le_succ last, List.pairwise_singleton _ _, fun n hn => ?_⟩
  obtain rfl := List.mem_singleton.mp hn
  exact ⟨Nat.lt_succ_self last, Nat.le_refl _⟩

theorem Rising.append {middle : Nat} (h : Rising last ids middle) (h' : Rising middle more top) :
    Rising last (ids ++ more) top := by
  refine ⟨Nat.le_trans h.le h'.le, ?_, fun n hn => ?_⟩
  · rw [List.pairwise_append]
    refine ⟨h.inOrder, h'.inOrder, fun n hn k hk => ?_⟩
    exact Nat.lt_of_le_of_lt (h.within n hn).2 (h'.within k hk).1
  · rcases List.mem_append.mp hn with hn | hn
    · obtain ⟨hlow, hhigh⟩ := h.within n hn
      exact ⟨hlow, Nat.le_trans hhigh h'.le⟩
    · obtain ⟨hlow, hhigh⟩ := h'.within n hn
      exact ⟨Nat.lt_of_le_of_lt h.le hlow, hhigh⟩

/-! ### Numbers that are given -/

/-- The number that a row was given: it has come without an `id` and is stored with one. -/
def Row.gave (row stored : Row) : Option Nat :=
  match Entries.find? "id" row with
  | some _ => none
  | none => (Entries.find? "id" stored).bind Json.natural?

/-- The numbers that rows were given, where it is known as what they are stored. -/
def gaveEach (rows stored : List Row) : List Nat :=
  (rows.zip stored).filterMap fun pair => pair.1.gave pair.2

/-- The rows in an answer. -/
def answeredRows : Except Fault Json → List Row
  | .ok (.obj row) => [row]
  | .ok (.arr items) => items.filterMap fun
      | .obj row => some row
      | _ => none
  | _ => []

/-- The numbers that were given with an answer. -/
def Query.gave (q : Query) (answer : Except Fault Json) : List Nat :=
  gaveEach q.putRows (answeredRows answer)

theorem gaveEach_cons (row stored : Row) (rows others : List Row) :
    gaveEach (row :: rows) (stored :: others) = (row.gave stored).toList ++ gaveEach rows others := by
  rw [gaveEach, List.zip_cons_cons, List.filterMap_cons]
  cases row.gave stored <;> rfl

namespace Memory

variable {m m' : Memory}

/-- A row takes the counter along, by its own number or by the one that it is given. -/
theorem gave_assignId (h : row.count last < numbers) :
    Rising last (row.gave (assignId last row).1).toList (row.count last) := by
  cases hid : Entries.find? "id" row with
  | some v =>
      rw [Row.gave, hid]
      exact .nil (row.le_count last)
  | none =>
      have hnumber : (Json.nat (last + 1)).natural? = some (last + 1) := rfl
      rw [assignId_none hid h, Row.gave, hid, Entries.find?_insert_self, Row.count, hid]
      simp only [Option.bind_some, hnumber, Option.toList_some]
      exact Rising.next last

/-- **Rows that are put in together are given rising numbers.** -/
theorem gaveEach_assignIds (h : counted last rows < numbers) :
    Rising last (gaveEach rows (assignIds last rows).1) (counted last rows) := by
  induction rows generalizing last with
  | nil => exact .nil (Nat.le_refl last)
  | cons row rows ih =>
      have hrow : row.count last < numbers := Nat.lt_of_le_of_lt (le_counted _ rows) h
      rw [assignIds_cons, gaveEach_cons, assignId_snd hrow, counted_cons]
      exact (gave_assignId hrow).append (ih h)

theorem gave_answer (q : Query) (m : Memory) :
    q.gave (m.answer q).1 = gaveEach q.putRows (assignIds m.lastId q.putRows).1 := by
  cases q with
  | insert name row => rfl
  | insertBulk name rows =>
      have hrows : ∀ stored : List Row, answeredRows (.ok (rowsValue stored)) = stored := by
        intro stored
        rw [rowsValue, answeredRows, List.filterMap_map]
        exact List.filterMap_some
      exact congrArg (gaveEach rows) (hrows _)
  | _ => rfl

/-! ### Histories -/

/-- A database that was new or filled in, and was asked.  Listed are the numbers that were given
and the rows that were put in. -/
inductive Numbered : List Nat → List Row → Memory → Prop
  | new : Numbered [] [] {}
  | seeded {tables : List (String × Json)} {m : Memory} (hkeys : (Entries.keys tables).Nodup)
      (h : ofSeed (.obj tables) = .ok m) :
      Numbered (tables.flatMap fun t => gaveEach (seedTable t) (m.rows t.1)) (seedPut tables) m
  | asked {ids : List Nat} {put : List Row} {m : Memory} (h : Numbered ids put m) (q : Query) :
      Numbered (ids ++ q.gave (m.answer q).1) (put ++ q.putRows) (m.answer q).2

theorem Numbered.filled (h : Numbered ids put m) : ∃ written, Filled put written m := by
  induction h with
  | new => exact ⟨_, .new⟩
  | seeded _ h => exact ⟨_, .seeded h⟩
  | asked _ q ih =>
      obtain ⟨written, h⟩ := ih
      exact ⟨_, .asked h q⟩

/-- The counter stands where it would stand if it had no end. -/
theorem Numbered.lastId_eq (h : Numbered ids put m) (hcount : counted 0 put < numbers) :
    m.lastId = counted 0 put := by
  obtain ⟨written, hfilled⟩ := h.filled
  exact (hfilled.counts hcount).last

/-- The tables of a seed are numbered one behind the other. -/
theorem gaveEach_seeded {tables : List (String × Json)} (h : seedTables m tables = .ok m')
    (hkeys : (Entries.keys tables).Nodup)
    (hcount : counted m.lastId (seedPut tables) < numbers) :
    Rising m.lastId (tables.flatMap fun t => gaveEach (seedTable t) (m'.rows t.1))
      (counted m.lastId (seedPut tables)) := by
  induction tables generalizing m with
  | nil => exact .nil (Nat.le_refl _)
  | cons t rest ih =>
      obtain ⟨hfresh, hrest⟩ := List.nodup_cons.mp hkeys
      have hput : seedPut (t :: rest) = seedTable t ++ seedPut rest := rfl
      rw [hput, counted_append] at hcount ⊢
      have hfirst : counted m.lastId (seedTable t) < numbers :=
        Nat.lt_of_le_of_lt (le_counted _ _) hcount
      have hlast : (m.fill t.1 (seedTable t)).lastId = counted m.lastId (seedTable t) :=
        assignIds_snd hfirst
      -- The tables behind the first one have other names and leave it as it is.
      have hrows : m'.rows t.1 = (assignIds m.lastId (seedTable t)).1 := by
        rw [rows_of_seedTables (seedTables_cons h) hfresh, rows_fill_self]
      rw [List.flatMap_cons, hrows]
      refine (gaveEach_assignIds hfirst).append ?_
      rw [← hlast] at hcount ⊢
      exact ih (seedTables_cons h) hrest hcount

/-- **Over a whole history the numbers rise** to where the counter stands. -/
theorem Numbered.rising (h : Numbered ids put m) (hcount : counted 0 put < numbers) :
    Rising 0 ids (counted 0 put) := by
  induction h with
  | new => exact .nil (Nat.le_refl 0)
  | seeded hkeys h => exact gaveEach_seeded (m := {}) h hkeys hcount
  | @asked ids put m h q ih =>
      have hbefore : counted 0 put < numbers := Nat.lt_of_le_of_lt (counted_le_append ..) hcount
      rw [counted_append, ← h.lastId_eq hbefore] at hcount ⊢
      rw [gave_answer]
      refine Rising.append ?_ (gaveEach_assignIds hcount)
      rw [h.lastId_eq hbefore]
      exact ih hbefore

/-! ### The end of the numbers -/

/-- Among rows that were put in, one without an `id` came when the counter stood at the last
number. -/
def Spent (put : List Row) : Prop :=
  ∃ before row after, put = before ++ row :: after ∧ Entries.find? "id" row = none ∧
    counted 0 before + 1 = numbers

theorem natural?_lt {v : Json} (hv : v.Legal) (h : v.natural? = some n) : n < numbers := by
  cases v with
  | number number =>
      cases number with
      | int i =>
          have hrange : Number.inRange i = true := hv
          rw [Number.inRange, Bool.and_eq_true, decide_eq_true_eq, decide_eq_true_eq] at hrange
          rw [Json.natural?] at h
          split at h
          · obtain rfl := Option.some.inj h
            rw [numbers]
            omega
          · cases h
      | float x => cases h
  | _ => cases h

theorem count_lt (hrow : (Json.obj row).Legal) (hid : Entries.find? "id" row ≠ none)
    (h : last < numbers) : row.count last < numbers := by
  rw [Row.count]
  cases hfound : Entries.find? "id" row with
  | none => exact absurd hfound hid
  | some v =>
      have hv : v.Legal := Json.legalFields_iff.mp hrow.2 _ (Entries.mem_of_find? hfound)
      refine max_lt h ?_
      cases hnumber : v.natural? with
      | none => decide
      | some n => exact natural?_lt hv hnumber

/-- **The numbers last until a row without an `id` finds the counter at its end.** -/
theorem counted_lt_or_spent (hput : ∀ row ∈ put, (Json.obj row).Legal) :
    counted 0 put < numbers ∨ Spent put := by
  induction put using List.reverseRecOn with
  | nil => exact Or.inl (by decide)
  | append_singleton put row ih =>
      obtain ⟨hbefore, hrow⟩ := List.forall_mem_append.mp hput
      rcases ih hbefore with hlt | ⟨before, row', after, rfl, hid, hend⟩
      · by_cases hid : Entries.find? "id" row = none
        · have hcount : counted 0 (put ++ [row]) = counted 0 put + 1 := by
            rw [counted_append, counted_cons, Row.count, hid]
            rfl
          by_cases hend : counted 0 put + 1 = numbers
          · exact Or.inr ⟨put, row, [], rfl, hid, hend⟩
          · rw [hcount]
            exact Or.inl (by omega)
        · rw [counted_append]
          exact Or.inl (count_lt (hrow row (List.mem_singleton.mpr rfl)) hid hlt)
      · refine Or.inr ⟨before, row', after ++ [row], ?_, hid, hend⟩
        rw [List.append_assoc, List.cons_append]

/-- **The numbers that are given rise over the whole history**, as long as no row without an `id`
is put in when the counter stands at the last number.  The counter never starts again, and a number
that was given is not given again, whatever has become of its row. -/
theorem given_ids_rise (h : Numbered ids put m) (hput : ∀ row ∈ put, (Json.obj row).Legal)
    (hnumbers : ¬ Spent put) :
    ids.Pairwise (· < ·) ∧ m.lastId = counted 0 put ∧ m.lastId < numbers ∧
      ∀ n ∈ ids, 0 < n ∧ n ≤ m.lastId := by
  have hcount : counted 0 put < numbers := (counted_lt_or_spent hput).resolve_right hnumbers
  have hlast := h.lastId_eq hcount
  have hrising := h.rising hcount
  refine ⟨hrising.inOrder, hlast, ?_, fun n hn => ?_⟩
  · rw [hlast]
    exact hcount
  · rw [hlast]
    exact hrising.within n hn

/-- When the numbers are used up, the counter has run past the last one. -/
theorem Spent.numbers_le (h : Spent put) : numbers ≤ counted 0 put := by
  obtain ⟨before, row, after, rfl, hid, hend⟩ := h
  rw [counted_append, counted_cons, Row.count, hid]
  simp only
  rw [hend]
  exact le_counted numbers after

/-- Questions, one after the other, and the numbers and the database that they leave. -/
def askAll (m : Memory) : List Query → List Nat × Memory
  | [] => ([], m)
  | q :: rest =>
    let (answer, m) := m.answer q
    let (ids, m) := askAll m rest
    (q.gave answer ++ ids, m)

theorem Numbered.askAll (h : Numbered ids put m) (questions : List Query) :
    Numbered (ids ++ (m.askAll questions).1) (put ++ questions.flatMap Query.putRows)
      (m.askAll questions).2 := by
  induction questions generalizing ids put m with
  | nil => rwa [Memory.askAll, List.flatMap_nil, List.append_nil, List.append_nil]
  | cons q rest ih =>
      rw [Memory.askAll, List.flatMap_cons, ← List.append_assoc, ← List.append_assoc]
      exact ih (h.asked q)

theorem legal_nil : (Json.obj []).Legal := ⟨List.Pairwise.nil, trivial⟩

theorem legal_number {n : Nat} (h : n < numbers) : (Json.obj [("id", Json.nat n)]).Legal := by
  refine ⟨List.pairwise_singleton _ _, ?_, trivial⟩
  show Number.inRange n = true
  rw [numbers] at h
  rw [Number.inRange, Bool.and_eq_true, decide_eq_true_eq, decide_eq_true_eq]
  omega

/-- A row goes in and is deleted, another one is taken back with its transaction, one brings a
number of its own, and a last one stays. -/
def comeAndGone : List Query :=
  [.insert "t" [], .delete "t" [], .setMode .transaction, .insert "t" [], .rollback,
    .insertBulk "t" [[("id", Json.nat 7)], []]]

theorem given_ids_rise_comeAndGone :
    let put := comeAndGone.flatMap Query.putRows
    Numbered [1, 2, 8] put (askAll {} comeAndGone).2 ∧ (∀ row ∈ put, (Json.obj row).Legal) ∧
      ¬ Spent put ∧ [1, 2, 8].Pairwise (· < ·) ∧ (askAll {} comeAndGone).2.lastId = 8 := by
  have hgiven : (askAll {} comeAndGone).1 = [1, 2, 8] := by decide +kernel
  have hnumbered := Numbered.new.askAll comeAndGone
  rw [hgiven] at hnumbered
  have hseven : (Json.obj [("id", Json.nat 7)]).Legal := legal_number (by decide)
  have hput : ∀ row ∈ comeAndGone.flatMap Query.putRows, (Json.obj row).Legal := by
    simp [comeAndGone, Query.putRows, Query.puts, legal_nil, hseven]
  have hspent : ¬ Spent (comeAndGone.flatMap Query.putRows) := by
    intro h
    exact absurd h.numbers_le (by decide)
  obtain ⟨hrise, hlast, -, -⟩ := given_ids_rise hnumbered hput hspent
  exact ⟨hnumbered, hput, hspent, hrise, hlast⟩

/-- A row takes the last number, and two rows come behind it. -/
def outrun : List Query :=
  [.insert "t" [], .insert "t" [("id", Json.nat 18446744073709551615)], .insert "t" [],
    .insert "t" []]

/-- **The counter starts again** behind the last number, and what it gave at first it gives once
more. -/
theorem given_ids_repeat :
    let put := outrun.flatMap Query.putRows
    Numbered [1, 0, 1] put (askAll {} outrun).2 ∧ (∀ row ∈ put, (Json.obj row).Legal) ∧
      ¬ [1, 0, 1].Pairwise (· < ·) ∧ ¬ [1, 0, 1].Nodup := by
  have hgiven : (askAll {} outrun).1 = [1, 0, 1] := by decide +kernel
  have hnumbered := Numbered.new.askAll outrun
  rw [hgiven] at hnumbered
  have hlast : (Json.obj [("id", Json.nat 18446744073709551615)]).Legal := legal_number (by decide)
  have hput : ∀ row ∈ outrun.flatMap Query.putRows, (Json.obj row).Legal := by
    simp [outrun, Query.putRows, Query.puts, legal_nil, hlast]
  exact ⟨hnumbered, hput, by decide, by decide⟩

end Memory

end FlowGraph.Store
