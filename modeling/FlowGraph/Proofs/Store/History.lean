/-
What a database in memory shows of its past.

The mode and the tables that are remembered are two fields, and they are not changed
together: a commit and a rollback forget the tables and leave the mode, and only a change of
the mode sets both.  So not every pair of them occurs.  `Reflects` says which do and what they
stand for: the mode is the one that was set last, and tables are remembered as long as a
transaction was opened that nothing has closed since.  It holds of a new database and of one
that was filled in, and every question keeps it, whether it is answered or refused.

Hence what was asked and answered tells which questions about transactions succeed.  A
transaction that was committed or rolled back is closed, but the mode is still set, so no other
one can be opened before the mode was set back.
-/
import FlowGraph.Proofs.Store.Answers

namespace FlowGraph.Store

/-- Questions and their answers, the last one first. -/
abbrev History := List (Query × Except Fault Json)

namespace History

variable {h : History} {e : Query × Except Fault Json} {m : Memory}

/-- The mode that an exchange has set. -/
def modeSet? : Query × Except Fault Json → Option Mode
  | (.setMode mode, .ok _) => some mode
  | _ => none

/-- The mode that was set last; a database begins in the normal one. -/
def mode (h : History) : Mode := (h.filterMap modeSet?).head?.getD .normal

/-- The exchange has opened a transaction. -/
def Opens (e : Query × Except Fault Json) : Prop := modeSet? e = some .transaction

/-- The exchange closes any transaction. -/
def Closes : Query × Except Fault Json → Prop
  | (.commit, .ok _) | (.rollback, .ok _) | (.setMode .normal, _) => True
  | _ => False

/-- A transaction was opened, and nothing has closed it since. -/
def Open (h : History) : Prop :=
  ∃ later e earlier, h = later ++ e :: earlier ∧ Opens e ∧ ∀ e' ∈ later, ¬ Closes e'

/-- What sets no mode opens nothing. -/
theorem not_opens (hset : modeSet? e = none) : ¬ Opens e := by
  rw [Opens, hset]
  exact (Option.some_ne_none _).symm

theorem mode_cons : mode (e :: h) = (modeSet? e).getD h.mode := by
  rw [mode, List.filterMap_cons]
  cases modeSet? e <;> rfl

theorem not_open_nil : ¬ Open [] := by
  rintro ⟨later, e, earlier, hnil, -⟩
  simp at hnil

theorem open_cons_iff : Open (e :: h) ↔ Opens e ∨ (¬ Closes e ∧ h.Open) := by
  constructor
  · rintro ⟨later, e', earlier, heq, hopens, hclosed⟩
    cases later with
    | nil =>
        obtain ⟨rfl, -⟩ := List.cons.inj heq
        exact Or.inl hopens
    | cons first later =>
        obtain ⟨rfl, rfl⟩ := List.cons.inj heq
        exact Or.inr ⟨hclosed _ (List.mem_cons_self ..), later, e', earlier, rfl, hopens,
          fun e'' hmem => hclosed e'' (List.mem_cons_of_mem _ hmem)⟩
  · rintro (hopens | ⟨hfirst, later, e', earlier, rfl, hopens, hclosed⟩)
    · exact ⟨[], e, h, rfl, hopens, by simp⟩
    · refine ⟨e :: later, e', earlier, rfl, hopens, fun e'' hmem => ?_⟩
      rcases List.mem_cons.mp hmem with rfl | hmem
      · exact hfirst
      · exact hclosed e'' hmem

/-- A database was new or filled in, and the exchanges have led to the one that there is. -/
inductive Leaves : History → Memory → Prop
  | new : Leaves [] {}
  | seeded {seed : Json} {m : Memory} (hm : Memory.ofSeed seed = .ok m) : Leaves [] m
  | asked {h : History} {m : Memory} (hm : Leaves h m) (q : Query) :
      Leaves ((q, (m.answer q).1) :: h) (m.answer q).2

end History

namespace Memory

variable {h : History} {m : Memory} {q : Query}

/-- The database shows what was done last about transactions. -/
structure Reflects (m : Memory) (h : History) : Prop where
  mode : m.mode = h.mode
  snapshot : m.snapshot.isSome = true ↔ h.Open
  /-- Tables are remembered in a transaction only. -/
  held : m.snapshot.isSome = true → m.mode = .transaction

/-! ### What begins -/

theorem reflects_nil (hmode : m.mode = .normal) (hsnapshot : m.snapshot = none) :
    m.Reflects [] := by
  refine ⟨hmode, ?_, ?_⟩
  · rw [hsnapshot]
    exact ⟨nofun, fun ho => (History.not_open_nil ho).elim⟩
  · rw [hsnapshot]
    nofun

/-- Filling in tables opens no transaction. -/
theorem seedTables_stands {opened : Option Tables} :
    ∀ (tables : List (String × Json)) {m m' : Memory}, seedTables m tables = .ok m' →
      m.Stands opened → m'.Stands opened := by
  intro tables
  induction tables with
  | nil =>
      intro m m' h hm
      obtain rfl := Except.ok.inj h
      exact hm
  | cons table rest ih =>
      intro m m' h hm
      obtain ⟨name, value⟩ := table
      cases value with
      | arr items =>
          rw [seedTables] at h
          cases hrows : seedRows name items with
          | error e => simp [hrows] at h
          | ok rows =>
              simp only [hrows] at h
              exact ih h ⟨hm.snapshot, hm.mode⟩
      | _ => simp [seedTables] at h

theorem ofSeed_stands {seed : Json} (h : ofSeed seed = .ok m) : m.Stands none := by
  cases seed with
  | obj tables => exact seedTables_stands tables h ⟨rfl, rfl⟩
  | _ => simp [ofSeed] at h

/-! ### What each question does -/

/-- An exchange is not seen if it changes nothing about transactions. -/
theorem Reflects.unseen (hm : m.Reflects h) {m' : Memory} {e : Query × Except Fault Json}
    (hstands : m'.snapshot = m.snapshot ∧ m'.mode = m.mode) (hset : History.modeSet? e = none)
    (hcloses : ¬ History.Closes e) : m'.Reflects (e :: h) := by
  have hopens := History.not_opens hset
  obtain ⟨hsnapshot, hmode⟩ := hstands
  refine ⟨?_, ?_, ?_⟩
  · rw [hmode, History.mode_cons, hset]
    exact hm.mode
  · rw [hsnapshot, History.open_cons_iff]
    exact hm.snapshot.trans ⟨fun ho => Or.inr ⟨hcloses, ho⟩, fun ho => (ho.resolve_left hopens).2⟩
  · rw [hsnapshot, hmode]
    exact hm.held

/-- After an exchange that closes, no tables are remembered. -/
theorem Reflects.closed {e : Query × Except Fault Json} {mode : Mode}
    (hmode : mode = History.mode (e :: h)) (hopens : ¬ History.Opens e)
    (hcloses : History.Closes e) : Reflects { m with mode := mode, snapshot := none } (e :: h) := by
  refine ⟨hmode, ⟨nofun, fun ho => ?_⟩, nofun⟩
  rcases History.open_cons_iff.mp ho with ho | ⟨hnot, -⟩
  · exact (hopens ho).elim
  · exact (hnot hcloses).elim

theorem Reflects.answer_onTables (hm : m.Reflects h) (hq : q.OnTables) :
    (m.answer q).2.Reflects ((q, (m.answer q).1) :: h) := by
  refine hm.unseen ⟨answer_snapshot hq m, answer_mode hq m⟩ ?_ ?_
  · cases q <;> first | rfl | exact hq.elim
  · cases q <;> first | exact id | exact hq.elim

theorem Reflects.answer_setMode (hm : m.Reflects h) (mode : Mode) :
    (m.answer (.setMode mode)).2.Reflects ((.setMode mode, (m.answer (.setMode mode)).1) :: h) := by
  cases mode with
  | normal => exact closed rfl nofun trivial
  | transaction =>
      rw [answer]
      cases hmode : m.mode with
      | transaction => exact hm.unseen ⟨rfl, rfl⟩ rfl id
      | normal =>
          -- The tables are remembered from now on, and the exchange has opened a transaction.
          exact ⟨rfl, ⟨fun _ => History.open_cons_iff.mpr (Or.inl rfl), fun _ => rfl⟩, fun _ => rfl⟩

theorem Reflects.answer_commit (hm : m.Reflects h) :
    (m.answer .commit).2.Reflects ((.commit, (m.answer .commit).1) :: h) := by
  rw [answer]
  cases hsnapshot : m.snapshot with
  | none => exact hm.unseen ⟨rfl, rfl⟩ rfl id
  | some tables => exact closed hm.mode (History.not_opens rfl) trivial

theorem Reflects.answer_rollback (hm : m.Reflects h) :
    (m.answer .rollback).2.Reflects ((.rollback, (m.answer .rollback).1) :: h) := by
  rw [answer]
  cases hsnapshot : m.snapshot with
  | none => exact hm.unseen ⟨rfl, rfl⟩ rfl id
  | some tables => exact closed (m := { m with tables := tables }) hm.mode (History.not_opens rfl) trivial

/-- Every question keeps what the database shows. -/
theorem Reflects.answer (hm : m.Reflects h) (q : Query) :
    (m.answer q).2.Reflects ((q, (m.answer q).1) :: h) := by
  cases q with
  | setMode mode => exact hm.answer_setMode mode
  | commit => exact hm.answer_commit
  | rollback => exact hm.answer_rollback
  | _ => exact hm.answer_onTables trivial

end Memory

/-! ### Whole histories -/

namespace History

variable {h : History} {m : Memory}

/-- Whatever was asked, the database shows it. -/
theorem Leaves.reflects (hm : h.Leaves m) : m.Reflects h := by
  induction hm with
  | new => exact Memory.reflects_nil rfl rfl
  | seeded hseed =>
      have hstands := Memory.ofSeed_stands hseed
      exact Memory.reflects_nil hstands.mode hstands.snapshot
  | asked _ q ih => exact ih.answer q

/-- In the normal mode no tables are remembered. -/
theorem Leaves.snapshot_none (hm : h.Leaves m) (hmode : m.mode = .normal) : m.snapshot = none := by
  cases hsnapshot : m.snapshot with
  | none => rfl
  | some tables =>
      have hheld := hm.reflects.held (by rw [hsnapshot]; rfl)
      exact nomatch hmode.symm.trans hheld

/-- **What was asked and answered tells which questions about transactions succeed**: a transaction
can be opened exactly if the mode that was set last is the normal one, and it can be committed or
rolled back exactly if it was opened and nothing has closed it since.  Tables are remembered in a
transaction only, and whatever is refused changes nothing. -/
theorem Leaves.answers (hm : h.Leaves m) :
    ((∃ v, (m.answer (.setMode .transaction)).1 = .ok v) ↔ h.mode = .normal) ∧
      ((∃ v, (m.answer .commit).1 = .ok v) ↔ h.Open) ∧
      ((∃ v, (m.answer .rollback).1 = .ok v) ↔ h.Open) ∧
      (m.snapshot.isSome = true → m.mode = .transaction) ∧
      ∀ q f, (m.answer q).1 = .error f → (m.answer q).2 = m := by
  obtain ⟨hmode, hsnapshot, hheld⟩ := hm.reflects
  refine ⟨?_, ?_, ?_, hheld, fun q f => Memory.answer_refused⟩
  · rw [← hmode, Memory.answer]
    cases m.mode <;> simp
  · rw [← hsnapshot, Memory.answer]
    cases m.snapshot <;> simp
  · rw [← hsnapshot, Memory.answer]
    cases m.snapshot <;> simp

/-- A row was put in and the transaction committed, but the mode was not set back before another
transaction should be opened. -/
def committed : History :=
  [(.setMode .transaction, .error (.transaction "transaction already open")),
   (.commit, .ok .null), (.insert "log" [], .ok (.obj [("id", Json.nat 1)])),
   (.setMode .transaction, .ok .null)]

theorem Leaves.answers_committed :
    ∃ m, committed.Leaves m ∧ committed.mode = .transaction ∧ ¬ committed.Open ∧
      (¬ ∃ v, (m.answer (.setMode .transaction)).1 = .ok v) ∧
      (¬ ∃ v, (m.answer .commit).1 = .ok v) ∧ ¬ ∃ v, (m.answer .rollback).1 = .ok v := by
  have hleaves : committed.Leaves
      { tables := [("log", [[("id", Json.nat 1)]])], mode := .transaction, lastId := 1 } :=
    .asked (.asked (.asked (.asked .new (.setMode .transaction)) (.insert "log" [])) .commit)
      (.setMode .transaction)
  have hclosed : ¬ committed.Open := by
    simp [committed, open_cons_iff, Opens, Closes, modeSet?]
  obtain ⟨hopens, hcommits, hrolls, -⟩ := hleaves.answers
  exact ⟨_, hleaves, rfl, hclosed, fun ho => (nomatch hopens.mp ho),
    fun hc => hclosed (hcommits.mp hc), fun hr => hclosed (hrolls.mp hr)⟩

end History

end FlowGraph.Store
