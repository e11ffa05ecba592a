/-
Rows that are asked for by their `id`.

A filter compares an `id` as it compares everything, by the floats that the numbers become.  So what
it means are the rows whose numbers become the float of the one that is asked for
(`satisfies_byId`).  Below `2 ^ 53` every number has a float of its own, and the filter means the
one row that has this number.  Further up neighbours become the same float, and who asks for the one
is given the other (`byId_means_both`).

Hence the condition of `byId_selects_row`: the number is that small, or no other row of the table
has one that becomes the same float.
-/
import FlowGraph.Proofs.Decimal.Values
import FlowGraph.Proofs.Store.Ids
import FlowGraph.Proofs.Store.Selection

namespace FlowGraph.Store

theorem Row.HasId.unique {row : Row} {k n : Nat} (h : row.HasId n) (h' : row.HasId k) :
    n = k := by
  have heq : Json.nat n = Json.nat k := Option.some.inj (h.symm.trans h')
  simpa [Json.nat] using heq

namespace Memory

open Decimal

variable {m : Memory} {name : String} {before after : List Row} {row : Row} {k n : Nat}
  {chain : Chain}

/-- The filter for rows with an `id`. -/
def byId (n : Nat) (chain : Chain) : List Filter := [⟨"id", .eq, Json.nat n, chain⟩]

/-- Two numbers become the same float. -/
def SameFloat (k n : Nat) : Prop := ((Number.int k).toFloat == (Number.int n).toFloat) = true

instance : Decidable (SameFloat k n) := inferInstanceAs (Decidable (_ = true))

/-- The rows of a table have numbers, and each of them its own. -/
structure Identified (rows : List Row) : Prop where
  numbered : ∀ row ∈ rows, ∃ n < numbers, row.HasId n
  distinct : rows.Pairwise fun a b => ∀ n, a.HasId n → ¬ b.HasId n

theorem sameFloat_self (hn : n < numbers) : SameFloat n n := by
  have hfinite : (Float.ofNat n).isFinite = true := isFinite_ofNat (by rw [numbers] at hn; omega)
  exact (beq_iff_value hfinite hfinite).mpr rfl

/-- A number below `2 ^ 53` shares its float with no other. -/
theorem sameFloat_iff (hn : n < 2 ^ 53) (hk : k < numbers) : SameFloat k n ↔ k = n :=
  ofNat_beq_iff hn (by rw [numbers] at hk; omega)

/-- **The filter for an `id` means the rows whose number becomes the same float.** -/
theorem satisfies_byId (h : row.HasId k) : Satisfies (byId n chain) row ↔ SameFloat k n := by
  have hcell : cell row "id" = Json.nat k := by
    rw [cell, h]
    rfl
  have hholds : Operator.eq.holds (cell row "id") (Json.nat n)
      = ((Number.int k).toFloat == (Number.int n).toFloat) := by
    rw [hcell]
    rfl
  unfold Satisfies byId SameFloat
  rw [← hholds]
  cases chain <;> simp [Chain.pieces]

/-- A row that is met by its `id` alone among the others of its table. -/
structure Alone (n : Nat) (chain : Chain) (before : List Row) (row : Row) (after : List Row) :
    Prop where
  met : Satisfies (byId n chain) row
  others : ∀ r ∈ before ++ after, ¬ Satisfies (byId n chain) r

namespace Alone

theorem filter (h : Alone n chain before row after) :
    (before ++ row :: after).filter (Satisfies (byId n chain) ·) = [row] := by
  obtain ⟨hbefore, hafter⟩ := List.forall_mem_append.mp h.others
  have hnone : before.filter (Satisfies (byId n chain) ·) = [] := by
    simpa [List.filter_eq_nil_iff] using hbefore
  have hnone' : after.filter (Satisfies (byId n chain) ·) = [] := by
    simpa [List.filter_eq_nil_iff] using hafter
  simp [hnone, hnone', h.met]

theorem filter_not (h : Alone n chain before row after) :
    (before ++ row :: after).filter (¬ Satisfies (byId n chain) ·) = before ++ after := by
  obtain ⟨hbefore, hafter⟩ := List.forall_mem_append.mp h.others
  have hall : before.filter (¬ Satisfies (byId n chain) ·) = before := by
    simpa [List.filter_eq_self] using hbefore
  have hall' : after.filter (¬ Satisfies (byId n chain) ·) = after := by
    simpa [List.filter_eq_self] using hafter
  simp only [List.filter_append, List.filter_cons, hall, hall', h.met, not_true_eq_false,
    decide_false, Bool.false_eq_true, if_false]

theorem map_ite (h : Alone n chain before row after) (f : Row → Row) :
    ((before ++ row :: after).map fun r => if Satisfies (byId n chain) r then f r else r)
      = before ++ f row :: after := by
  obtain ⟨hbefore, hafter⟩ := List.forall_mem_append.mp h.others
  have hsame : before.map (fun r => if Satisfies (byId n chain) r then f r else r) = before :=
    (List.map_congr_left fun r hr => if_neg (hbefore r hr)).trans (List.map_id' before)
  have hsame' : after.map (fun r => if Satisfies (byId n chain) r then f r else r) = after :=
    (List.map_congr_left fun r hr => if_neg (hafter r hr)).trans (List.map_id' after)
  rw [List.map_append, List.map_cons, if_pos h.met, hsame, hsame']

/-- **What is asked with the filter touches this row only.** -/
theorem selected (h : Alone n chain before row after)
    (htable : Entries.find? name m.tables = some (before ++ row :: after)) :
    m.answer (.getSingle name (byId n chain)) = (.ok (rowValue row), m) ∧
      (∃ m', m.answer (.delete name (byId n chain)) = (.ok (Json.nat 1), m') ∧
        m.Rewrites name (before ++ after) m') ∧
      ∀ fields : Row, (Entries.keys fields).Nodup → ∃ m' row',
        m.answer (.update name (byId n chain) fields) = (.ok (Json.nat 1), m') ∧
          m.Rewrites name (before ++ row' :: after) m' ∧ Row.Overwritten fields row row' := by
  have hselected := h.filter
  refine ⟨?single, ?delete, fun fields hfields => ?update⟩
  case single =>
    rw [answer_getSingle htable, hselected]
    rfl
  case delete =>
    obtain ⟨m', hanswer, hrewrites⟩ := answer_delete htable (byId n chain)
    rw [hselected] at hanswer
    rw [h.filter_not] at hrewrites
    exact ⟨m', hanswer, hrewrites⟩
  case update =>
    obtain ⟨m', hanswer, hrewrites⟩ := answer_update htable (byId n chain) fields
    rw [hselected] at hanswer
    rw [h.map_ite] at hrewrites
    exact ⟨m', _, hanswer, hrewrites, Row.overwritten_union hfields row⟩

end Alone

/-- **A row that is asked for by its `id` is the one that is meant**, if its number is below
`2 ^ 53`, or becomes another float than those of the other rows in the table.  Reading returns this
row, deleting takes this row away, and updating overwrites it where it stands; each counts one row,
and all else stays as it is. -/
theorem byId_selects_row (htable : Entries.find? name m.tables = some (before ++ row :: after))
    (hrows : Identified (before ++ row :: after)) (hid : row.HasId n)
    (hown : n < 2 ^ 53 ∨ ∀ r ∈ before ++ after, ∀ k, r.HasId k → ¬ SameFloat k n)
    (chain : Chain) :
    m.answer (.getSingle name (byId n chain)) = (.ok (rowValue row), m) ∧
      (∃ m', m.answer (.delete name (byId n chain)) = (.ok (Json.nat 1), m') ∧
        m.Rewrites name (before ++ after) m') ∧
      ∀ fields : Row, (Entries.keys fields).Nodup → ∃ m' row',
        m.answer (.update name (byId n chain) fields) = (.ok (Json.nat 1), m') ∧
          m.Rewrites name (before ++ row' :: after) m' ∧ Row.Overwritten fields row row' := by
  have hmem : ∀ r ∈ before ++ after, r ∈ before ++ row :: after := by
    intro r hr
    rw [List.mem_append] at hr ⊢
    exact hr.imp_right (List.mem_cons_of_mem row)
  have hothers : ∀ r ∈ before ++ after, ¬ r.HasId n := by
    obtain ⟨-, hcons, hbefore⟩ := List.pairwise_append.mp hrows.distinct
    obtain ⟨hafter, -⟩ := List.pairwise_cons.mp hcons
    intro r hr
    rcases List.mem_append.mp hr with hr | hr
    · intro hrn
      exact hbefore r hr row (List.mem_cons_self ..) n hrn hid
    · exact hafter r hr n hid
  have hself : SameFloat n n := by
    obtain ⟨k, hk, hkid⟩ := hrows.numbered row (by simp)
    obtain rfl : n = k := hid.unique hkid
    exact sameFloat_self hk
  refine Alone.selected ⟨(satisfies_byId hid).mpr hself, fun r hr => ?_⟩ htable
  obtain ⟨k, hk, hkid⟩ := hrows.numbered r (hmem r hr)
  rw [satisfies_byId hkid]
  rcases hown with hsmall | hfloats
  · rw [sameFloat_iff hsmall hk]
    rintro rfl
    exact hothers r hr hkid
  · exact hfloats r hr k hkid

/-- Three rows, and the numbers of two of them become the same float. -/
def neighbours : List Row :=
  [[("id", Json.nat 9007199254740992)], [("id", Json.nat 3)], [("id", Json.nat 9007199254740993)]]

theorem identified_neighbours : Identified neighbours := by
  constructor
  · simp only [neighbours, List.forall_mem_cons]
    exact ⟨⟨_, by decide, rfl⟩, ⟨_, by decide, rfl⟩, ⟨_, by decide, rfl⟩, nofun⟩
  · have hdistinct {j k : Nat} (h : j ≠ k) :
        ∀ n, Row.HasId [("id", Json.nat j)] n → ¬ Row.HasId [("id", Json.nat k)] n := by
      intro n hj hk
      have hj' : Row.HasId (Entries.insert "id" (Json.nat j) []) n := hj
      have hk' : Row.HasId (Entries.insert "id" (Json.nat k) []) n := hk
      exact h ((hasId_insert.mp hj').symm.trans (hasId_insert.mp hk'))
    simp only [neighbours, List.pairwise_cons, List.forall_mem_cons]
    exact ⟨⟨hdistinct (by decide), hdistinct (by decide), nofun⟩, ⟨hdistinct (by decide), nofun⟩,
      nofun, .nil⟩

/-- A database with these rows. -/
def neighbouring : Memory := { tables := [("t", neighbours)], lastId := 9007199254740993 }

theorem byId_selects_row_neighbouring :
    Entries.find? "t" neighbouring.tables = some neighbours ∧ Identified neighbours ∧
      neighbouring.answer (.getSingle "t" (byId 3 .and))
        = (.ok (rowValue [("id", Json.nat 3)]), neighbouring) ∧
      ∃ m', neighbouring.answer (.delete "t" (byId 3 .and)) = (.ok (Json.nat 1), m') ∧
        Entries.find? "t" m'.tables
          = some [[("id", Json.nat 9007199254740992)], [("id", Json.nat 9007199254740993)]] := by
  have htable : Entries.find? "t" neighbouring.tables
      = some ([[("id", Json.nat 9007199254740992)]] ++ [("id", Json.nat 3)]
          :: [[("id", Json.nat 9007199254740993)]]) := rfl
  obtain ⟨hsingle, ⟨m', hdelete, hrewrites⟩, -⟩ :=
    byId_selects_row htable identified_neighbours rfl (Or.inl (by decide)) .and
  exact ⟨htable, identified_neighbours, hsingle, m', hdelete, hrewrites.table⟩

/-- **Of two neighbours that become the same float the filter for one means both.**  Reading gives
the one that comes first, which was not asked for, and deleting takes both away. -/
theorem byId_means_both :
    Entries.find? "t" neighbouring.tables = some neighbours ∧ Identified neighbours ∧
      [("id", Json.nat 9007199254740993)] ∈ neighbours ∧
      neighbouring.answer (.getSingle "t" (byId 9007199254740993 .and))
        = (.ok (rowValue [("id", Json.nat 9007199254740992)]), neighbouring) ∧
      (neighbouring.answer (.delete "t" (byId 9007199254740993 .and))).1 = .ok (Json.nat 2) := by
  have htable : Entries.find? "t" neighbouring.tables = some neighbours := rfl
  have hselected : neighbours.filter (Satisfies (byId 9007199254740993 .and) ·)
      = [[("id", Json.nat 9007199254740992)], [("id", Json.nat 9007199254740993)]] := by
    have hfirst : SameFloat 9007199254740992 9007199254740993 := by decide +kernel
    have hthree : ¬ SameFloat 3 9007199254740993 := by decide +kernel
    have hlast : SameFloat 9007199254740993 9007199254740993 := by decide +kernel
    have hmet (k : Nat) : Satisfies (byId 9007199254740993 .and) [("id", Json.nat k)]
        ↔ SameFloat k 9007199254740993 := satisfies_byId rfl
    simp [neighbours, hmet, hfirst, hthree, hlast]
  refine ⟨htable, identified_neighbours, by simp [neighbours], ?_, ?_⟩
  · rw [answer_getSingle htable, hselected]
    rfl
  · obtain ⟨m', hanswer, -⟩ := answer_delete htable (byId 9007199254740993 .and)
    rw [hanswer, hselected]
    rfl

end Memory

end FlowGraph.Store
