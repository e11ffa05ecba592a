/-
Rows in an order.

Rows are sorted by a routine that compares them, and all that is known of such a routine is what it
promises.  That is a `Sorter`.  It loses no row; and where comparing is a total order on the rows
(`TotalOn`) it gives them back so that each stands in front of those that come after it, and equal
ones stand as they did (`Arranged`).  Otherwise the rows may come in any order, and the routine may
give up.

Comparing values is no total order.  Texts are compared with one another as texts and with numbers
as numbers, and a text that is no number is taken for equal to all numbers.  So there is an order on
texts and one on numbers, but none on both together (`getAll_unsorted`).

Inserting is a routine of this kind (`Sorter.insertion`).  `Precedes` says of any two rows which of
them is to stand in front, and that it is transitive is all that an insertion needs
(`pairwise_inOrder`).
-/
import FlowGraph.Proofs.Condition.Loose
import FlowGraph.Proofs.Store.Selection
import Mathlib.Data.List.Perm.Basic

namespace FlowGraph.Store.Memory

/-! ### Inserting -/

section Inserting

variable {α β : Type} {order : α → α → Ordering}

theorem putBack_perm (x : α) (ys : List α) : (putBack order x ys).Perm (x :: ys) := by
  induction ys with
  | nil => exact .refl _
  | cons y rest ih =>
      rw [putBack]
      split
      · exact (ih.cons y).trans (.swap x y rest)
      · exact .refl _

theorem foldl_putBack_perm (xs placed : List α) :
    (xs.foldl (fun placed x => putBack order x placed) placed).Perm (xs ++ placed) := by
  induction xs generalizing placed with
  | nil => exact .refl _
  | cons x rest ih =>
      exact (ih _).trans (((putBack_perm x placed).append_left rest).trans List.perm_middle)

/-- No element is lost. -/
theorem inOrder_perm (xs : List α) : (inOrder order xs).Perm xs := by
  have hall : (xs.foldl (fun placed x => putBack order x placed) []).Perm (xs ++ []) :=
    foldl_putBack_perm xs []
  rw [List.append_nil] at hall
  exact (List.reverse_perm _).trans hall

theorem map_putBack (f : β → α) (x : β) (ys : List β) :
    (putBack (fun a b => order (f a) (f b)) x ys).map f = putBack order (f x) (ys.map f) := by
  induction ys with
  | nil => rfl
  | cons y rest ih =>
      rw [putBack, List.map_cons, putBack]
      split
      · rw [List.map_cons, ih]
      · rfl

/-- Elements are put in the order of what is read off them. -/
theorem map_inOrder (f : β → α) (xs : List β) :
    (inOrder (fun a b => order (f a) (f b)) xs).map f = inOrder order (xs.map f) := by
  have hfold : ∀ placed : List β,
      (xs.foldl (fun placed x => putBack (fun a b => order (f a) (f b)) x placed) placed).map f
        = (xs.map f).foldl (fun placed x => putBack order x placed) (placed.map f) := by
    induction xs with
    | nil => exact fun _ => rfl
    | cons x rest ih =>
        intro placed
        rw [List.foldl_cons, ih, map_putBack, List.map_cons, List.foldl_cons]
  rw [inOrder, List.map_reverse, hfold]
  rfl

variable {r : α → α → Prop} {l : List α}

/-- An element is put between those that stand in front of it and those that stand behind it. -/
theorem pairwise_putBack (htrans : ∀ a ∈ l, ∀ b ∈ l, ∀ c ∈ l, r a b → r b c → r a c) {x : α}
    (hx : x ∈ l) {ys : List α} (hys : ∀ y ∈ ys, y ∈ l) (hplaced : ys.Pairwise (flip r))
    (hbefore : ∀ y ∈ ys, if order x y = .lt then r x y else r y x) :
    (putBack order x ys).Pairwise (flip r) := by
  induction ys with
  | nil => exact List.pairwise_singleton _ _
  | cons y rest ih =>
      obtain ⟨hy, hrest⟩ := List.forall_mem_cons.mp hys
      obtain ⟨hhead, htail⟩ := List.pairwise_cons.mp hplaced
      obtain ⟨hxy, hxrest⟩ := List.forall_mem_cons.mp hbefore
      rw [putBack]
      split
      · rename_i hlt
        rw [if_pos hlt] at hxy
        refine List.pairwise_cons.mpr ⟨fun z hz => ?_, ih hrest htail hxrest⟩
        rcases List.mem_cons.mp ((putBack_perm x rest).mem_iff.mp hz) with rfl | hz
        · exact hxy
        · exact hhead z hz
      · rename_i hlt
        rw [if_neg hlt] at hxy
        refine List.pairwise_cons.mpr ⟨fun z hz => ?_, hplaced⟩
        rcases List.mem_cons.mp hz with rfl | hz
        · exact hxy
        · exact htrans z (hrest z hz) y hy x hx (hhead z hz) hxy

/-- **Inserting puts elements in an order that is transitive on them.** -/
theorem pairwise_inOrder (htrans : ∀ a ∈ l, ∀ b ∈ l, ∀ c ∈ l, r a b → r b c → r a c)
    (hl : l.Pairwise fun y x => if order x y = .lt then r x y else r y x) :
    (inOrder order l).Pairwise r := by
  have hfold : ∀ xs placed : List α, (∀ x ∈ xs, x ∈ l) → (∀ y ∈ placed, y ∈ l) →
      placed.Pairwise (flip r) →
      (∀ y ∈ placed, ∀ x ∈ xs, if order x y = .lt then r x y else r y x) →
      xs.Pairwise (fun y x => if order x y = .lt then r x y else r y x) →
      (xs.foldl (fun placed x => putBack order x placed) placed).Pairwise (flip r) := by
    intro xs
    induction xs with
    | nil => exact fun _ _ _ hplaced _ _ => hplaced
    | cons x rest ih =>
        intro placed hxs hys hplaced hmeet hrest
        obtain ⟨hx, hrestl⟩ := List.forall_mem_cons.mp hxs
        obtain ⟨hnext, hrest⟩ := List.pairwise_cons.mp hrest
        have hmem : ∀ y ∈ putBack order x placed, y = x ∨ y ∈ placed := fun y hy =>
          List.mem_cons.mp ((putBack_perm x placed).mem_iff.mp hy)
        refine ih _ hrestl (fun y hy => ?_) ?_ (fun y hy z hz => ?_) hrest
        · exact (hmem y hy).elim (fun h => h ▸ hx) (hys y)
        · exact pairwise_putBack htrans hx hys hplaced fun y hy => hmeet y hy x List.mem_cons_self
        · rcases hmem y hy with rfl | hy
          · exact hnext z hz
          · exact hmeet y hy z (List.mem_cons_of_mem _ hz)
  exact List.pairwise_reverse.mpr
    (hfold l [] (fun _ h => h) (by simp) List.Pairwise.nil (by simp) hl)

end Inserting

/-! ### Arrangements -/

section Arrangements

variable {α : Type} {order : α → α → Ordering} {xs ys ys' : List α} {x y z : α × Nat}

/-- To compare is a total order on the elements of a list. -/
structure TotalOn (order : α → α → Ordering) (xs : List α) : Prop where
  swap : ∀ x ∈ xs, ∀ y ∈ xs, order y x = (order x y).swap
  trans : ∀ x ∈ xs, ∀ y ∈ xs, ∀ z ∈ xs, order x y ≠ .gt → order y z ≠ .gt → order x z ≠ .gt

instance : Decidable (TotalOn order xs) :=
  decidable_of_iff
    ((∀ x ∈ xs, ∀ y ∈ xs, order y x = (order x y).swap) ∧
      ∀ x ∈ xs, ∀ y ∈ xs, ∀ z ∈ xs, order x y ≠ .gt → order y z ≠ .gt → order x z ≠ .gt)
    ⟨fun h => ⟨h.1, h.2⟩, fun h => ⟨h.swap, h.trans⟩⟩

/-- Of two elements of a list, the first one is to stand in front of the second: it comes before it,
or they are equal and it stood in front of it. -/
def Precedes (order : α → α → Ordering) (x y : α × Nat) : Prop :=
  order x.1 y.1 = .lt ∨ (order x.1 y.1 = .eq ∧ x.2 < y.2)

/-- A list holds the elements of another one, in order. -/
def Arranged (order : α → α → Ordering) (xs ys : List α) : Prop :=
  ∃ placed : List (α × Nat), placed.Perm xs.zipIdx ∧ placed.map Prod.fst = ys ∧
    placed.Pairwise (Precedes order)

instance : DecidableRel (Precedes order) := fun x y =>
  inferInstanceAs (Decidable (order x.1 y.1 = .lt ∨ (order x.1 y.1 = .eq ∧ x.2 < y.2)))

theorem Precedes.not_after (h : Precedes order x y) : order x.1 y.1 ≠ .gt := by
  rcases h with h | ⟨h, -⟩ <;> rw [h] <;> decide

/-- Where neither comes after the other, it is their places that count. -/
theorem Precedes.place_lt (h : Precedes order x y) (hswap : order y.1 x.1 = (order x.1 y.1).swap)
    (hback : order y.1 x.1 ≠ .gt) : x.2 < y.2 := by
  rcases h with h | ⟨-, h⟩
  · rw [hswap, h] at hback
    exact absurd rfl hback
  · exact h

theorem Precedes.asymm (hswap : order y.1 x.1 = (order x.1 y.1).swap) (h : Precedes order x y) :
    ¬ Precedes order y x := by
  intro h'
  have hswap' : order x.1 y.1 = (order y.1 x.1).swap := by rw [hswap, Ordering.swap_swap]
  exact Nat.lt_asymm (h.place_lt hswap h'.not_after) (h'.place_lt hswap' h.not_after)

theorem fst_mem {placed : List (α × Nat)} (hperm : placed.Perm xs.zipIdx) (hx : x ∈ placed) :
    x.1 ∈ xs :=
  List.fst_mem_of_mem_zipIdx (hperm.mem_iff.mp hx)

/-- An arrangement is the only one. -/
theorem Arranged.unique (hswap : ∀ x ∈ xs, ∀ y ∈ xs, order y x = (order x y).swap)
    (h : Arranged order xs ys) (h' : Arranged order xs ys') : ys = ys' := by
  obtain ⟨placed, hperm, rfl, hplaced⟩ := h
  obtain ⟨placed', hperm', rfl, hplaced'⟩ := h'
  have hsame : placed = placed' := by
    refine (hperm.trans hperm'.symm).eq_of_pairwise (fun a b ha hb hab hba => ?_) hplaced hplaced'
    exact absurd hba (hab.asymm (hswap _ (fst_mem hperm ha) _ (fst_mem hperm' hb)))
  rw [hsame]

/-- Elements of a list, where the place of each is known. -/
theorem pairwise_zipIdx (hswap : ∀ x ∈ xs, ∀ y ∈ xs, order y x = (order x y).swap) (n : Nat) :
    (xs.zipIdx n).Pairwise fun y x =>
      if order x.1 y.1 = .lt then Precedes order x y else Precedes order y x := by
  induction xs generalizing n with
  | nil => exact List.Pairwise.nil
  | cons x rest ih =>
      refine List.pairwise_cons.mpr ⟨fun y hy => ?_, ih (fun a ha b hb => ?_) (n + 1)⟩
      · have hplace : n < y.2 := (List.mem_zipIdx (x := y.1) (i := y.2) hy).1
        have hback := hswap _ (List.mem_cons_of_mem x (List.fst_mem_of_mem_zipIdx hy)) x
          List.mem_cons_self
        split
        · rename_i hlt
          exact Or.inl hlt
        · rename_i hlt
          cases horder : order y.1 x with
          | lt => exact absurd horder hlt
          | eq => exact Or.inr ⟨by rw [hback, horder]; rfl, hplace⟩
          | gt => exact Or.inl (by rw [hback, horder]; rfl)
      · exact hswap a (List.mem_cons_of_mem x ha) b (List.mem_cons_of_mem x hb)

/-- **Where to compare is a total order, inserting arranges.** -/
theorem arranged_inOrder (h : TotalOn order xs) : Arranged order xs (inOrder order xs) := by
  have hmap : (inOrder (fun a b => order a.1 b.1) xs.zipIdx).map Prod.fst = inOrder order xs := by
    rw [map_inOrder, List.zipIdx_map_fst]
  refine ⟨_, inOrder_perm _, hmap,
    pairwise_inOrder (fun a ha b hb c hc hab hbc => ?_) (pairwise_zipIdx h.swap 0)⟩
  replace ha := List.fst_mem_of_mem_zipIdx ha
  replace hb := List.fst_mem_of_mem_zipIdx hb
  replace hc := List.fst_mem_of_mem_zipIdx hc
  have hac := h.trans _ ha _ hb _ hc hab.not_after hbc.not_after
  cases horder : order a.1 c.1 with
  | lt => exact Or.inl horder
  | gt => exact absurd horder hac
  | eq =>
      -- The three are equal, so that their places decide.
      have hca : order c.1 a.1 ≠ .gt := by
        rw [h.swap _ ha _ hc, horder]
        decide
      have hba := h.trans _ hb _ hc _ ha hbc.not_after hca
      have hcb := h.trans _ hc _ ha _ hb hca hab.not_after
      exact Or.inr ⟨horder, Nat.lt_trans (hab.place_lt (h.swap _ ha _ hb) hba)
        (hbc.place_lt (h.swap _ hb _ hc) hcb)⟩

end Arrangements

/-! ### Routines -/

/-- What a routine promises that sorts rows.  It sees no rows but those that it sorts, so it is on
these that the order has to be total.  The same rows are sorted in the same way each time. -/
structure Sorter where
  /-- The rows in an order, unless the routine gives up. -/
  sort : Sorting Option
  perm : ∀ {order rows sorted}, sort order rows = some sorted → sorted.Perm rows
  stable : ∀ {order rows}, TotalOn order rows →
    ∃ sorted, sort order rows = some sorted ∧ Arranged order rows sorted

namespace Sorter

/-- Sorting that always gives the rows back. -/
def insertion : Sorter where
  sort order rows := some (inOrder order rows)
  perm h := Option.some.inj h ▸ inOrder_perm _
  stable h := ⟨_, rfl, arranged_inOrder h⟩

/-- Sorting that gives up wherever it may. -/
def strict : Sorter where
  sort order rows := if TotalOn order rows then some (inOrder order rows) else none
  perm h := by
    split at h
    · exact Option.some.inj h ▸ inOrder_perm _
    · exact nomatch h
  stable h := ⟨_, if_pos h, arranged_inOrder h⟩

theorem strict_sort {order : Row → Row → Ordering} {rows : List Row} (h : ¬ TotalOn order rows) :
    strict.sort order rows = none :=
  if_neg h

end Sorter

/-! ### Rows -/

section Rows

open Json Decimal

variable {s : SortBy}

theorem compareRows_swap (s : SortBy) (x y : Row) :
    compareRows s y x = (compareRows s x y).swap := by
  rw [compareRows, compareRows, looseOrder_swap (cell x s.column) (cell y s.column)]
  cases looseOrder (cell x s.column) (cell y s.column) <;> cases s.direction <;> rfl

/-- Values have places in an order, and there they are compared. -/
def Placed {ι : Type} [LinearOrder ι] (place : Json → Option ι) : Prop :=
  ∀ {a b : Json} {p q : ι}, place a = some p → place b = some q →
    looseOrder a b = some (compare p q)

theorem placed_text : Placed text? := by
  intro a b s t ha hb
  rw [looseOrder_eq, ha, hb]

/-- Where a number stands among the others.  Texts stand nowhere. -/
def numberPlace (j : Json) : Option (ℤ ×ₗ ℤ ×ₗ ℤ) :=
  match text? j with
  | some _ => none
  | none => placeOf j.looseNumber

theorem placed_number : Placed numberPlace := by
  intro a b p q ha hb
  rw [numberPlace] at ha hb
  rw [looseOrder_eq]
  cases hta : text? a with
  | some s => rw [hta] at ha; cases ha
  | none =>
    rw [hta] at ha
    cases htb : text? b with
    | some t => rw [htb] at hb; cases hb
    | none =>
      rw [htb] at hb
      simp only [floatOrder_eq, ha, hb, Option.bind_some, Option.map_some]

/-- Whatever is no text has a place. -/
theorem exists_numberPlace {j : Json} (hj : j.Legal) (htext : text? j = none) :
    ∃ p, numberPlace j = some p := by
  rw [numberPlace, htext]
  exact exists_placeOf (isFinite_looseNumber hj htext)

/-- Where values have places, to compare rows is a total order. -/
theorem totalOn_of_placed {ι : Type} [LinearOrder ι] {place : Json → Option ι} (h : Placed place)
    {rows : List Row} (hrows : ∀ row ∈ rows, ∃ p, place (cell row s.column) = some p) :
    TotalOn (compareRows s) rows where
  swap x _ y _ := compareRows_swap s x y
  trans x hx y hy z hz hxy hyz := by
    obtain ⟨p, hp⟩ := hrows x hx
    obtain ⟨q, hq⟩ := hrows y hy
    obtain ⟨o, ho⟩ := hrows z hz
    rw [compareRows, h hp hq, Option.getD_some] at hxy
    rw [compareRows, h hq ho, Option.getD_some] at hyz
    rw [compareRows, h hp ho, Option.getD_some]
    generalize s.direction = direction at hxy hyz ⊢
    cases direction with
    | ascending =>
        simp only [ne_eq, compare_gt_iff_gt, not_lt] at hxy hyz ⊢
        exact hxy.trans hyz
    | descending =>
        simp only [ne_eq, Ordering.swap_eq_gt, compare_lt_iff_lt, not_lt] at hxy hyz ⊢
        exact hyz.trans hxy

variable {m : Memory} {name : String} {rows : List Row}

/-- Values that are all texts, or none of which is a text, are compared by a total order. -/
theorem totalOn_uniform {selected : List Row}
    (h : (∀ row ∈ selected, ∃ t, text? (cell row s.column) = some t) ∨
      ∀ row ∈ selected, (cell row s.column).Legal ∧ text? (cell row s.column) = none) :
    TotalOn (compareRows s) selected := by
  rcases h with htext | hnumber
  · exact totalOn_of_placed placed_text htext
  · exact totalOn_of_placed placed_number fun row hrow =>
      exists_numberPlace (hnumber row hrow).1 (hnumber row hrow).2

/-- A database answers with the rows that inserting gives. -/
theorem getAll_insertion (m : Memory) (name : String) (filters : List Filter)
    (limit offset : Option Nat) (sort : Option SortBy) :
    m.getAll Sorter.insertion.sort name filters limit offset sort
      = some (m.answer (.getAll name filters limit offset sort)).1 := by
  rw [answer, getAll, getAll]
  cases m.table name with
  | error e => rfl
  | ok rows => cases sort <;> rfl

/-- **Sorted rows are those that are selected, arranged if they have an order.**  However they are
sorted, no row is lost or comes twice.  Where to compare them is a total order, they are answered,
and in the one way in which they can be arranged.  That is so if the values they are sorted by are
all texts, or if none of them is. -/
theorem getAll_sorted (sorter : Sorter) (h : Entries.find? name m.tables = some rows)
    (filters : List Filter) (s : SortBy) :
    let selected := rows.filter (Satisfies filters ·)
    (∀ answer, m.getAll sorter.sort name filters none none (some s) = some answer →
        ∃ sorted, answer = .ok (rowsValue sorted) ∧ sorted.Perm selected) ∧
      (TotalOn (compareRows s) selected →
        ∃ sorted, m.getAll sorter.sort name filters none none (some s)
            = some (.ok (rowsValue sorted)) ∧
          ∀ ys, Arranged (compareRows s) selected ys ↔ ys = sorted) ∧
      ((∀ row ∈ selected, ∃ t, text? (cell row s.column) = some t) ∨
          (∀ row ∈ selected, (cell row s.column).Legal ∧ text? (cell row s.column) = none) →
        TotalOn (compareRows s) selected) := by
  have hanswered : m.getAll sorter.sort name filters none none (some s)
      = (sorter.sort (compareRows s) (rows.filter (Satisfies filters ·))).map
          (.ok ∘ rowsValue) := by
    rw [getAll_eq sorter.sort h, sortRows]
    cases sorter.sort (compareRows s) (rows.filter (Satisfies filters ·)) <;> rfl
  refine ⟨fun answer hanswer => ?_, fun htotal => ?_, totalOn_uniform⟩
  · rw [hanswered, Option.map_eq_some_iff] at hanswer
    obtain ⟨sorted, hsorted, rfl⟩ := hanswer
    exact ⟨sorted, rfl, sorter.perm hsorted⟩
  · obtain ⟨sorted, hsorted, harranged⟩ := sorter.stable htotal
    refine ⟨sorted, by rw [hanswered, hsorted]; rfl, fun ys => ⟨fun hys => ?_, ?_⟩⟩
    · exact hys.unique htotal.swap harranged
    · rintro rfl
      exact harranged

/-- The oldest first. -/
def byAge : SortBy := ⟨"age", .descending⟩

theorem getAll_sorted_staff :
    Entries.find? "users" staff.tables = some [aged "ada" 36, aged "alan" 41, aged "grace" 85] ∧
      TotalOn (compareRows byAge) [aged "ada" 36, aged "alan" 41, aged "grace" 85] ∧
      staff.answer (.getAll "users" [] none none (some byAge))
        = (.ok (rowsValue [aged "grace" 85, aged "alan" 41, aged "ada" 36]), staff) := by
  have htable : Entries.find? "users" staff.tables
      = some [aged "ada" 36, aged "alan" 41, aged "grace" 85] := rfl
  have htotal : TotalOn (compareRows byAge) [aged "ada" 36, aged "alan" 41, aged "grace" 85] := by
    decide +kernel
  have harranged : Arranged (compareRows byAge) [aged "ada" 36, aged "alan" 41, aged "grace" 85]
      [aged "grace" 85, aged "alan" 41, aged "ada" 36] :=
    ⟨[(aged "grace" 85, 2), (aged "alan" 41, 1), (aged "ada" 36, 0)],
      List.reverse_perm [(aged "ada" 36, 0), (aged "alan" 41, 1), (aged "grace" 85, 2)], rfl,
      by decide +kernel⟩
  obtain ⟨-, hsorted, -⟩ := getAll_sorted .insertion htable [] byAge
  rw [filter_unfiltered] at hsorted
  obtain ⟨sorted, hanswer, hall⟩ := hsorted htotal
  rw [← (hall _).mp harranged, getAll_insertion] at hanswer
  exact ⟨htable, htotal, Prod.ext (Option.some.inj hanswer) rfl⟩

/-! ### Rows without an order -/

/-- Where every element has another one that comes before it, nothing can stand in front. -/
theorem not_pairwise_of_before {rows ys : List Row} (hperm : ys.Perm rows) (hrows : rows ≠ [])
    (hbefore : ∀ x ∈ rows, ∃ y ∈ rows, compareRows s y x = .lt) :
    ¬ ys.Pairwise fun x y => compareRows s y x ≠ .lt := by
  cases ys with
  | nil => exact absurd hperm.nil_eq.symm hrows
  | cons x rest =>
      intro hys
      obtain ⟨y, hy, hlt⟩ := hbefore x (hperm.mem_iff.mp List.mem_cons_self)
      rcases List.mem_cons.mp (hperm.mem_iff.mpr hy) with rfl | hrest
      · have hself := compareRows_swap s y y
        rw [hlt] at hself
        exact nomatch hself
      · exact (List.pairwise_cons.mp hys).1 y hrest hlt

/-- The least first. -/
def byKey : SortBy := ⟨"key", .ascending⟩

/-- A row with a key. -/
def keyed (id : Int) (key : Json) : Row := [("id", .int id), ("key", key)]

/-- A table of its own. -/
def holding (rows : List Row) : Memory := { tables := [("t", rows)] }

/-- Two numbers, and a text between them that is no number. -/
def mixed : List Row := [keyed 1 (.int 2), keyed 2 (.str "abc"), keyed 3 (.int 1)]

/-- Two texts, and a number between them. -/
def circle : List Row := [keyed 1 (.str "10"), keyed 2 (.str "9"), keyed 3 (.float 9.5)]

/-- Numbers that a text keeps apart. -/
def crowd : List Row :=
  keyed 0 (.int 3) :: List.replicate 9 (keyed 1 (.int 2)) ++
    keyed 2 (.str "a") :: List.replicate 10 (keyed 3 (.int 1))

/-- Rows that are sorted, and of which the last one comes before the first.  Other rows come before
one another in a circle, so that they are in no order however they are sorted.  And with others
again a routine may give up that does all it promises. -/
theorem getAll_unsorted :
    ((holding mixed).answer (.getAll "t" [] none none (some byKey))
          = (.ok (rowsValue mixed), holding mixed) ∧
        compareRows byKey (keyed 3 (.int 1)) (keyed 1 (.int 2)) = .lt) ∧
      (∀ sorter : Sorter, ∀ ys,
        (holding circle).getAll sorter.sort "t" [] none none (some byKey)
            = some (.ok (rowsValue ys)) →
          ¬ ys.Pairwise fun x y => compareRows byKey y x ≠ .lt) ∧
      ∃ sorter : Sorter,
        (holding crowd).getAll sorter.sort "t" [] none none (some byKey) = none := by
  have htable : ∀ rows, Entries.find? "t" (holding rows).tables = some rows := fun _ => rfl
  refine ⟨⟨?mixed, by decide +kernel⟩, fun sorter ys hys => ?circle, .strict, ?crowd⟩
  case mixed =>
    have hsecond : compareRows byKey (keyed 2 (.str "abc")) (keyed 1 (.int 2)) = .eq := by
      decide +kernel
    have hthird : compareRows byKey (keyed 3 (.int 1)) (keyed 2 (.str "abc")) = .eq := by
      decide +kernel
    have hsorted : inOrder (compareRows byKey) mixed = mixed := by
      simp [mixed, inOrder, putBack, hsecond, hthird]
    rw [answer_getAll (htable mixed), filter_unfiltered, sortRows, insertion, hsorted]
    rfl
  case circle =>
    obtain ⟨hkept, -⟩ := getAll_sorted sorter (htable circle) [] byKey
    obtain ⟨sorted, hsame, hperm⟩ := hkept _ hys
    rw [filter_unfiltered] at hperm
    obtain rfl := rowsValue_injective (Except.ok.inj hsame)
    exact not_pairwise_of_before hperm (by decide) (by decide +kernel)
  case crowd =>
    have hnot : ¬ TotalOn (compareRows byKey) crowd := fun htotal =>
      htotal.trans (keyed 1 (.int 2)) (by simp [crowd]) (keyed 2 (.str "a")) (by simp [crowd])
        (keyed 3 (.int 1)) (by simp [crowd]) (by decide +kernel) (by decide +kernel)
        (by decide +kernel)
    rw [getAll_eq _ (htable crowd), filter_unfiltered, sortRows, Sorter.strict_sort hnot]
    rfl

end Rows

end FlowGraph.Store.Memory
