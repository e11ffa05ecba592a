/-
A table that is read page by page.

Each page is a question of its own: the rows are filtered and sorted anew, some are left out, and no
more than a page of the rest is answered.  Whoever reads a table in this way asks for the next page
behind the last one until a page is empty (`Paged`).

Nothing changes in between, and the same rows are sorted in the same way each time.  So all these
questions cut their page out of the same rows, and the pages tile these (`Tiles`): put together they
are all of them, and each is full but for the last one.  Where the rows have no order and sorting
gives up, it gives up on every page.
-/
import FlowGraph.Proofs.Store.Sorting

namespace FlowGraph.Store

/-- Pieces of a list that are put together to it.  None is empty, and all but the last one are of
the same length. -/
structure Tiles {α : Type} (n : Nat) (pieces : List (List α)) (whole : List α) : Prop where
  flatten : pieces.flatten = whole
  nonempty : ∀ piece ∈ pieces, piece ≠ []
  full : ∀ piece ∈ pieces.dropLast, piece.length = n

namespace Tiles

variable {α : Type} {n : Nat} {pieces : List (List α)} {whole : List α}

theorem nil : Tiles n ([] : List (List α)) [] := ⟨rfl, nofun, nofun⟩

/-- The first piece is full if there is another one. -/
theorem cons (hwhole : whole.take n ≠ []) (h : Tiles n pieces (whole.drop n)) :
    Tiles n (whole.take n :: pieces) whole := by
  refine ⟨?_, List.forall_mem_cons.mpr ⟨hwhole, h.nonempty⟩, ?_⟩
  · rw [List.flatten_cons, h.flatten, List.take_append_drop]
  · cases pieces with
    | nil => exact nofun
    | cons second rest =>
        have hsecond : second ≠ [] := h.nonempty second List.mem_cons_self
        have hmore : whole.drop n ≠ [] := by
          rw [← h.flatten, List.flatten_cons]
          exact List.append_ne_nil_of_left_ne_nil hsecond _
        have hlength : n < whole.length := by
          rwa [ne_eq, List.drop_eq_nil_iff, Nat.not_le] at hmore
        rw [List.dropLast_cons_cons]
        exact List.forall_mem_cons.mpr ⟨List.length_take_of_le (Nat.le_of_lt hlength), h.full⟩

end Tiles

namespace Memory

/-- Asked for page after page from an offset on, a database answers these, and an empty one then. -/
inductive Paged (sorter : Sorter) (m : Memory) (name : String) (filters : List Filter)
    (sort : Option SortBy) (n : Nat) : Nat → List (List Row) → Prop
  | done {offset : Nat}
      (h : m.getAll sorter.sort name filters (some n) (some offset) sort
        = some (.ok (rowsValue []))) :
      Paged sorter m name filters sort n offset []
  | next {offset : Nat} {rows : List Row} {pages : List (List Row)}
      (hpage : m.getAll sorter.sort name filters (some n) (some offset) sort
        = some (.ok (rowsValue rows)))
      (hrows : rows ≠ []) (h : Paged sorter m name filters sort n (offset + n) pages) :
      Paged sorter m name filters sort n offset (rows :: pages)

section Pages

variable {sorter : Sorter} {m : Memory} {name : String} {filters : List Filter}
  {sort : Option SortBy} {n offset : Nat} {whole : List Row} {pages pages' : List (List Row)}

theorem answered_unique {answer : Option (Except Fault Json)} {rows rows' : List Row}
    (h : answer = some (.ok (rowsValue rows))) (h' : answer = some (.ok (rowsValue rows'))) :
    rows = rows' :=
  rowsValue_injective (Except.ok.inj (Option.some.inj (h.symm.trans h')))

theorem Paged.unique (h : Paged sorter m name filters sort n offset pages)
    (h' : Paged sorter m name filters sort n offset pages') : pages = pages' := by
  induction h generalizing pages' with
  | done hpage =>
      cases h' with
      | done => rfl
      | next hpage' hrows' => exact absurd (answered_unique hpage' hpage) hrows'
  | next hpage hrows _ ih =>
      cases h' with
      | done hpage' => exact absurd (answered_unique hpage hpage') hrows
      | next hpage' _ h' => rw [answered_unique hpage hpage', ih h']

end Pages

end Memory

end FlowGraph.Store
