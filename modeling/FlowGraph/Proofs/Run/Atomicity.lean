/-
Transactions of a run are atomic.

Whatever is started in a run finds the database standing in one of two ways.  Where no
transaction is around, none is open; inside of a transaction, its tables are remembered.
So a transaction that is not inside of another opens, and how its body ends decides between
keeping and undoing.  One that is inside of another raises, and that ends the body around
it: the outer transaction fails and undoes everything.

A run may also go on forever, or end in the middle.  Nothing here asks for an end but what
is said of it.
-/
import FlowGraph.Proofs.Run.Transaction
import FlowGraph.Web.Offline

namespace FlowGraph

open Store

variable {χ : Type} [Client χ] {opened : Option Tables}

/-! ### How the database stands where something is started -/

theorem Outset.Visits.standing {o : Outset Memory χ} {v : Visit Memory χ} (h : o.Visits v)
    (ho : Standing opened o.ctx.database) : Standing opened v.ctx.database :=
  standing_carried.visits (BlockMap.does_anything _) h opened ho

/-- A loop opens its body as it found the database.  A transaction opens it only where none is open,
and then its tables are remembered. -/
theorem Visit.Opens.standing {u : Visit Memory χ} {o : Outset Memory χ} (h : u.Opens o)
    (hu : Standing opened u.ctx.database) :
    (u.block.kind ≠ .transaction ∧ Standing opened o.ctx.database) ∨
      (u.block.kind = .transaction ∧ opened = none ∧
        ∃ m, u.ctx.database = some m ∧ m.Stands none ∧ o.ctx = u.ctx.opened m) := by
  by_cases hkind : u.block.kind = .transaction
  · refine Or.inr ⟨hkind, ?_⟩
    obtain ⟨m, hm, hstands⟩ := hu
    cases h with
    | count n hbounds h => simp [Block.kind, Frame.kind] at hkind
    | each hitems h => simp [Block.kind, Frame.kind] at hkind
    | transaction hdb h =>
        obtain rfl : m = _ := Option.some.inj (hm.symm.trans hdb)
        cases opened with
        | some before =>
            rw [query_open_refused hdb hstands.mode] at h
            simp at h
        | none =>
            rw [query_open hstands.mode] at h
            exact ⟨rfl, m, hdb, hstands, (congrArg Prod.snd h).symm⟩
  · exact Or.inl ⟨hkind,
      standing_carried.opens (fun _ _ _ => BlockMap.does_anything _) h hkind opened hu⟩

namespace Starts

variable {o last : Outset Memory χ} {outer : List (Visit Memory χ)}

theorem standing (h : Starts o outer last) (ho : Standing opened o.ctx.database) :
    ∃ opened', Standing opened' last.ctx.database := by
  induction h generalizing opened with
  | self => exact ⟨opened, ho⟩
  | inside hu hopen _ ih =>
      rcases hopen.standing (hu.standing ho) with ⟨-, ho'⟩ | ⟨-, -, m, -, -, ho'⟩
      · exact ih ho'
      · exact ih (ho' ▸ Context.opened_standing _ m)

/-- Where no transaction lies between, the database stands as before. -/
theorem standing_of_loops (h : Starts o outer last)
    (hloops : ∀ u ∈ outer, u.block.kind ≠ .transaction)
    (ho : Standing opened o.ctx.database) : Standing opened last.ctx.database := by
  induction h with
  | self => exact ho
  | inside hu hopen _ ih =>
      rcases hopen.standing (hu.standing ho) with ⟨-, ho'⟩ | ⟨hkind, -⟩
      · exact ih (fun u hmem => hloops u (List.mem_cons_of_mem _ hmem)) ho'
      · exact absurd hkind (hloops _ (List.mem_cons_self ..))

/-- Inside of a transaction no other one opens its body. -/
theorem loops_of_open {before : Tables} (h : Starts o outer last)
    (ho : Standing (some before) o.ctx.database) : ∀ u ∈ outer, u.block.kind ≠ .transaction := by
  induction h with
  | self => simp
  | inside hu hopen _ ih =>
      rcases hopen.standing (hu.standing ho) with ⟨hkind, ho'⟩ | ⟨-, hnone, -⟩
      · intro u hmem
        rcases List.mem_cons.mp hmem with rfl | hmem
        · exact hkind
        · exact ih ho' u hmem
      · simp at hnone

end Starts

/-! ### How transactions end -/

section Transactions

variable {id entry : String} {next : Option String} {blocks : BlockMap} {input : Json}
  {ctx : Context Memory χ} {m : Memory}

/-- A transaction ends if its body does. -/
theorem transaction_ends (hdb : ctx.database = some m) (hm : m.Stands none)
    {result : Except RunError Output} {left : Context Memory χ}
    (h : Outset.Ends ⟨blocks, entry, input, ctx.opened m⟩ result left) :
    Visit.Ends ⟨.nested id next .transaction (some (entry, blocks)), input, ctx⟩
      (.ok (close id next result left).1)
      (leaveTransaction id (close id next result left).2).2 := by
  obtain ⟨fuel, hrun⟩ := h
  refine ⟨fuel + 1, ?_⟩
  show runTransaction id next (some (blocks.run fuel entry)) input ctx = _
  rw [runTransaction_eq id next _ input hdb hm]
  simp only at hrun
  rw [hrun]
  rfl

/-- And only then. -/
theorem Visit.Ends.settles (hdb : ctx.database = some m) (hm : m.Stands none)
    {r : Except BlockError Output} {ctx' : Context Memory χ}
    (h : Visit.Ends ⟨.nested id next .transaction (some (entry, blocks)), input, ctx⟩ r ctx') :
    ∃ inner result left,
      Visit.Opens ⟨.nested id next .transaction (some (entry, blocks)), input, ctx⟩ inner ∧
      inner.Ends result left ∧
      Visit.Settles ⟨.nested id next .transaction (some (entry, blocks)), input, ctx⟩ next left r
        ctx' result := by
  obtain ⟨fuel, hrun⟩ := h
  cases fuel with
  | zero => simp [Block.execute] at hrun
  | succ fuel =>
      have heq : runTransaction id next (some (BlockMap.run fuel blocks entry)) input ctx
          = some (r, ctx') := hrun
      rw [runTransaction_eq id next _ input hdb hm, Option.map_eq_some_iff] at heq
      obtain ⟨⟨result, left⟩, hbody, hend⟩ := heq
      obtain ⟨rfl, rfl⟩ := Prod.mk.inj hend
      refine ⟨⟨blocks, entry, input, ctx.opened m⟩, result, left,
        .transaction hdb (query_open hm.mode), ⟨fuel, hbody⟩, closes id next hdb ?_ result⟩
      exact standing_carried.run (BlockMap.does_anything blocks) fuel entry input _ _ _ hbody _
        (ctx.opened_standing m)

/-- A transaction whose body ends with an error undoes everything. -/
theorem Visit.Opens.undone {u : Visit Memory χ} {inner : Outset Memory χ} (h : u.Opens inner)
    (hkind : u.block.kind = .transaction) (hu : Standing none u.ctx.database) {e : RunError}
    {left : Context Memory χ} (he : inner.Ends (.error e) left) :
    ∃ r ctx', u.Ends r ctx' ∧ u.Undone r ctx' := by
  rcases h.standing hu with ⟨hloop, -⟩ | ⟨-, -, m, hdb, hstands, hinner⟩
  · exact absurd hkind hloop
  have hleft : Standing (some m.tables) left.database :=
    standing_carried.ends (BlockMap.does_anything _) he _
      (hinner ▸ Context.opened_standing u.ctx m)
  cases h with
  | count n hbounds h => simp [Block.kind, Frame.kind] at hkind
  | each hitems h => simp [Block.kind, Frame.kind] at hkind
  | @transaction id entry next blocks input answer ctx mid db hdb' h =>
      simp only at hinner hdb
      exact ⟨_, _, transaction_ends hdb hstands (hinner ▸ he), closes id next hdb hleft (.error e)⟩

end Transactions

/-- The block is a transaction with a body. -/
def Block.Transacts (b : Block) (next : Option String) : Prop :=
  ∃ id body, b = .nested id next .transaction (some body)

/-- The block raises an error and changes nothing. -/
def Visit.Refused (v : Visit Memory χ) : Prop :=
  ∀ fuel, v.block.execute (fuel + 1) v.params v.ctx
    = some (.error (.store (.transaction "transaction already open")), v.ctx)

theorem Block.Transacts.refused {v : Visit Memory χ} {next : Option String} {before : Tables}
    (h : v.block.Transacts next) (hv : Standing (some before) v.ctx.database) : v.Refused := by
  obtain ⟨b, params, ctx⟩ := v
  obtain ⟨id, ⟨entry, blocks⟩, rfl⟩ := h
  obtain ⟨m, hm, hstands⟩ := hv
  intro fuel
  exact runTransaction_refused id next (BlockMap.run fuel blocks entry) params hm hstands

/-- **Transactions of a run are atomic.**  Where no transaction is around it, a transaction that
comes to an end has kept what its body left, or undone everything and failed, as the body came
to an end or not; and none is open any more.  Inside of another transaction it raises and
changes nothing, and the other one undoes everything and fails.  However the run ends, no
transaction is open. -/
theorem Program.run_atomic (p : Program) (params : Json) (ctx : Context Memory χ) {m : Memory}
    (hdb : ctx.database = some m) (hidle : m.Stands none) :
    (∀ outer o v next, Starts (p.outset params ctx) outer o → o.Visits v → v.block.Transacts next →
      ((∀ u ∈ outer, u.block.kind ≠ .transaction) → ∀ r ctx', v.Ends r ctx' →
        ∃ inner result left, v.Opens inner ∧ inner.Ends result left ∧
          v.Settles next left r ctx' result) ∧
      (∀ u ∈ outer, u.block.kind = .transaction →
        v.Refused ∧ ∃ r ctx', u.Ends r ctx' ∧ u.Undone r ctx')) ∧
    ∀ fuel r ctx', p.run fuel params ctx = some (r, ctx') → Standing none ctx'.database := by
  have houtset : Standing none (p.outset params ctx).ctx.database := ⟨m, hdb, hidle⟩
  refine ⟨?_, ?_⟩
  · intro outer o v next hstarts hvisit htransacts
    refine ⟨?_, ?_⟩
    · intro hloops r ctx' hends
      obtain ⟨m', hm', hstands⟩ := hvisit.standing (hstarts.standing_of_loops hloops houtset)
      obtain ⟨b, input, place⟩ := v
      obtain ⟨id, ⟨entry, blocks⟩, rfl⟩ := htransacts
      exact hends.settles hm' hstands
    · intro u hu hkind
      obtain ⟨above, below, outside, inner, rfl, habove, hvisits, hopen, hbelow⟩ := hstarts.split hu
      -- The outer transaction could open, so none was open there, and its tables are remembered.
      obtain ⟨opened, hopened⟩ := habove.standing houtset
      have hat := hvisits.standing hopened
      rcases hopen.standing hat with ⟨hloop, -⟩ | ⟨-, rfl, before, -, -, hinner⟩
      · exact absurd hkind hloop
      have hinside : Standing (some before.tables) inner.ctx.database :=
        hinner ▸ Context.opened_standing u.ctx before
      have hloops := hbelow.loops_of_open hinside
      have hrefused : v.Refused :=
        htransacts.refused (hvisit.standing (hbelow.standing_of_loops hloops hinside))
      refine ⟨hrefused, ?_⟩
      -- The error ends every walk and every loop up to the body of the outer transaction.
      obtain ⟨e, he⟩ := hbelow.raises hloops (hvisit.raises ⟨1, hrefused 0⟩)
      exact hopen.undone hkind hat he
  · intro fuel r ctx' hrun
    obtain ⟨last, hends, hlast⟩ := Program.run_ends hrun
    rw [hlast]
    exact standing_carried.ends (BlockMap.does_anything _) hends none houtset

/-- Blocks that put in a row and then run a transaction. -/
def BlockMap.putting : BlockMap :=
  let row : StoreConfig := ⟨"rows", [], none, none, none, .obj [("id", .nat 1)], false, ""⟩
  [("put", .task "put" (some "sub") (.store .insert row)),
   ("sub", .nested "sub" none .transaction
     (some ("leaf", [("leaf", .task "leaf" none .entrypoint)])))]

/-- A transaction around them. -/
def Block.putting : Block := .nested "tx" none .transaction (some ("put", BlockMap.putting))

/-- A context with an empty database, where scripts have no values. -/
def Context.putting : Context Memory Offline :=
  { database := some {}, scripts := ⟨fun _ _ _ => .done (.ok .null)⟩ }

theorem Program.run_atomic_putting :
    Context.putting.database = some {} ∧ Memory.Stands {} none ∧
      (∃ u o v, Starts (Program.outset ⟨[("tx", .putting)], "tx"⟩ .null .putting) [u] o ∧
        o.Visits v ∧
        u.block.kind = .transaction ∧ v.block.Transacts none ∧ v.Refused ∧
        ∃ r ctx', u.Ends r ctx' ∧ u.Undone r ctx') ∧
      ∃ e ctx', Program.run 5 ⟨[("tx", .putting)], "tx"⟩ .null .putting = some (.error e, ctx') ∧
        ctx'.database = some { lastId := 1 } ∧ Standing none ctx'.database := by
  have hidle : Memory.Stands {} none := ⟨rfl, rfl⟩
  obtain ⟨hvisits, hends⟩ := Program.run_atomic ⟨[("tx", .putting)], "tx"⟩ .null .putting rfl hidle
  refine ⟨rfl, hidle, ?_, _, _, rfl, rfl, hends 5 _ _ rfl⟩
  let start : Outset Memory Offline := Program.outset ⟨[("tx", .putting)], "tx"⟩ .null .putting
  have htx : start.Visits ⟨.putting, .null, start.ctx⟩ := .here rfl
  have hopen : Visit.Opens ⟨.putting, .null, start.ctx⟩
      ⟨.putting, "put", .null, start.ctx.opened {}⟩ :=
    .transaction rfl (query_open hidle.mode)
  have hstarts : Starts start [⟨.putting, .null, start.ctx⟩] _ := .inside htx hopen .self
  have hsub : Outset.Visits ⟨.putting, "put", .null, start.ctx.opened {}⟩ _ :=
    .onward rfl ⟨1, rfl⟩ rfl (.here rfl)
  obtain ⟨hrefused, hundone⟩ :=
    (hvisits _ _ _ none hstarts hsub ⟨_, _, rfl⟩).2 _ (List.mem_singleton.mpr rfl) rfl
  exact ⟨_, _, _, hstarts, hsub, rfl, ⟨_, _, rfl⟩, hrefused, hundone⟩

end FlowGraph
