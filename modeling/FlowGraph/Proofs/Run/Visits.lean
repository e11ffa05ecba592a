/-
What a run comes to.

A run is a walk, and a walk comes to blocks.  A block with a body opens it, a loop over
and over, and every time another walk sets out.  `Starts` leads from a walk to every walk
that is started because of it, at whatever depth, and names the blocks that are still
being run around it.

These relations need no budget and no end: a walk that goes on forever comes to blocks,
and opens bodies, all the same.  Where something ends, `Ends` says with what.

An error inside of a body ends everything around it, up to the first transaction.
-/
import FlowGraph.Proofs.Run.Budget
import FlowGraph.Proofs.Compile.Bodies

namespace FlowGraph

/-- A walk that is about to begin. -/
structure Outset (δ χ : Type) where
  blocks : BlockMap
  start : String
  params : Json
  ctx : Context δ χ

/-- A block that is about to be run. -/
structure Visit (δ χ : Type) where
  block : Block
  params : Json
  ctx : Context δ χ

variable {δ χ : Type} [Store.Database δ] [Client χ]

/-- The walk comes to an end, with a result and a state. -/
def Outset.Ends (o : Outset δ χ) (r : Except RunError Output) (ctx : Context δ χ) : Prop :=
  ∃ fuel, o.blocks.run fuel o.start o.params o.ctx = some (r, ctx)

/-- The block comes to an end, with a result and a state. -/
def Visit.Ends (v : Visit δ χ) (r : Except BlockError Output) (ctx : Context δ χ) : Prop :=
  ∃ fuel, v.block.execute fuel v.params v.ctx = some (r, ctx)

/-- The walk comes to a block. -/
inductive Outset.Visits : Outset δ χ → Visit δ χ → Prop
  | here {o : Outset δ χ} {b : Block} (hb : Entries.find? o.start o.blocks = some b) :
      Visits o ⟨b, o.params, o.ctx⟩
  | onward {o : Outset δ χ} {v : Visit δ χ} {b : Block} {r : Except BlockError Output}
      {ctx : Context δ χ} {next : String} {params : Json}
      (hb : Entries.find? o.start o.blocks = some b) (hr : Visit.Ends ⟨b, o.params, o.ctx⟩ r ctx)
      (hnext : Walk.after b.id r = .onward next params)
      (hv : Visits ⟨o.blocks, next, params, Walk.record b.id b.kind r ctx⟩ v) : Visits o v

/-- A loop over values runs its body with one of them, after all turns before it came to an
end. -/
inductive Turns (entry : String) (blocks : BlockMap) : List Json → Context δ χ → Outset δ χ → Prop
  | here {v : Json} {rest : List Json} {ctx : Context δ χ} :
      Turns entry blocks (v :: rest) ctx ⟨blocks, entry, v, ctx⟩
  | later {v : Json} {rest : List Json} {ctx ctx' : Context δ χ} {out : Output} {o : Outset δ χ}
      (hv : Outset.Ends ⟨blocks, entry, v, ctx⟩ (.ok out) ctx')
      (h : Turns entry blocks rest ctx' o) :
      Turns entry blocks (v :: rest) ctx o

/-- A block opens its body. -/
inductive Visit.Opens : Visit δ χ → Outset δ χ → Prop
  | count {id entry : String} {next : Option String} {c : CountConfig} {blocks : BlockMap}
      {params : Json} {ctx ctx' : Context δ χ} {bounds : Bounds} {o : Outset δ χ} (n : Nat)
      (hbounds : (resolveBounds c params).run ctx = (.ok bounds, ctx'))
      (h : Turns entry blocks ((bounds.indices n bounds.start).map Bounds.indexValue) ctx' o) :
      Opens ⟨.nested id next (.count c) (some (entry, blocks)), params, ctx⟩ o
  | each {id entry : String} {next : Option String} {c : EachConfig} {blocks : BlockMap}
      {params : Json} {ctx ctx' : Context δ χ} {items : List Json} {o : Outset δ χ}
      (hitems : (resolveItems c params).run ctx = (.ok items, ctx'))
      (h : Turns entry blocks items ctx' o) :
      Opens ⟨.nested id next (.each c) (some (entry, blocks)), params, ctx⟩ o
  | transaction {id entry : String} {next : Option String} {blocks : BlockMap}
      {params answer : Json} {ctx ctx' : Context δ χ} {db : δ} (hdb : ctx.database = some db)
      (h : ctx.query db (.setMode .transaction) = (.ok answer, ctx')) :
      Opens ⟨.nested id next .transaction (some (entry, blocks)), params, ctx⟩
        ⟨blocks, entry, params, ctx'⟩

/-- A walk is started because of another one, inside of the blocks in between, the outermost
first. -/
inductive Starts : Outset δ χ → List (Visit δ χ) → Outset δ χ → Prop
  | self {o : Outset δ χ} : Starts o [] o
  | inside {o o' last : Outset δ χ} {u : Visit δ χ} {outer : List (Visit δ χ)} (hu : o.Visits u)
      (hopen : u.Opens o') (h : Starts o' outer last) : Starts o (u :: outer) last

/-- What was started inside of a block was started by the body that the block opened. -/
theorem Starts.split {o last : Outset δ χ} {outer : List (Visit δ χ)} (h : Starts o outer last)
    {u : Visit δ χ} (hu : u ∈ outer) :
    ∃ above below place inner, outer = above ++ u :: below ∧ Starts o above place ∧
      place.Visits u ∧ u.Opens inner ∧ Starts inner below last := by
  induction h with
  | self => simp at hu
  | @inside o o' last u' outer hvisit hopen h ih =>
      rcases List.mem_cons.mp hu with rfl | hmem
      · exact ⟨[], outer, o, o', rfl, .self, hvisit, hopen, h⟩
      · obtain ⟨above, below, place, inner, rfl, habove, hat, hinner, hbelow⟩ := ih hmem
        exact ⟨u' :: above, below, place, inner, rfl, .inside hvisit hopen habove, hat, hinner,
          hbelow⟩

/-- The walk that a run of a program is. -/
def Program.outset (p : Program) (params : Json) (ctx : Context δ χ) : Outset δ χ :=
  ⟨p.blocks, p.entrypoint, params,
    ({ ctx with span := some ctx.route } : Context δ χ).note (.runStarted p.entrypoint)⟩

/-- A run is its walk, and what is written down after it. -/
theorem Program.run_iff {p : Program} {params : Json} {ctx ctx' : Context δ χ} {fuel : Nat}
    {r : Except RunError Output} :
    p.run fuel params ctx = some (r, ctx')
      ↔ ∃ last, (p.outset params ctx).blocks.run fuel p.entrypoint params (p.outset params ctx).ctx
            = some (r, last) ∧
          ctx' = { last.note (endOfRun r) with span := ctx.span } := by
  rw [run]
  dsimp only [outset]
  cases p.blocks.run fuel p.entrypoint params
      (({ ctx with span := some ctx.route } : Context δ χ).note (.runStarted p.entrypoint)) with
  | none => simp
  | some out =>
      obtain ⟨r', last⟩ := out
      simp only [Option.some.injEq, Prod.mk.injEq]
      constructor
      · rintro ⟨rfl, rfl⟩
        exact ⟨last, ⟨rfl, rfl⟩, rfl⟩
      · rintro ⟨_, ⟨rfl, rfl⟩, rfl⟩
        exact ⟨rfl, rfl⟩

/-- A run comes to the end of its walk. -/
theorem Program.run_ends {p : Program} {params : Json} {ctx ctx' : Context δ χ} {fuel : Nat}
    {r : Except RunError Output} (h : p.run fuel params ctx = some (r, ctx')) :
    ∃ last, (p.outset params ctx).Ends r last ∧ ctx'.database = last.database := by
  obtain ⟨last, hrun, rfl⟩ := run_iff.mp h
  exact ⟨last, ⟨fuel, hrun⟩, rfl⟩

/-! ### Where walks are -/

theorem Outset.Visits.mem {o : Outset δ χ} {v : Visit δ χ} (h : o.Visits v) :
    ∃ id, Entries.find? id o.blocks = some v.block := by
  induction h with
  | here hb => exact ⟨_, hb⟩
  | onward _ _ _ _ ih => exact ih

theorem Turns.place {entry : String} {blocks : BlockMap} {values : List Json} {ctx : Context δ χ}
    {o : Outset δ χ} (h : Turns entry blocks values ctx o) :
    o.start = entry ∧ o.blocks = blocks := by
  induction h with
  | here => exact ⟨rfl, rfl⟩
  | later _ _ ih => exact ih

theorem Visit.Opens.body {v : Visit δ χ} {o : Outset δ χ} (h : v.Opens o) :
    v.block.body? = some (o.start, o.blocks) := by
  cases h with
  | count n _ h => rw [h.place.1, h.place.2]; rfl
  | each _ h => rw [h.place.1, h.place.2]; rfl
  | transaction _ _ => rfl

/-- A walk that is started goes over a body that lies within the blocks of the first one. -/
theorem Starts.within {o last : Outset δ χ} {outer : List (Visit δ χ)} (h : Starts o outer last) :
    BlockMap.Within o.start o.blocks last.start last.blocks := by
  induction h with
  | self => exact .self
  | inside hu hopen _ ih =>
      obtain ⟨id, hid⟩ := hu.mem
      exact .body hid hopen.body ih

end FlowGraph
