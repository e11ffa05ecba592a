/-
An error inside of a body ends everything around it.

A block that raises ends the walk it is on; the turn that this walk is ends the loop; and
the loop raises in turn.  Only a transaction does not raise what its body ended with.  So
the error of a block ends every loop and every walk around it, as far as the first
transaction.

Each of these endings was found with some budget, and the one around it needs a single
budget for all that it runs.  The greatest of them is enough, because a larger budget
changes no result.
-/
import FlowGraph.Proofs.Run.Execution
import FlowGraph.Proofs.Run.Visits

namespace FlowGraph

variable {δ χ : Type}

variable [Store.Database δ] [Client χ]

/-! ### Loops -/

/-- Running a body for one value after the other comes to an end. -/
def LoopEnds (entry : String) (blocks : BlockMap) (values : List Json) (ctx : Context δ χ)
    (r : Except RunError Unit) (ctx' : Context δ χ) : Prop :=
  ∃ fuel, eachLoop (blocks.run fuel entry) values ctx = some (r, ctx')

namespace LoopEnds

variable {entry : String} {blocks : BlockMap} {v : Json} {values : List Json}
  {ctx mid ctx' : Context δ χ}

theorem nil : LoopEnds entry blocks [] ctx (.ok ()) ctx := ⟨0, rfl⟩

theorem failed {e : RunError} (h : Outset.Ends ⟨blocks, entry, v, ctx⟩ (.error e) ctx') :
    LoopEnds entry blocks (v :: values) ctx (.error e) ctx' := by
  obtain ⟨fuel, hfuel⟩ := h
  exact ⟨fuel, eachLoop_cons_iff.mpr (.failed hfuel)⟩

theorem passed {out : Output} {r : Except RunError Unit}
    (hv : Outset.Ends ⟨blocks, entry, v, ctx⟩ (.ok out) mid)
    (h : LoopEnds entry blocks values mid r ctx') :
    LoopEnds entry blocks (v :: values) ctx r ctx' := by
  obtain ⟨first, hfirst⟩ := hv
  obtain ⟨rest, hrest⟩ := h
  have hturn := BlockMap.run_grows blocks (Nat.le_max_left first rest) entry _ _ _ hfirst
  have hlater := eachLoop_grows
    (fun v => BlockMap.run_grows blocks (Nat.le_max_right first rest) entry v) _ _ _ hrest
  exact ⟨max first rest, eachLoop_cons_iff.mpr (.passed hturn hlater)⟩

end LoopEnds

/-- A counting loop comes to an end, from an index on and after some turns. -/
def CountLoopEnds (b : Bounds) (body : Option (String × BlockMap)) (index : Float) (turns : Nat)
    (ctx : Context δ χ) (r : Except RunError Nat) (ctx' : Context δ χ) : Prop :=
  ∃ fuel, countLoop b (bodyRun fuel body) fuel index turns ctx = some (r, ctx')

namespace CountLoopEnds

variable {b : Bounds} {body : Option (String × BlockMap)} {entry : String} {blocks : BlockMap}
  {index : Float} {turns : Nat} {ctx mid ctx' : Context δ χ} {r : Except RunError Nat}

theorem past (hover : b.isOver index = true) :
    CountLoopEnds b body index turns ctx (.ok turns) ctx :=
  ⟨1, countLoop_succ_iff.mpr (.past hover)⟩

theorem idle (hover : b.isOver index = false)
    (h : CountLoopEnds b none (index + b.step) (turns + 1) ctx r ctx') :
    CountLoopEnds b none index turns ctx r ctx' := by
  obtain ⟨fuel, hfuel⟩ := h
  exact ⟨fuel + 1, countLoop_succ_iff.mpr (.idle hover rfl hfuel)⟩

theorem failed (hover : b.isOver index = false) {e : RunError}
    (h : Outset.Ends ⟨blocks, entry, Bounds.indexValue index, ctx⟩ (.error e) ctx') :
    CountLoopEnds b (some (entry, blocks)) index turns ctx (.error e) ctx' := by
  obtain ⟨fuel, hfuel⟩ := h
  have hturn := BlockMap.run_grows blocks (Nat.le_succ fuel) entry _ _ _ hfuel
  exact ⟨fuel + 1, countLoop_succ_iff.mpr (.failed hover rfl hturn)⟩

theorem passed (hover : b.isOver index = false) {out : Output}
    (hv : Outset.Ends ⟨blocks, entry, Bounds.indexValue index, ctx⟩ (.ok out) mid)
    (h : CountLoopEnds b (some (entry, blocks)) (index + b.step) (turns + 1) mid r ctx') :
    CountLoopEnds b (some (entry, blocks)) index turns ctx r ctx' := by
  obtain ⟨first, hfirst⟩ := hv
  obtain ⟨rest, hrest⟩ := h
  have hturn := BlockMap.run_grows blocks (Nat.le_succ_of_le (Nat.le_max_left first rest)) entry
    _ _ _ hfirst
  have hle : rest ≤ max first rest + 1 := Nat.le_succ_of_le (Nat.le_max_right first rest)
  have hbody : Option.Rel (fun run run' : BodyRun δ χ => ∀ v, (run v).Grows (run' v))
      (bodyRun rest (some (entry, blocks))) (bodyRun (max first rest + 1) (some (entry, blocks))) :=
    .some fun v => BlockMap.run_grows blocks hle entry v
  have hlater := countLoop_grows hbody b _ _ _ _ (Nat.le_max_right first rest) _ _ hrest
  exact ⟨max first rest + 1, countLoop_succ_iff.mpr (.passed hover rfl hturn hlater)⟩

/-- A counting loop ends with the error that a loop over its indices ends with. -/
theorem of_indices {e : RunError} (n : Nat) (h : LoopEnds entry blocks
      ((b.indices n index).map Bounds.indexValue) ctx (.error e) ctx') :
    CountLoopEnds b (some (entry, blocks)) index turns ctx (.error e) ctx' := by
  induction n generalizing index turns ctx with
  | zero => obtain ⟨fuel, hfuel⟩ := h; simp [Bounds.indices, eachLoop] at hfuel
  | succ n ih =>
      obtain ⟨fuel, hfuel⟩ := h
      cases hover : b.isOver index with
      | true =>
          rw [Bounds.indices_over hover] at hfuel
          cases hfuel
      | false =>
          rw [Bounds.indices_succ hover, List.map_cons, eachLoop_cons_iff] at hfuel
          cases hfuel with
          | failed hr => exact .failed hover ⟨fuel, hr⟩
          | passed hr h => exact .passed hover ⟨fuel, hr⟩ (ih ⟨fuel, h⟩)

end CountLoopEnds

theorem Turns.error {entry : String} {blocks : BlockMap} {values : List Json} {ctx : Context δ χ}
    {o : Outset δ χ} (h : Turns entry blocks values ctx o) {e : RunError} {ctx' : Context δ χ}
    (he : o.Ends (.error e) ctx') : LoopEnds entry blocks values ctx (.error e) ctx' := by
  induction h with
  | here => exact .failed he
  | later hv _ ih => exact .passed hv (ih he)

/-- A loop raises the error that a turn of it ends with. -/
theorem Visit.Opens.raises {v : Visit δ χ} {o : Outset δ χ} (h : v.Opens o)
    (hloop : v.block.kind ≠ .transaction) {e : RunError} {ctx' : Context δ χ}
    (he : o.Ends (.error e) ctx') : v.Ends (.error (.run e)) ctx' := by
  cases h with
  | count n hbounds h =>
      obtain ⟨fuel, hfuel⟩ := CountLoopEnds.of_indices n (h.error he)
      exact ⟨fuel + 1, Block.execute_succ_iff.mpr (.countFailed hbounds hfuel)⟩
  | @each id entry next c blocks params ctx mid items o hitems h =>
      obtain ⟨fuel, hfuel⟩ := h.error he
      exact ⟨fuel + 1, Block.execute_succ_iff.mpr (.eachFailed hitems hfuel)⟩
  | transaction _ _ => exact absurd rfl hloop

/-! ### Walks -/

section Walks

variable {o : Outset δ χ} {b : Block} {r : Except BlockError Output} {mid : Context δ χ}

theorem Outset.Ends.missing (hb : Entries.find? o.start o.blocks = none) :
    o.Ends (.error (.blockNotFound o.start)) o.ctx :=
  ⟨1, BlockMap.walk_succ_iff.mpr (.missing hb)⟩

/-- A block that came to an end did so with any larger budget. -/
theorem Visit.Ends.succ {v : Visit δ χ} (h : v.Ends r mid) :
    ∃ fuel, v.block.execute (fuel + 1) v.params v.ctx = some (r, mid) := by
  obtain ⟨fuel, hfuel⟩ := h
  exact ⟨fuel, v.block.execute_grows fuel (fuel + 1) (Nat.le_succ fuel) v.params v.ctx _ hfuel⟩

theorem Outset.Ends.finished (hb : Entries.find? o.start o.blocks = some b)
    (hr : Visit.Ends ⟨b, o.params, o.ctx⟩ r mid) {out : Output}
    (hafter : Walk.after b.id r = .finished out) :
    o.Ends (.ok out) (Walk.record b.id b.kind r mid) := by
  obtain ⟨fuel, hfuel⟩ := hr.succ
  exact ⟨fuel + 1, BlockMap.walk_succ_iff.mpr (.finished hb hfuel hafter)⟩

theorem Outset.Ends.aborted (hb : Entries.find? o.start o.blocks = some b)
    (hr : Visit.Ends ⟨b, o.params, o.ctx⟩ r mid) {e : RunError}
    (hafter : Walk.after b.id r = .aborted e) :
    o.Ends (.error e) (Walk.record b.id b.kind r mid) := by
  obtain ⟨fuel, hfuel⟩ := hr.succ
  exact ⟨fuel + 1, BlockMap.walk_succ_iff.mpr (.aborted hb hfuel hafter)⟩

/-- A walk ends with the error that its block raises. -/
theorem Outset.Ends.raised (hb : Entries.find? o.start o.blocks = some b) {e : BlockError}
    {ctx' : Context δ χ} (he : Visit.Ends ⟨b, o.params, o.ctx⟩ (.error e) ctx') :
    o.Ends (.error (.raised b.id e)) ctx' :=
  .aborted hb he rfl

end Walks

/-- A walk ends as it does from the successor of its block. -/
theorem Outset.Ends.onward {o : Outset δ χ} {b : Block}
    (hb : Entries.find? o.start o.blocks = some b)
    {r : Except BlockError Output} {mid ctx' : Context δ χ} {next : String} {params : Json}
    {result : Except RunError Output} (hr : Visit.Ends ⟨b, o.params, o.ctx⟩ r mid)
    (hnext : Walk.after b.id r = .onward next params)
    (h : Outset.Ends ⟨o.blocks, next, params, Walk.record b.id b.kind r mid⟩ result ctx') :
    o.Ends result ctx' := by
  obtain ⟨first, hfirst⟩ := hr
  obtain ⟨rest, hrest⟩ := h
  have hblock : b.execute (max first rest + 1) o.params o.ctx = some (r, mid) :=
    b.execute_grows first _ (by omega) o.params o.ctx _ hfirst
  have hwalk : BlockMap.walk (Block.execute (max first rest + 1)) o.blocks (max first rest) next
      params
      (Walk.record b.id b.kind r mid) = some (result, ctx') :=
    BlockMap.walk_grows (Block.execute_grows rest _ (by omega)) o.blocks rest _ next params
      (by omega)
      _ _ hrest
  exact ⟨max first rest + 1, BlockMap.walk_succ_iff.mpr (.onward hb hblock hnext hwalk)⟩

/-- A walk that comes to a block that raises ends with an error. -/
theorem Outset.Visits.raises {o : Outset δ χ} {v : Visit δ χ} (h : o.Visits v) {e : BlockError}
    {ctx' : Context δ χ} (he : v.Ends (.error e) ctx') :
    o.Ends (.error (.raised v.block.id e)) ctx' := by
  induction h with
  | here hb => exact .raised hb he
  | onward hb hr hnext _ ih => exact .onward hb hr hnext (ih he)

/-- **An error ends every walk around it**, where no transaction lies between. -/
theorem Starts.raises {o last : Outset δ χ} {outer : List (Visit δ χ)} (h : Starts o outer last)
    (hloops : ∀ u ∈ outer, u.block.kind ≠ .transaction) {e : RunError} {ctx' : Context δ χ}
    (he : last.Ends (.error e) ctx') : ∃ e', o.Ends (.error e') ctx' := by
  induction h with
  | self => exact ⟨e, he⟩
  | inside hu hopen _ ih =>
      obtain ⟨e', he'⟩ := ih (fun u hmem => hloops u (List.mem_cons_of_mem _ hmem)) he
      exact ⟨_, hu.raises (hopen.raises (hloops _ (List.mem_cons_self ..)) he')⟩

end FlowGraph
