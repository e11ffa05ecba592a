/-
Where runs go wrong.

A walk is stuck where it comes to an id that it does not find, or to a block that raises or
fails.  A loop that raises because a turn of its body went wrong is stuck only in a manner of
speaking, and so is a transaction that fails because its body did.  What is at fault then is
deeper.  `FaultAt` leads there, and names the blocks that are still being run around it.

A run has at most one fault.  Blocks end in one way only, so a walk goes one way, and it ends
where it is stuck; and a loop ends with the first of its turns that goes wrong.  On the other
hand no run survives a fault: loops raise the error that their body ends with, and transactions
fail.
-/
import FlowGraph.Proofs.Run.Raising
import Mathlib.Logic.Relator

namespace FlowGraph

variable {δ χ : Type}

/-! ### There is one way only -/

/-- A walk is at a block of its map. -/
structure Outset.At (o : Outset δ χ) (v : Visit δ χ) : Prop where
  found : Entries.find? o.start o.blocks = some v.block
  params : v.params = o.params
  ctx : v.ctx = o.ctx

theorem Outset.At.unique {o : Outset δ χ} {v v' : Visit δ χ} (h : o.At v) (h' : o.At v') :
    v = v' := by
  obtain ⟨b, params, ctx⟩ := v
  obtain ⟨b', params', ctx'⟩ := v'
  obtain ⟨hb, rfl, rfl⟩ := h
  obtain ⟨hb', rfl, rfl⟩ := h'
  obtain rfl := Option.some.inj (hb.symm.trans hb')
  rfl

variable [Store.Database δ] [Client χ]

theorem Visit.Ends.unique {v : Visit δ χ} {r r' : Except BlockError Output} {ctx ctx' : Context δ χ}
    (h : v.Ends r ctx) (h' : v.Ends r' ctx') : r = r' ∧ ctx = ctx' := by
  obtain ⟨fuel, hfuel⟩ := h
  obtain ⟨fuel', hfuel'⟩ := h'
  exact Prod.mk.inj (Bounded.unique
    (fun fuel fuel' hle => v.block.execute_grows fuel fuel' hle v.params) hfuel hfuel')

theorem Outset.Ends.unique {o : Outset δ χ} {r r' : Except RunError Output}
    {ctx ctx' : Context δ χ} (h : o.Ends r ctx) (h' : o.Ends r' ctx') : r = r' ∧ ctx = ctx' := by
  obtain ⟨fuel, hfuel⟩ := h
  obtain ⟨fuel', hfuel'⟩ := h'
  exact Prod.mk.inj (Bounded.unique
    (fun _ _ hle => o.blocks.run_grows hle o.start o.params) hfuel hfuel')

/-- A walk goes on from the id where it is to the next one. -/
inductive Outset.Onward : Outset δ χ → Outset δ χ → Prop
  | mk {o : Outset δ χ} {b : Block} {r : Except BlockError Output} {mid : Context δ χ}
      {next : String} {params : Json} (hb : Entries.find? o.start o.blocks = some b)
      (hr : Visit.Ends ⟨b, o.params, o.ctx⟩ r mid)
      (hnext : Walk.after b.id r = .onward next params) :
      Onward o ⟨o.blocks, next, params, Walk.record b.id b.kind r mid⟩

theorem Outset.onward_rightUnique :
    Relator.RightUnique (Outset.Onward (δ := δ) (χ := χ)) := by
  rintro o _ _ ⟨hb, hr, hnext⟩ ⟨hb', hr', hnext'⟩
  obtain rfl := Option.some.inj (hb.symm.trans hb')
  obtain ⟨rfl, rfl⟩ := hr.unique hr'
  obtain ⟨rfl, rfl⟩ := Walk.Step.onward.inj (hnext.symm.trans hnext')
  rfl

theorem Outset.visits_iff {o : Outset δ χ} {v : Visit δ χ} :
    o.Visits v ↔ ∃ place, Relation.ReflTransGen Onward o place ∧ place.At v := by
  constructor
  · intro h
    induction h with
    | here hb => exact ⟨_, .refl, hb, rfl, rfl⟩
    | onward hb hr hnext _ ih =>
        obtain ⟨place, hpath, hat⟩ := ih
        exact ⟨place, hpath.head (.mk hb hr hnext), hat⟩
  · rintro ⟨place, hpath, hat⟩
    induction hpath using Relation.ReflTransGen.head_induction_on with
    | refl =>
        obtain ⟨b, params, ctx⟩ := v
        obtain ⟨hb, rfl, rfl⟩ := hat
        exact .here hb
    | head hstep _ ih =>
        obtain ⟨hb, hr, hnext⟩ := hstep
        exact .onward hb hr hnext ih

/-! ### Faults -/

/-- The block ends the walk that it is on, with an error. -/
def Visit.Aborts (v : Visit δ χ) (e : RunError) : Prop :=
  ∃ r mid, v.Ends r mid ∧ Walk.after v.block.id r = .aborted e

/-- The block itself is at fault: it ends the walk, and none of its bodies ended with an error. -/
structure Visit.AtFault (v : Visit δ χ) : Prop where
  aborts : ∃ e, v.Aborts e
  own : ∀ o e ctx, v.Opens o → ¬ o.Ends (.error e) ctx

/-- A walk is stuck at the id where it is: there is no such block, or the block is at fault. -/
inductive Outset.Stuck (o : Outset δ χ) : String → Prop
  | missing (hb : Entries.find? o.start o.blocks = none) : Stuck o o.start
  | block {v : Visit δ χ} (hat : o.At v) (h : v.AtFault) : Stuck o v.block.id

/-- A walk gets stuck at an id, sooner or later. -/
def Outset.Breaks (o : Outset δ χ) (id : String) : Prop :=
  ∃ place, Relation.ReflTransGen Onward o place ∧ place.Stuck id

/-- Something goes wrong at an id, while these blocks are being run around it, the outermost
first. -/
def Outset.FaultAt (o : Outset δ χ) (outer : List (Visit δ χ)) (id : String) : Prop :=
  ∃ last, Starts o outer last ∧ last.Breaks id

/-! ### No run survives a fault -/

theorem Walk.after_failure (id text : String) :
    after id (.ok (.failure text)) = .aborted (.failed id text) := rfl

/-- A block whose body ended with an error ends the walk that it is on. -/
theorem Visit.Opens.aborts {v : Visit δ χ} {o : Outset δ χ} (h : v.Opens o) {e : RunError}
    {ctx : Context δ χ} (he : o.Ends (.error e) ctx) : ∃ e', v.Aborts e' := by
  by_cases hkind : v.block.kind = .transaction
  · cases h with
    | count n hbounds h | each hitems h => exact nomatch hkind
    | @transaction id entry next blocks params answer before mid db hdb hopen =>
        obtain ⟨fuel, hfuel⟩ := he
        exact ⟨_, _, _, ⟨fuel + 1, Block.execute_succ_iff.mpr (.transactionClosed hdb hopen hfuel)⟩,
          Walk.after_failure id _⟩
  · exact ⟨_, _, _, h.raises hkind he, rfl⟩

theorem Outset.Visits.fails {o : Outset δ χ} {v : Visit δ χ} (h : o.Visits v) {e : RunError}
    (he : v.Aborts e) : ∃ ctx, o.Ends (.error e) ctx := by
  obtain ⟨r, mid, hends, hafter⟩ := he
  induction h with
  | here hb => exact ⟨_, .aborted hb hends hafter⟩
  | onward hb hr hnext _ ih =>
      obtain ⟨ctx, hrest⟩ := ih hends hafter
      exact ⟨ctx, .onward hb hr hnext hrest⟩

theorem Outset.Breaks.fails {o : Outset δ χ} {id : String} (h : o.Breaks id) :
    ∃ e ctx, o.Ends (.error e) ctx := by
  obtain ⟨place, hpath, hstuck⟩ := h
  cases hstuck with
  | missing hb =>
      induction hpath using Relation.ReflTransGen.head_induction_on with
      | refl => exact ⟨_, _, .missing hb⟩
      | head hstep _ ih =>
          obtain ⟨hfound, hr, hnext⟩ := hstep
          obtain ⟨e, ctx, hrest⟩ := ih
          exact ⟨e, ctx, .onward hfound hr hnext hrest⟩
  | block hat h =>
      obtain ⟨e, he⟩ := h.aborts
      obtain ⟨ctx, hends⟩ := (visits_iff.mpr ⟨place, hpath, hat⟩).fails he
      exact ⟨e, ctx, hends⟩

/-- **A fault ends everything that is run around it.** -/
theorem Outset.FaultAt.fails {o : Outset δ χ} {outer : List (Visit δ χ)} {id : String}
    (h : o.FaultAt outer id) : ∃ e ctx, o.Ends (.error e) ctx := by
  obtain ⟨last, hstarts, hbreaks⟩ := h
  induction hstarts with
  | self => exact hbreaks.fails
  | inside hu hopen _ ih =>
      obtain ⟨e, ctx, hends⟩ := ih hbreaks
      obtain ⟨e', he'⟩ := hopen.aborts hends
      obtain ⟨ctx', hends'⟩ := hu.fails he'
      exact ⟨e', ctx', hends'⟩

/-! ### There is one fault only -/

/-- The walk does not go on from where it is. -/
def Outset.Halts (o : Outset δ χ) : Prop := ∀ o', ¬ o.Onward o'

theorem Outset.At.halts {o : Outset δ χ} {v : Visit δ χ} (h : o.At v) {e : RunError}
    (he : v.Aborts e) : o.Halts := by
  rintro _ ⟨hb, hr, hnext⟩
  obtain ⟨r, mid, hends, hafter⟩ := he
  have hat : o.At ⟨_, o.params, o.ctx⟩ := ⟨hb, rfl, rfl⟩
  obtain rfl := h.unique hat
  obtain ⟨rfl, rfl⟩ := hends.unique hr
  exact nomatch hafter.symm.trans hnext

theorem Outset.Stuck.halts {o : Outset δ χ} {id : String} (h : o.Stuck id) : o.Halts := by
  cases h with
  | missing hb =>
      rintro _ ⟨hb', -, -⟩
      exact nomatch hb.symm.trans hb'
  | block hat h =>
      obtain ⟨e, he⟩ := h.aborts
      exact hat.halts he

/-- A walk halts in one place. -/
theorem Outset.Halts.unique {o place place' : Outset δ χ} (h : place.Halts) (h' : place'.Halts)
    (hpath : Relation.ReflTransGen Onward o place)
    (hpath' : Relation.ReflTransGen Onward o place') : place = place' := by
  have hstay : ∀ {a b : Outset δ χ}, a.Halts → Relation.ReflTransGen Onward a b → a = b := by
    intro a b ha hab
    rcases hab.cases_head with rfl | ⟨c, hac, -⟩
    · rfl
    · exact absurd hac (ha c)
  rcases Relation.ReflTransGen.total_of_right_unique onward_rightUnique hpath hpath' with hab | hba
  · exact hstay h hab
  · exact (hstay h' hba).symm

theorem Turns.mono {entry : String} {blocks : BlockMap} {values values' : List Json}
    {ctx : Context δ χ} {o : Outset δ χ} (h : Turns entry blocks values ctx o)
    (hle : values <+: values') : Turns entry blocks values' ctx o := by
  obtain ⟨more, rfl⟩ := hle
  induction h with
  | here => exact .here
  | later hv _ ih => exact .later hv ih

/-- One turn of a loop ends with an error at most. -/
theorem Turns.unique {entry : String} {blocks : BlockMap} {values : List Json} {ctx : Context δ χ}
    {o o' : Outset δ χ} (h : Turns entry blocks values ctx o)
    (h' : Turns entry blocks values ctx o') {e e' : RunError} {left left' : Context δ χ}
    (he : o.Ends (.error e) left) (he' : o'.Ends (.error e') left') : o = o' := by
  induction h with
  | here =>
      cases h' with
      | here => rfl
      | later hv _ => exact nomatch (hv.unique he).1
  | later hv _ ih =>
      cases h' with
      | here => exact nomatch (hv.unique he').1
      | later hv' h' =>
          obtain ⟨-, rfl⟩ := hv.unique hv'
          exact ih h' he

theorem Bounds.indices_mono (b : Bounds) {n n' : Nat} (hle : n ≤ n') (index : Float) :
    b.indices n index <+: b.indices n' index := by
  induction n generalizing n' index with
  | zero => exact List.nil_prefix
  | succ n ih =>
      obtain ⟨k, rfl⟩ : ∃ k, n' = k + 1 := ⟨n' - 1, by omega⟩
      cases hover : b.isOver index with
      | true => simp [indices_over hover]
      | false =>
          rw [indices_succ hover, indices_succ hover]
          exact List.cons_prefix_cons.mpr ⟨rfl, ih (by omega) _⟩

theorem Visit.Opens.unique {v : Visit δ χ} {o o' : Outset δ χ} (h : v.Opens o) (h' : v.Opens o')
    {e e' : RunError} {left left' : Context δ χ} (he : o.Ends (.error e) left)
    (he' : o'.Ends (.error e') left') : o = o' := by
  cases h with
  | @count id entry next c blocks params ctx mid bounds o n hbounds h =>
      cases h' with
      | count n' hbounds' h' =>
          obtain ⟨hsame, rfl⟩ := Prod.mk.inj (hbounds.symm.trans hbounds')
          obtain rfl := Except.ok.inj hsame
          have hle := bounds.indices_mono (Nat.le_max_left n n') bounds.start
          have hle' := bounds.indices_mono (Nat.le_max_right n n') bounds.start
          exact (h.mono (hle.map _)).unique (h'.mono (hle'.map _)) he he'
  | each hitems h =>
      cases h' with
      | each hitems' h' =>
          obtain ⟨hsame, rfl⟩ := Prod.mk.inj (hitems.symm.trans hitems')
          obtain rfl := Except.ok.inj hsame
          exact h.unique h' he he'
  | transaction hdb hopen =>
      cases h' with
      | transaction hdb' hopen' =>
          obtain rfl := Option.some.inj (hdb.symm.trans hdb')
          obtain ⟨-, rfl⟩ := Prod.mk.inj (hopen.symm.trans hopen')
          rfl

theorem Outset.Breaks.unique {o : Outset δ χ} {id id' : String} (h : o.Breaks id)
    (h' : o.Breaks id') : id = id' := by
  obtain ⟨place, hpath, hstuck⟩ := h
  obtain ⟨place', hpath', hstuck'⟩ := h'
  obtain rfl := hstuck.halts.unique hstuck'.halts hpath hpath'
  cases hstuck with
  | missing hb =>
      cases hstuck' with
      | missing => rfl
      | block hat' => exact nomatch hb.symm.trans hat'.found
  | block hat =>
      cases hstuck' with
      | missing hb' => exact nomatch hb'.symm.trans hat.found
      | block hat' => rw [hat.unique hat']

/-- A walk that gets stuck itself is not ended from inside of a block. -/
theorem Outset.Breaks.not_inside {o inner : Outset δ χ} {id : String} (h : o.Breaks id)
    {u : Visit δ χ} (hu : o.Visits u) (hopen : u.Opens inner) {e : RunError} {ctx : Context δ χ} :
    ¬ inner.Ends (.error e) ctx := by
  intro hends
  obtain ⟨place, hpath, hstuck⟩ := h
  obtain ⟨place', hpath', hat'⟩ := visits_iff.mp hu
  obtain ⟨e', he'⟩ := hopen.aborts hends
  obtain rfl := hstuck.halts.unique (hat'.halts he') hpath hpath'
  cases hstuck with
  | missing hb => exact nomatch hb.symm.trans hat'.found
  | block hat h =>
      obtain rfl := hat.unique hat'
      exact h.own _ _ _ hopen hends

/-- **There is one fault at most.** -/
theorem Outset.FaultAt.unique {o : Outset δ χ} {outer outer' : List (Visit δ χ)} {id id' : String}
    (h : o.FaultAt outer id) (h' : o.FaultAt outer' id') : outer = outer' ∧ id = id' := by
  obtain ⟨last, hstarts, hbreaks⟩ := h
  obtain ⟨last', hstarts', hbreaks'⟩ := h'
  induction hstarts generalizing outer' with
  | self =>
      cases hstarts' with
      | self => exact ⟨rfl, hbreaks.unique hbreaks'⟩
      | inside hu hopen h =>
          obtain ⟨e, ctx, hends⟩ := FaultAt.fails ⟨_, h, hbreaks'⟩
          exact absurd hends (hbreaks.not_inside hu hopen)
  | inside hu hopen h ih =>
      obtain ⟨e, ctx, hends⟩ := FaultAt.fails ⟨_, h, hbreaks⟩
      cases hstarts' with
      | self => exact absurd hends (hbreaks'.not_inside hu hopen)
      | inside hu' hopen' h' =>
          obtain ⟨e', ctx', hends'⟩ := FaultAt.fails ⟨_, h', hbreaks'⟩
          obtain ⟨place, hpath, hat⟩ := visits_iff.mp hu
          obtain ⟨place', hpath', hat'⟩ := visits_iff.mp hu'
          obtain ⟨_, haborts⟩ := hopen.aborts hends
          obtain ⟨_, haborts'⟩ := hopen'.aborts hends'
          -- Both walks halt at the block around the fault, in the one turn that went wrong.
          obtain rfl := (hat.halts haborts).unique (hat'.halts haborts') hpath hpath'
          obtain rfl := hat.unique hat'
          obtain rfl := hopen.unique hopen' hends hends'
          obtain ⟨rfl, rfl⟩ := ih hbreaks h'
          exact ⟨rfl, rfl⟩

end FlowGraph
