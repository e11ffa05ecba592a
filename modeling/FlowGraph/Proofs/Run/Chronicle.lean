/-
Everything that happens is seen.

A block that a run comes to, by way of whatever bodies, is seen by the observer when it begins.
Only runs that end are meant, since of the others there is no last moment to speak of.  The induction
is on the way to the block: a walk sees the blocks that it comes to, a block sees the turns of its
body, and so what is seen deep inside is part of what is seen of the run.
-/
import FlowGraph.Proofs.Run.Observer

namespace FlowGraph

variable {δ χ : Type} [Store.Database δ] [Client χ]

/-- The walk came to an end within the budget, and what was seen of it is part of the log. -/
def Outset.LoggedIn (fuel : Nat) (o : Outset δ χ) (log : List (Moment δ χ)) : Prop :=
  (∃ r left, o.blocks.run fuel o.start o.params o.ctx = some (r, left)) ∧
    o.blocks.moments fuel o.start o.params o.ctx <:+: log

section Logged

variable {fuel : Nat} {o inner : Outset δ χ} {log log' : List (Moment δ χ)}

theorem Outset.LoggedIn.mono (h : o.LoggedIn fuel log) (hle : log <:+: log') :
    o.LoggedIn fuel log' :=
  ⟨h.1, h.2.trans hle⟩

theorem Turns.loggedIn {entry : String} {blocks : BlockMap} {values : List Json}
    {ctx left : Context δ χ} {r : Except RunError Unit} (h : Turns entry blocks values ctx o)
    (hloop : eachLoop (blocks.run fuel entry) values ctx = some (r, left)) :
    o.LoggedIn fuel (blocks.eachMoments fuel entry values ctx) := by
  induction h with
  | here =>
      rw [eachLoop_cons_iff] at hloop
      cases hloop with
      | failed hr => exact ⟨⟨_, _, hr⟩, BlockMap.eachMoments_failed hr ▸ List.infix_rfl⟩
      | passed hr hloop =>
          refine ⟨⟨_, _, hr⟩, ?_⟩
          rw [BlockMap.eachMoments_passed hr hloop]
          exact (List.prefix_append _ _).isInfix
  | later hv _ ih =>
      rw [eachLoop_cons_iff] at hloop
      cases hloop with
      | failed hr => exact nomatch (hv.unique ⟨fuel, hr⟩).1
      | passed hr hloop =>
          obtain ⟨-, rfl⟩ := hv.unique ⟨fuel, hr⟩
          refine (ih hloop).mono ?_
          rw [BlockMap.eachMoments_passed hr hloop]
          exact (List.suffix_append _ _).isInfix

/-- The number of indices that a turn is found among and the budget of the loop are not the same. -/
theorem Turns.loggedIn_count {b : Bounds} {entry : String} {blocks : BlockMap} (n : Nat) :
    ∀ (k : Nat) {index : Float} {turns : Nat} {ctx left : Context δ χ} {r : Except RunError Nat},
      Turns entry blocks ((b.indices k index).map Bounds.indexValue) ctx o →
      countLoop b (bodyRun fuel (some (entry, blocks))) n index turns ctx = some (r, left) →
      o.LoggedIn fuel (blocks.countMoments fuel entry b n index turns ctx) := by
  induction n with
  | zero => intro k index turns ctx left r _ hloop; cases hloop
  | succ n ih =>
      intro k index turns ctx left r h hloop
      cases k with
      | zero => cases h
      | succ k =>
          rw [countLoop_succ_iff] at hloop
          cases hloop with
          | past hover =>
              rw [Bounds.indices_over hover] at h
              cases h
          | idle _ hnone => cases hnone
          | failed hover hsome hr =>
              obtain rfl := Option.some.inj hsome
              rw [Bounds.indices_succ hover, List.map_cons] at h
              rw [BlockMap.countMoments_failed hover hr]
              cases h with
              | here => exact ⟨⟨_, _, hr⟩, List.infix_rfl⟩
              | later hv _ => cases (hv.unique ⟨fuel, hr⟩).1
          | passed hover hsome hr hloop =>
              obtain rfl := Option.some.inj hsome
              rw [Bounds.indices_succ hover, List.map_cons] at h
              rw [BlockMap.countMoments_passed hover hr hloop]
              cases h with
              | here => exact ⟨⟨_, _, hr⟩, (List.prefix_append _ _).isInfix⟩
              | later hv h =>
                  obtain ⟨-, rfl⟩ := hv.unique ⟨fuel, hr⟩
                  exact (ih k h hloop).mono (List.suffix_append _ _).isInfix

variable {b : Block} {params : Json} {ctx mid : Context δ χ}

theorem Block.Executes.loggedIn {r : Except BlockError Output}
    (h : b.Executes fuel params ctx r mid) (hopen : Visit.Opens ⟨b, params, ctx⟩ inner) :
    inner.LoggedIn fuel (b.moments (fuel + 1) params ctx) := by
  cases hopen with
  | count n hbounds hturns =>
      rw [moments_count hbounds]
      cases h with
      | countUnset hbounds' => exact nomatch hbounds.symm.trans hbounds'
      | countDone hbounds' hloop | countFailed hbounds' hloop =>
          obtain ⟨hsame, rfl⟩ := Prod.mk.inj (hbounds.symm.trans hbounds')
          obtain rfl := Except.ok.inj hsame
          exact hturns.loggedIn_count fuel n hloop
  | each hitems hturns =>
      rw [moments_each hitems]
      cases h with
      | eachUnset hitems' => exact nomatch hitems.symm.trans hitems'
      | eachDone hitems' hloop | eachFailed hitems' hloop =>
          obtain ⟨hsame, rfl⟩ := Prod.mk.inj (hitems.symm.trans hitems')
          obtain rfl := Except.ok.inj hsame
          exact hturns.loggedIn hloop
  | transaction hdb hopened =>
      rw [moments_transaction hdb hopened]
      cases h with
      | transactionUnserved hdb' => exact nomatch hdb.symm.trans hdb'
      | transactionRefused hdb' hopened' =>
          obtain rfl := Option.some.inj (hdb.symm.trans hdb')
          exact nomatch hopened.symm.trans hopened'
      | transactionClosed hdb' hopened' hrun =>
          obtain rfl := Option.some.inj (hdb.symm.trans hdb')
          obtain ⟨-, rfl⟩ := Prod.mk.inj (hopened.symm.trans hopened')
          exact ⟨⟨_, _, hrun⟩, List.infix_rfl⟩

theorem Outset.Visits.loggedIn {v : Visit δ χ} (h : o.Visits v) :
    ∀ (n : Nat) {r : Except RunError Output} {left : Context δ χ},
      BlockMap.walk (Block.execute (fuel + 1)) o.blocks n o.start o.params o.ctx = some (r, left) →
      (∃ r' mid, v.block.Executes fuel v.params v.ctx r' mid) ∧
        .began v :: v.block.moments (fuel + 1) v.params v.ctx
          <:+: o.blocks.walkMoments (fuel + 1) n o.start o.params o.ctx := by
  induction h with
  | here hb =>
      intro n r left hwalk
      cases n with
      | zero => exact nomatch hwalk
      | succ n =>
          obtain ⟨r', mid, hr, -⟩ := BlockMap.walk_found hb hwalk
          obtain ⟨rest, hseen⟩ := BlockMap.walkMoments_found hb hwalk
          rw [hseen, Visit.around, List.append_assoc]
          exact ⟨⟨r', mid, Block.execute_succ_iff.mp hr⟩, (List.prefix_append _ _).isInfix⟩
  | onward hb hends hnext _ ih =>
      intro n r left hwalk
      cases n with
      | zero => exact nomatch hwalk
      | succ n =>
          obtain ⟨r', mid, hr, honward⟩ := BlockMap.walk_found hb hwalk
          obtain ⟨rfl, rfl⟩ := hends.unique ⟨_, hr⟩
          have hrest := honward _ _ hnext
          obtain ⟨hexecutes, hlog⟩ := ih n hrest
          refine ⟨hexecutes, hlog.trans ?_⟩
          rw [BlockMap.walkMoments_onward hb hr hnext hrest]
          exact (List.suffix_append _ _).isInfix

/-- **Every block that begins is seen**, at whatever depth. -/
theorem Starts.began {last : Outset δ χ} {outer : List (Visit δ χ)} {v : Visit δ χ}
    (h : Starts o outer last) (hv : last.Visits v) (ho : o.LoggedIn fuel log) :
    .began v ∈ log := by
  induction h generalizing fuel log with
  | self =>
      obtain ⟨⟨r, left, hrun⟩, hlog⟩ := ho
      cases fuel with
      | zero => exact nomatch hrun
      | succ fuel =>
          obtain ⟨-, hbegan⟩ := hv.loggedIn (fuel + 1) hrun
          exact (hbegan.trans hlog).mem (List.mem_cons_self ..)
  | inside hu hopen _ ih =>
      obtain ⟨⟨r, left, hrun⟩, hlog⟩ := ho
      cases fuel with
      | zero => exact nomatch hrun
      | succ fuel =>
          obtain ⟨⟨r', mid, hexecutes⟩, hbegan⟩ := hu.loggedIn (fuel + 1) hrun
          have hinside := ((List.suffix_cons _ _).isInfix.trans hbegan).trans hlog
          exact ih hv ((hexecutes.loggedIn hopen).mono hinside)

end Logged

end FlowGraph
