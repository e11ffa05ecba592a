/-
Who is to blame for an error.

A run that fails has a fault, and what it says of the fault is this.  The fault is the last
thing that happens, apart from the ends of the blocks around it, from the inside out.  The
error names the outermost transaction around the fault.  Loops hand errors on as they are, but
a transaction turns the error of its body into an output of its own, and what is inside of it
is not told any more.  Without a transaction the error names the place of the fault.
-/
import FlowGraph.Proofs.Run.Chronicle
import FlowGraph.Proofs.Run.Missing

namespace FlowGraph

variable {δ χ : Type}

/-- The block that an error names, of a fault inside of these blocks: the outermost transaction, or
else the place of the fault. -/
def blamed (outer : List (Visit δ χ)) (id : String) : String :=
  match outer.find? fun u => u.block.kind = .transaction with
  | some u => u.block.id
  | none => id

/-- A block with this id ends, or is missed. -/
def Moment.IsEndOf (id : String) : Moment δ χ → Prop
  | began _ => False
  | ended v => v.block.id = id
  | missed id' => id' = id

/-- In the end something goes wrong at an id, and then the blocks around it end from the inside
out. -/
def EndsWithFault (log : List (Moment δ χ)) (outer : List (Visit δ χ)) (id : String) : Prop :=
  ∃ before fault, log = before ++ fault :: outer.reverse.map .ended ∧ fault.IsEndOf id

theorem blamed_cons (u : Visit δ χ) (outer : List (Visit δ χ)) (id : String) :
    blamed (u :: outer) id
      = if u.block.kind = .transaction then u.block.id else blamed outer id := by
  by_cases hu : u.block.kind = .transaction <;> simp [blamed, hu]

namespace EndsWithFault

variable {log : List (Moment δ χ)} {outer : List (Visit δ χ)} {id : String}

theorem prepend (before : List (Moment δ χ)) (h : EndsWithFault log outer id) :
    EndsWithFault (before ++ log) outer id := by
  obtain ⟨before', fault, rfl, hfault⟩ := h
  exact ⟨before ++ before', fault, by rw [List.append_assoc], hfault⟩

theorem inside (u : Visit δ χ) (h : EndsWithFault log outer id) :
    EndsWithFault (log ++ [.ended u]) (u :: outer) id := by
  obtain ⟨before, fault, rfl, hfault⟩ := h
  exact ⟨before, fault, by simp, hfault⟩

end EndsWithFault

/-- Whatever begins, begins before the fault. -/
theorem Moment.IsEndOf.began_mem {fault : Moment δ χ} {id : String} (h : fault.IsEndOf id)
    {before : List (Moment δ χ)} {outer : List (Visit δ χ)} {v : Visit δ χ}
    (hv : .began v ∈ before ++ fault :: outer.reverse.map .ended) : .began v ∈ before := by
  rcases List.mem_append.mp hv with hbefore | hafter
  · exact hbefore
  · rcases List.mem_cons.mp hafter with rfl | hends
    · exact h.elim
    · obtain ⟨u, -, hu⟩ := List.mem_map.mp hends
      exact nomatch hu

variable [Store.Database δ] [Client χ]

/-! ### What an error tells -/

/-- Something went wrong in a walk, the error names who is to blame, and nothing happened after. -/
def Outset.Explains (o : Outset δ χ) (log : List (Moment δ χ)) (e : RunError) : Prop :=
  ∃ outer id, o.FaultAt outer id ∧ e.blockId = blamed outer id ∧ EndsWithFault log outer id

namespace Outset.Explains

variable {o inner : Outset δ χ} {log : List (Moment δ χ)} {e e' : RunError} {v : Visit δ χ}

theorem missing (hb : Entries.find? o.start o.blocks = none) :
    o.Explains [.missed o.start] (.blockNotFound o.start) :=
  ⟨[], o.start, ⟨o, .self, o, .refl, .missing hb⟩, rfl, [], _, rfl, rfl⟩

theorem own (hat : o.At v) (hv : v.AtFault) (he : e.blockId = v.block.id) :
    o.Explains (log ++ [.ended v]) e :=
  ⟨[], _, ⟨o, .self, o, .refl, .block hat hv⟩, he, log, _, rfl, rfl⟩

theorem inside (hv : o.Visits v) (hopen : v.Opens inner) (h : inner.Explains log e)
    (he : e'.blockId = if v.block.kind = .transaction then v.block.id else e.blockId) :
    o.Explains (log ++ [.ended v]) e' := by
  obtain ⟨outer, id, ⟨last, hstarts, hbreaks⟩, hblame, hlog⟩ := h
  exact ⟨v :: outer, id, ⟨last, .inside hv hopen hstarts, hbreaks⟩,
    by rw [he, blamed_cons, hblame], hlog.inside v⟩

theorem prepend (before : List (Moment δ χ)) (h : o.Explains log e) :
    o.Explains (before ++ log) e := by
  obtain ⟨outer, id, hfault, hblame, hlog⟩ := h
  exact ⟨outer, id, hfault, hblame, hlog.prepend before⟩

theorem onward {o' : Outset δ χ} (hstep : o.Onward o') (h : o'.Explains log e) :
    o.Explains log e := by
  obtain ⟨outer, id, ⟨last, hstarts, hbreaks⟩, hblame, hlog⟩ := h
  refine ⟨outer, id, ?_, hblame, hlog⟩
  cases hstarts with
  | self =>
      obtain ⟨place, hpath, hstuck⟩ := hbreaks
      exact ⟨o, .self, place, hpath.head hstep, hstuck⟩
  | inside hu hopen hstarts =>
      obtain ⟨hb, hr, hnext⟩ := hstep
      exact ⟨last, .inside (.onward hb hr hnext hu) hopen hstarts, hbreaks⟩

end Outset.Explains

/-! ### Loops -/

section Loops

variable {entry : String} {inner : BlockMap} {fuel : Nat} {e : RunError} {left : Context δ χ}

/-- A loop ends with the error of a turn, which is the last thing that happens in it. -/
theorem eachLoop_fault : ∀ (values : List Json) {ctx : Context δ χ},
    eachLoop (inner.run fuel entry) values ctx = some (.error e, left) →
    ∃ v mid before, Turns entry inner values ctx ⟨inner, entry, v, mid⟩ ∧
      inner.run fuel entry v mid = some (.error e, left) ∧
      inner.eachMoments fuel entry values ctx = before ++ inner.moments fuel entry v mid := by
  intro values
  induction values with
  | nil => intro ctx h; exact nomatch h
  | cons v rest ih =>
      intro ctx h
      rw [eachLoop_cons_iff] at h
      cases h with
      | failed hr => exact ⟨v, ctx, [], .here, hr, BlockMap.eachMoments_failed hr⟩
      | passed hr h =>
          obtain ⟨v', mid, before, hturn, hfail, hlog⟩ := ih h
          exact ⟨v', mid, inner.moments fuel entry v ctx ++ before, .later ⟨fuel, hr⟩ hturn, hfail,
            by rw [BlockMap.eachMoments_passed hr h, hlog, List.append_assoc]⟩

theorem countLoop_fault {b : Bounds} {body : Option (String × BlockMap)} :
    ∀ (n : Nat) {index : Float} {turns : Nat} {ctx : Context δ χ},
      countLoop b (bodyRun fuel body) n index turns ctx = some (.error e, left) →
      ∃ entry inner v mid before, body = some (entry, inner) ∧
        Turns entry inner ((b.indices n index).map Bounds.indexValue) ctx ⟨inner, entry, v, mid⟩ ∧
        inner.run fuel entry v mid = some (.error e, left) ∧
        inner.countMoments fuel entry b n index turns ctx
          = before ++ inner.moments fuel entry v mid := by
  intro n
  induction n with
  | zero => intro index turns ctx h; exact nomatch h
  | succ n ih =>
      intro index turns ctx h
      rw [countLoop_succ_iff] at h
      cases h with
      | idle hover hnone h =>
          have hbody : body = none := Option.map_eq_none_iff.mp hnone
          subst hbody
          obtain ⟨_, _, _, _, _, hsome, -⟩ := ih h
          exact nomatch hsome
      | failed hover hsome hr =>
          obtain ⟨⟨entry, inner⟩, rfl, rfl⟩ := Option.map_eq_some_iff.mp hsome
          refine ⟨entry, inner, _, ctx, [], rfl, ?_, hr, ?_⟩
          · rw [Bounds.indices_succ hover, List.map_cons]
            exact .here
          · exact BlockMap.countMoments_failed hover hr
      | passed hover hsome hr h =>
          obtain ⟨⟨entry, inner⟩, rfl, rfl⟩ := Option.map_eq_some_iff.mp hsome
          obtain ⟨_, _, v, mid, before, hbody, hturn, hfail, hlog⟩ := ih h
          obtain ⟨rfl, rfl⟩ := Prod.mk.inj (Option.some.inj hbody)
          refine ⟨entry, inner, v, mid,
            inner.moments fuel entry (Bounds.indexValue index) ctx ++ before, rfl, ?_, hfail, ?_⟩
          · rw [Bounds.indices_succ hover, List.map_cons]
            exact .later ⟨fuel, hr⟩ hturn
          · rw [BlockMap.countMoments_passed hover hr h, hlog, List.append_assoc]

end Loops

/-! ### Blocks -/

section Blocks

variable {fuel : Nat} {b : Block} {params : Json} {ctx mid : Context δ χ}
  {r : Except BlockError Output} {e : RunError}

/-- A block that does not raise the error of a run is named by the error that it leads to. -/
theorem Walk.blockId_of_aborted {id : String} (h : after id r = .aborted e)
    (hr : ∀ inner, r ≠ .error (.run inner)) : e.blockId = id := by
  cases r with
  | ok o =>
      rw [after, afterOutput] at h
      split at h
      · obtain rfl := Step.aborted.inj h
        rfl
      · split at h <;> cases h
  | error be =>
      obtain rfl := Step.aborted.inj h
      cases be with
      | run inner => exact absurd rfl (hr inner)
      | _ => rfl

theorem Walk.after_success (id : String) (next : Option String) (v : Json) (e : RunError) :
    after id (.ok (.success next v)) ≠ .aborted e := by
  cases next <;> exact fun h => nomatch h

omit [Client χ] in
theorem Task.runBranch_error {c : BranchConfig} {id : String} {onSuccess onFailure : Option String}
    {inner : RunError} :
    (runBranch c id onSuccess onFailure params ctx).1 ≠ .error (.run inner) := by
  rw [runBranch, Act.bind_apply]
  generalize (Condition.evaluateAll (Act.script params) c.conditions).run ctx = out
  obtain ⟨r, mid⟩ := out
  cases r <;> exact fun h => nomatch h

/-- The error of a block comes from inside of its body, where it is the last thing that happens. -/
def Block.FailsInside (fuel : Nat) (b : Block) (params : Json) (ctx : Context δ χ) (e : RunError) :
    Prop :=
  ∃ inner e' left before, Visit.Opens ⟨b, params, ctx⟩ inner ∧
    inner.blocks.run fuel inner.start inner.params inner.ctx = some (.error e', left) ∧
    b.moments (fuel + 1) params ctx
      = before ++ inner.blocks.moments fuel inner.start inner.params inner.ctx ∧
    e.blockId = if b.kind = .transaction then b.id else e'.blockId

/-- **A block that ends its walk is at fault, or something inside of its body is.** -/
theorem Block.Executes.fault (h : b.Executes fuel params ctx r mid)
    (hafter : Walk.after b.id r = .aborted e) :
    (Visit.AtFault ⟨b, params, ctx⟩ ∧ e.blockId = b.id) ∨ b.FailsInside fuel params ctx e := by
  have hends : Visit.Ends ⟨b, params, ctx⟩ r mid := ⟨fuel + 1, execute_succ_iff.mpr h⟩
  -- Where no body ended with an error, the block itself is at fault, and the error names it.
  have howned : (∀ inner, r ≠ .error (.run inner)) →
      (∀ o e' left, Visit.Opens ⟨b, params, ctx⟩ o → ¬ o.Ends (.error e') left) →
      (Visit.AtFault ⟨b, params, ctx⟩ ∧ e.blockId = b.id) ∨ b.FailsInside fuel params ctx e :=
    fun hr hown => Or.inl ⟨⟨⟨e, r, mid, hends, hafter⟩, hown⟩, Walk.blockId_of_aborted hafter hr⟩
  cases h with
  | task => exact howned (by simp) (by rintro _ _ _ ⟨⟩)
  | branch => exact howned (fun _ => Task.runBranch_error) (by rintro _ _ _ ⟨⟩)
  | countUnset hbounds =>
      refine howned (by simp) ?_
      rintro o e' left (⟨n, hbounds', -⟩ | _ | _)
      cases hbounds.symm.trans hbounds'
  | eachUnset hitems =>
      refine howned (by simp) ?_
      rintro o e' left (_ | ⟨hitems', -⟩ | _)
      cases hitems.symm.trans hitems'
  | countDone | eachIdle | eachDone | transactionIdle =>
      exact absurd hafter (Walk.after_success _ _ _ _)
  | countFailed hbounds hloop =>
      obtain ⟨entry, inner, v, start, before, rfl, hturn, hfail, hlog⟩ := countLoop_fault _ hloop
      obtain rfl := Walk.Step.aborted.inj hafter
      refine Or.inr ⟨_, _, _, before, .count _ hbounds hturn, hfail, ?_, rfl⟩
      exact (moments_count hbounds).trans hlog
  | eachFailed hitems hloop =>
      obtain ⟨v, start, before, hturn, hfail, hlog⟩ := eachLoop_fault _ hloop
      obtain rfl := Walk.Step.aborted.inj hafter
      refine Or.inr ⟨_, _, _, before, .each hitems hturn, hfail, ?_, rfl⟩
      exact (moments_each hitems).trans hlog
  | transactionUnserved hdb =>
      refine howned (by simp) ?_
      rintro o e' left (_ | _ | ⟨hdb', -⟩)
      cases hdb.symm.trans hdb'
  | transactionRefused hdb hopen =>
      refine howned (by simp) ?_
      rintro o e' left (_ | _ | ⟨hdb', hopen'⟩)
      obtain rfl := Option.some.inj (hdb.symm.trans hdb')
      cases hopen.symm.trans hopen'
  | @transactionClosed id entry next inner _ answer _ start left db result hdb hopen hrun =>
      cases result with
      | ok out =>
          refine howned (by simp) ?_
          rintro o e' left (_ | _ | ⟨hdb', hopen'⟩) hfail
          obtain rfl := Option.some.inj (hdb.symm.trans hdb')
          obtain ⟨-, rfl⟩ := Prod.mk.inj (hopen.symm.trans hopen')
          cases (hfail.unique ⟨fuel, hrun⟩).1
      | error e' =>
          exact Or.inr ⟨_, e', left, [], .transaction hdb hopen, hrun,
            moments_transaction hdb hopen, Walk.blockId_of_aborted hafter (by simp)⟩

end Blocks

/-! ### Walks -/

/-- **A walk that fails is explained by what happened on it.**  A block that ends it and is not at
fault itself has a body that is explained in turn, hence the induction on the budget of bodies. -/
theorem BlockMap.run_explains : ∀ (fuel : Nat) (o : Outset δ χ) {e : RunError} {left : Context δ χ},
    o.blocks.run fuel o.start o.params o.ctx = some (.error e, left) →
    o.Explains (o.blocks.moments fuel o.start o.params o.ctx) e := by
  intro fuel
  induction fuel with
  | zero => intro o e left h; exact nomatch h
  | succ fuel ih =>
      have hwalk : ∀ (n : Nat) (o : Outset δ χ) {e : RunError} {left : Context δ χ},
          walk (Block.execute (fuel + 1)) o.blocks n o.start o.params o.ctx
            = some (.error e, left) →
          o.Explains (o.blocks.walkMoments (fuel + 1) n o.start o.params o.ctx) e := by
        intro n
        induction n with
        | zero => intro o e left h; exact nomatch h
        | succ n ihn =>
            intro o e left h
            rw [walk_succ_iff] at h
            cases h with
            | missing hb =>
                rw [walkMoments_missing hb]
                exact .missing hb
            | aborted hb hr hafter =>
                rw [walkMoments_aborted hb hr hafter]
                rcases (Block.execute_succ_iff.mp hr).fault hafter with
                  ⟨hfault, hid⟩ | ⟨inner, e', left, before, hopen, hfail, hlog, hid⟩
                · exact .own ⟨hb, rfl, rfl⟩ hfault hid
                · have hinside := (ih inner hfail).prepend before
                  rw [← hlog] at hinside
                  exact (hinside.inside (.here hb) hopen hid).prepend [.began _]
            | @onward b r mid _ next params' _ hb hr hafter h =>
                rw [walkMoments_onward hb hr hafter h]
                have hrest := ihn ⟨o.blocks, next, params', Walk.record b.id b.kind r mid⟩ h
                exact (hrest.onward (.mk hb ⟨_, hr⟩ hafter)).prepend _
      intro o e left h
      exact hwalk (fuel + 1) o h

/-! ### Runs -/

namespace Program

/-- **What the error of a run tells.**  A run that fails has a fault.  Where there is a fault, the
run fails; every block that begins, at whatever depth, begins before the fault, and after it
nothing happens but that the blocks around it end; and the error names the outermost transaction
around the fault or else the place of the fault. -/
theorem run_blames (p : Program) (params : Json) (ctx : Context δ χ) :
    (∀ fuel e ctx', p.run fuel params ctx = some (.error e, ctx') →
      ∃ outer id, (p.outset params ctx).FaultAt outer id) ∧
    ∀ outer id, (p.outset params ctx).FaultAt outer id →
      (∃ fuel e ctx', p.run fuel params ctx = some (.error e, ctx')) ∧
      ∀ fuel r ctx', p.run fuel params ctx = some (r, ctx') →
        ∃ e, r = .error e ∧ e.blockId = blamed outer id ∧
          ∃ before fault, fault.IsEndOf id ∧
            p.moments fuel params ctx = before ++ fault :: outer.reverse.map .ended ∧
            ∀ around o v, Starts (p.outset params ctx) around o → o.Visits v →
              .began v ∈ before := by
  have hexplains : ∀ fuel e ctx', p.run fuel params ctx = some (.error e, ctx') →
      (p.outset params ctx).Explains (p.moments fuel params ctx) e := by
    intro fuel e ctx' hrun
    obtain ⟨last, hwalk, -⟩ := run_iff.mp hrun
    exact BlockMap.run_explains fuel (p.outset params ctx) hwalk
  refine ⟨?_, ?_⟩
  · intro fuel e ctx' hrun
    obtain ⟨outer, id, hfault, -⟩ := hexplains fuel e ctx' hrun
    exact ⟨outer, id, hfault⟩
  · intro outer id hfault
    obtain ⟨e, last, hends⟩ := hfault.fails
    refine ⟨?_, ?_⟩
    · obtain ⟨fuel, hwalk⟩ := hends
      exact ⟨fuel, e, _, run_iff.mpr ⟨last, hwalk, rfl⟩⟩
    · intro fuel r ctx' hrun
      obtain ⟨last', hwalk, -⟩ := run_iff.mp hrun
      have hends' : (p.outset params ctx).Ends r last' := ⟨fuel, hwalk⟩
      obtain ⟨rfl, -⟩ := hends'.unique hends
      obtain ⟨outer', id', hfault', hblame, before, fault, hlog, hid⟩ := hexplains fuel e ctx' hrun
      obtain ⟨rfl, rfl⟩ := hfault.unique hfault'
      refine ⟨e, rfl, hblame, before, fault, hid, hlog, fun around o v hstarts hv => ?_⟩
      have hlogged : (p.outset params ctx).LoggedIn fuel (p.moments fuel params ctx) :=
        ⟨⟨_, _, hwalk⟩, List.infix_rfl⟩
      exact hid.began_mem (hlog ▸ hstarts.began hv hlogged)

end Program

/-- A graph with a transaction inside of a loop, whose body would start at a block that is not
there. -/
def Graph.sheltered : Graph :=
  ((((Graph.empty.addBlock "in" .entrypoint .null).addBlock "loop" .each
    (.obj [("values", .arr [.null, .bool true])])).addBlock "tx" .transaction .null).link
    "in" "loop").addEdge "loop" "tx" Slot.executor |>.addEdge "tx" "ghost" Slot.executor

/-- The transaction that it compiles to. -/
def Block.sheltered : Block := .nested "tx" none .transaction (some ("ghost", []))

/-- The program that it compiles to. -/
def Program.sheltered : Program :=
  ⟨[("in", .task "in" (some "loop") .entrypoint),
    ("loop", .nested "loop" none (.each ⟨.arr [.null, .bool true], false⟩)
      (some ("tx", [("tx", .sheltered)]))),
    ("tx", .sheltered)], "in"⟩

theorem Program.run_blames_sheltered :
    Build.result (compileGraph .sheltered true none) {} = .ok .sheltered ∧
      ∃ outer, (Program.sheltered.outset .null Context.bodiless).FaultAt outer "ghost" ∧
        ∃ fuel e ctx', Program.sheltered.run fuel .null Context.bodiless = some (.error e, ctx') ∧
          e.blockId = "tx" := by
  have hcompiled : Build.result (compileGraph .sheltered true none) {} = .ok .sheltered := rfl
  let start : Outset Store.Memory Offline := Program.sheltered.outset .null .bodiless
  have hloop : start.Visits ⟨.nested "loop" none (.each ⟨.arr [.null, .bool true], false⟩)
      (some ("tx", [("tx", .sheltered)])), _, _⟩ := .onward rfl ⟨1, rfl⟩ rfl (.here rfl)
  have hfault : start.FaultAt [_, ⟨.sheltered, _, _⟩] "ghost" :=
    ⟨_, .inside hloop (.each rfl .here) (.inside (.here rfl) (.transaction rfl rfl) .self),
      _, .refl, .missing rfl⟩
  obtain ⟨-, hblames⟩ := Program.run_blames Program.sheltered .null Context.bodiless
  obtain ⟨⟨fuel, e, ctx', hrun⟩, hall⟩ := hblames _ _ hfault
  obtain ⟨e', hsame, hblame, -⟩ := hall fuel _ ctx' hrun
  obtain rfl := Except.error.inj hsame
  exact ⟨hcompiled, _, hfault, fuel, e, ctx', hrun, hblame⟩

end FlowGraph
