/-
Graphs without cycles come to an end.

Nothing bounds the steps of a walk but the blocks themselves.  A block leads on over few of
its slots: a choice over `success` and `failure`, every other block over `source`.  `Follows`
is the relation between a block and where it may lead in this way.  If no block leads back to
itself, a walk never comes to an id twice, and since the blocks of a map are finitely many,
the walk comes to an end if each of its blocks does.

What is left are bodies.  They lie inside of one another only finitely often, which is the
outer induction here, and the body of a loop over a list is run once for every value, so
such a loop ends if its body does.  Counting loops are left out: their bounds are known only
when they are run, and need not be finite.

Cycles over other slots do no harm, as nothing follows them.
-/
import FlowGraph.Proofs.Run.Missing
import FlowGraph.Proofs.Run.Raising
import FlowGraph.Proofs.Run.Trail
import Mathlib.Data.Fintype.EquivFin
import Mathlib.Data.Fintype.Sets

namespace FlowGraph

/-- A walk may lead from a block to another one: over `success` or `failure` from a choice, and
over `source` from every other block. -/
inductive Net.Follows (n : Net) (id next : String) : Prop
  | source {d : BlockDef} (hd : n.block? id = some d) (hk : d.kind ≠ .branch)
      (ht : n.target? id Slot.source = some next) : Follows n id next
  | success {d : BlockDef} (hd : n.block? id = some d) (hk : d.kind = .branch)
      (ht : n.target? id Slot.success = some next) : Follows n id next
  | failure {d : BlockDef} (hd : n.block? id = some d) (hk : d.kind = .branch)
      (ht : n.target? id Slot.failure = some next) : Follows n id next

theorem Task.kind_ne_branch (t : Task) : t.kind ≠ .branch := by
  cases t with
  | store action c => cases action <;> nofun
  | read part c => cases part <;> nofun
  | _ => nofun

/-- The successors of a compiled block are those that a walk may follow. -/
theorem Block.Realizes.follows {n : Net} {d : BlockDef} {b : Block} {id next : String}
    (h : b.Realizes d (n.target? id)) (hd : n.block? id = some d) (hnext : b.HasNext next) :
    n.Follows id next := by
  have hkind := h.kind
  have hwired := h.wired
  cases b with
  | task name out t => exact .source hd (hkind ▸ t.kind_ne_branch) (hwired ▸ hnext)
  | branch name c onSuccess onFailure =>
      rcases hnext with hs | hf
      · exact .success hd hkind.symm (hwired.1 ▸ hs)
      · exact .failure hd hkind.symm (hwired.2 ▸ hf)
  | nested name out frame body =>
      have hframe : frame.kind ≠ .branch := by cases frame <;> nofun
      exact .source hd (hkind ▸ hframe) (hwired ▸ hnext)

/-! ### Walks without cycles -/

section Walks

variable {δ χ : Type} [Store.Database δ] [Client χ] {blocks : BlockMap}
  {follows : String → String → Prop}

/-- The blocks of a map lead on in a way that does not lead back. -/
structure BlockMap.Acyclic (follows : String → String → Prop) (blocks : BlockMap) : Prop where
  next : ∀ id b, Entries.find? id blocks = some b → ∀ next, b.HasNext next → follows id next
  irrefl : ∀ id, Entries.contains id blocks = true → ¬ Relation.TransGen follows id id

namespace BlockMap.Acyclic

/-- There is no endless way over the blocks of a map. -/
theorem wellFounded (h : blocks.Acyclic follows) :
    WellFounded fun x y : { id // id ∈ Entries.keys blocks } =>
      Relation.TransGen follows y.1 x.1 := by
  have htrans : IsTrans { id // id ∈ Entries.keys blocks } fun x y =>
      Relation.TransGen follows y.1 x.1 := ⟨fun _ _ _ hxy hyz => hyz.trans hxy⟩
  have hirrefl : Std.Irrefl fun x y : { id // id ∈ Entries.keys blocks } =>
      Relation.TransGen follows y.1 x.1 :=
    ⟨fun x hx => h.irrefl x.1 (Entries.contains_iff_mem_keys.mpr x.2) hx⟩
  exact Finite.wellFounded_of_trans_of_irrefl _

/-- A walk over blocks that end comes to an end, wherever it begins. -/
theorem walk_ends (h : blocks.Acyclic follows)
    (hblocks : ∀ id b, Entries.find? id blocks = some b → ∀ params (ctx : Context δ χ),
      ∃ r ctx', Visit.Ends ⟨b, params, ctx⟩ r ctx')
    (id : String) (params : Json) (ctx : Context δ χ) :
    ∃ r ctx', Outset.Ends ⟨blocks, id, params, ctx⟩ r ctx' := by
  by_cases hid : id ∈ Entries.keys blocks
  · -- The induction is on the way that is still ahead.
    obtain ⟨key, hkey⟩ : ∃ key : { id // id ∈ Entries.keys blocks }, key.1 = id :=
      ⟨⟨id, hid⟩, rfl⟩
    induction key using h.wellFounded.induction generalizing id params ctx with
    | _ key ih =>
        subst hkey
        obtain ⟨b, hb⟩ := Entries.contains_iff.mp (Entries.contains_iff_mem_keys.mpr key.2)
        obtain ⟨r, mid, hr⟩ := hblocks key.1 b hb params ctx
        cases hafter : Walk.after b.id r with
        | finished o => exact ⟨_, _, .finished hb hr hafter⟩
        | aborted e => exact ⟨_, _, .aborted hb hr hafter⟩
        | onward next params' =>
            obtain ⟨fuel, hfuel⟩ := hr
            obtain ⟨o, rfl, hnext⟩ := Walk.after_onward hafter
            have hfollows := h.next key.1 b hb next (b.execute_next hfuel hnext)
            by_cases hmem : next ∈ Entries.keys blocks
            · obtain ⟨result, ctx', hrest⟩ :=
                ih ⟨next, hmem⟩ (.single hfollows) next params' _ hmem rfl
              exact ⟨_, _, .onward hb ⟨fuel, hfuel⟩ hafter hrest⟩
            · have hnone := Entries.find?_of_notMem_keys hmem
              exact ⟨_, _, .onward hb ⟨fuel, hfuel⟩ hafter (.missing hnone)⟩
  · exact ⟨_, _, .missing (Entries.find?_of_notMem_keys hid)⟩

end BlockMap.Acyclic

/-- The walk comes to an end, and an observer has seen these blocks being run. -/
def Outset.Watched (o : Outset δ χ) (fuel : Nat) (stops : List (Walk.Stop (Context δ χ))) : Prop :=
  ∃ r ctx', Walk.from?
    (Walk.watched fun id => (Entries.find? id o.blocks).map (Block.station (Block.execute fuel)))
    fuel o.start o.params ⟨o.ctx, []⟩ = some (r, ⟨ctx', stops⟩)

/-- A walk that comes to an end can be watched. -/
theorem Outset.Ends.watched {o : Outset δ χ} {r : Except RunError Output} {ctx : Context δ χ}
    (h : o.Ends r ctx) : ∃ fuel stops, o.Watched fuel stops := by
  obtain ⟨fuel, hrun⟩ := h
  rw [BlockMap.run, ← Walk.from?_watched fuel []] at hrun
  obtain ⟨⟨r', w⟩, hwatched, -⟩ := Option.map_eq_some_iff.mp hrun
  exact ⟨fuel, w.seen, r', w.state, hwatched⟩

/-- Where nothing leads back, no id is come to twice. -/
theorem Outset.Watched.nodup {o : Outset δ χ} {fuel : Nat}
    {stops : List (Walk.Stop (Context δ χ))} (h : o.Watched fuel stops)
    (hacyclic : o.blocks.Acyclic follows) : (stops.map Walk.Stop.key).Nodup := by
  obtain ⟨r, ctx', hwatched⟩ := h
  obtain ⟨stops', hseen, ⟨hhappens, -, honward⟩, -⟩ :=
    Walk.course_of_watched fuel o.start o.params o.ctx [] hwatched
  obtain rfl : stops = stops' := hseen
  have hstep : ∀ p ∈ stops, ∀ q, p.Precedes q → Relation.TransGen follows p.key q.key := by
    intro p hp q hpq
    obtain ⟨hfound, hran⟩ := hhappens p hp
    obtain ⟨b, hb, hstation⟩ := Option.map_eq_some_iff.mp hfound
    obtain ⟨out, hresult, -, hnext, -⟩ := hpq.onward
    have hexecute : b.execute fuel p.params p.before = some (.ok out, p.left) := by
      rw [← hresult, ← hran, ← hstation]
      rfl
    exact .single (hacyclic.next p.key b hb q.key (b.execute_next hexecute hnext))
  have hkeys : (stops.map Walk.Stop.key).Pairwise (Relation.TransGen follows) := by
    rw [← List.isChain_iff_pairwise, List.isChain_map]
    exact honward.imp_of_mem_imp fun p q hp _ hpq => hstep p hp q hpq
  refine hkeys.imp_of_mem fun {key key'} hmem _ hlater heq => ?_
  obtain ⟨p, hp, rfl⟩ := List.mem_map.mp hmem
  obtain ⟨b, hb, -⟩ := Option.map_eq_some_iff.mp (hhappens p hp).found
  exact hacyclic.irrefl p.key (Entries.contains_of_find? hb) (heq ▸ hlater)

end Walks

/-! ### Bodies inside of bodies -/

theorem Entries.sizeOf_lt_of_find? {α : Type} [SizeOf α] {id : String} {a : α} {es : Entries α}
    (h : find? id es = some a) : sizeOf a < sizeOf es := by
  have hmem := List.sizeOf_lt_of_mem (Entries.mem_of_find? h)
  have hpair : sizeOf (id, a) = 1 + sizeOf id + sizeOf a := rfl
  omega

/-- A body is smaller than everything around it. -/
theorem Block.sizeOf_body_lt {b : Block} {id entry : String} {blocks inner : BlockMap}
    (hb : Entries.find? id blocks = some b) (hbody : b.body? = some (entry, inner)) :
    sizeOf inner < sizeOf blocks := by
  have hmap := Entries.sizeOf_lt_of_find? hb
  cases b with
  | task | branch => simp [body?] at hbody
  | nested name next frame body =>
      obtain rfl : body = some (entry, inner) := hbody
      simp at hmap
      omega

section Bodies

variable {δ χ : Type} [Store.Database δ] [Client χ] {follows : String → String → Prop}

/-- A loop over a list comes to an end if all its turns do. -/
theorem LoopEnds.of_turns {entry : String} {blocks : BlockMap} {values : List Json}
    {ctx : Context δ χ}
    (hturns : ∀ o, Turns entry blocks values ctx o → ∃ r ctx', o.Ends r ctx') :
    ∃ r ctx', LoopEnds entry blocks values ctx r ctx' := by
  induction values generalizing ctx with
  | nil => exact ⟨_, _, .nil⟩
  | cons v rest ih =>
      obtain ⟨r, mid, hv⟩ := hturns _ .here
      cases r with
      | error e => exact ⟨_, _, .failed hv⟩
      | ok out =>
          obtain ⟨r, ctx', hrest⟩ := ih fun o ho => hturns o (.later hv ho)
          exact ⟨r, ctx', .passed hv hrest⟩

/-- A block comes to an end if it does not count and its body comes to an end. -/
theorem Visit.ends_of_body {b : Block} (hcount : b.kind ≠ .count)
    (hbody : ∀ entry inner, b.body? = some (entry, inner) → ∀ params (ctx : Context δ χ),
      ∃ r ctx', Outset.Ends ⟨inner, entry, params, ctx⟩ r ctx')
    (params : Json) (ctx : Context δ χ) : ∃ r ctx', Visit.Ends ⟨b, params, ctx⟩ r ctx' := by
  have hends : ∀ fuel {r ctx'}, b.Executes fuel params ctx r ctx' →
      ∃ r ctx', Visit.Ends ⟨b, params, ctx⟩ r ctx' := fun fuel _ _ h =>
    ⟨_, _, fuel + 1, Block.execute_succ_iff.mpr h⟩
  cases b with
  | task id next t => exact hends 0 .task
  | branch id c onSuccess onFailure => exact hends 0 .branch
  | nested id next frame body =>
      cases frame with
      | count c => exact absurd rfl hcount
      | each c =>
          cases hitems : (resolveItems c params).run ctx with
          | mk items mid =>
              cases items with
              | error text => exact hends 0 (.eachUnset hitems)
              | ok items =>
                  cases body with
                  | none => exact hends 0 (.eachIdle hitems)
                  | some inner =>
                      obtain ⟨r, last, fuel, hloop⟩ : ∃ r last,
                          LoopEnds inner.1 inner.2 items mid r last := by
                        refine LoopEnds.of_turns fun o ho => ?_
                        exact hbody o.start o.blocks (Visit.Opens.each hitems ho).body
                          o.params o.ctx
                      cases r with
                      | ok _ => exact hends fuel (.eachDone hitems hloop)
                      | error e => exact hends fuel (.eachFailed hitems hloop)
      | transaction =>
          cases hdb : ctx.database with
          | none => exact hends 0 (.transactionUnserved hdb)
          | some db =>
              cases body with
              | none => exact hends 0 (.transactionIdle hdb)
              | some inner =>
                  cases hopen : ctx.query db (.setMode .transaction) with
                  | mk answer mid =>
                      cases answer with
                      | error f => exact hends 0 (.transactionRefused hdb hopen)
                      | ok answer =>
                          obtain ⟨r, left, fuel, hrun⟩ := hbody inner.1 inner.2 rfl params mid
                          exact hends fuel (.transactionClosed hdb hopen hrun)

/-- **Where no map leads back and no block counts, every walk comes to an end.**  The outer
induction is on the size of the map, which holds all bodies of its blocks. -/
theorem BlockMap.ends_of_acyclic (start : String) (blocks : BlockMap)
    (hacyclic : ∀ start' blocks', Within start blocks start' blocks' → blocks'.Acyclic follows)
    (hcount : ∀ start' blocks' id b, Within start blocks start' blocks' →
      Entries.find? id blocks' = some b → b.kind ≠ .count)
    (params : Json) (ctx : Context δ χ) :
    ∃ r ctx', Outset.Ends ⟨blocks, start, params, ctx⟩ r ctx' := by
  refine (hacyclic start blocks .self).walk_ends ?_ start params ctx
  intro id b hb
  refine Visit.ends_of_body (hcount start blocks id b .self hb) ?_
  intro entry inner hbody
  have : sizeOf inner < sizeOf blocks := Block.sizeOf_body_lt hb hbody
  exact ends_of_acyclic entry inner
    (fun _ _ hin => hacyclic _ _ (.body hb hbody hin))
    (fun _ _ id b hin => hcount _ _ id b (.body hb hbody hin))
termination_by sizeOf blocks

end Bodies

/-! ### Compiled graphs -/

/-- No block that is reached leads back to itself, and none counts. -/
structure Net.Acyclic (n : Net) (start : String) : Prop where
  irrefl : ∀ id, n.Reaches start id → ¬ Relation.TransGen n.Follows id id
  countless : ∀ id d, n.Reaches start id → n.block? id = some d → d.kind ≠ .count

/-- The blocks of every body of a compiled graph lead on as the graph says. -/
theorem Compiler.Layered.acyclic {c : Compiler} {start : String} {blocks : BlockMap}
    (h : c.Layered start blocks) (hs : c.wiring.Sound) (hn : c.wiring.net.Acyclic start)
    {start' : String} {blocks' : BlockMap} (hin : BlockMap.Within start blocks start' blocks') :
    blocks'.Acyclic c.wiring.net.Follows := by
  refine ⟨?_, fun id hid => hn.irrefl id (reaches hs hin h hid)⟩
  intro id b hb next hnext
  obtain ⟨d, -, hd, hrealizes⟩ := realizes hs hin h hb
  exact hrealizes.follows hd hnext

theorem Compiler.Layered.countless {c : Compiler} {start : String} {blocks : BlockMap}
    (h : c.Layered start blocks) (hs : c.wiring.Sound) (hn : c.wiring.net.Acyclic start)
    {start' id : String} {blocks' : BlockMap} {b : Block}
    (hin : BlockMap.Within start blocks start' blocks')
    (hb : Entries.find? id blocks' = some b) : b.kind ≠ .count := by
  obtain ⟨d, hreach, hd, hrealizes⟩ := realizes hs hin h hb
  exact hrealizes.kind ▸ hn.countless id d hreach hd

namespace Program

variable {δ χ : Type} [Store.Database δ] [Client χ]

/-- **A program whose blocks do not count and do not lead back comes to an end**, and so does every
walk that is started meanwhile; none of these walks runs a block of its map twice. -/
theorem run_ends_of_acyclic {g : Graph} {validate : Bool} {from? : Option String} {log : BuildLog}
    {p : Program} (h : Build.result (compileGraph g validate from?) log = .ok p)
    (hacyclic : g.net.Acyclic p.entrypoint) (params : Json) (ctx : Context δ χ) :
    (∃ fuel r ctx', p.run fuel params ctx = some (r, ctx')) ∧
    ∀ outer o, Starts (p.outset params ctx) outer o →
      (∃ r ctx', o.Ends r ctx') ∧ (∃ fuel stops, o.Watched fuel stops) ∧
        ∀ fuel stops, o.Watched fuel stops → (stops.map Walk.Stop.key).Nodup := by
  obtain ⟨w, start, hw, hp⟩ := (compileGraph_ends g validate from?).ok h
  obtain ⟨hloaded, hnet, -, -⟩ := Wiring.ofGraph_ok hw
  have hn : w.net.Acyclic start := by rwa [hnet, ← hp.entrypoint]
  have hmaps : ∀ start' blocks', BlockMap.Within start p.blocks start' blocks' →
      blocks'.Acyclic w.net.Follows :=
    fun _ _ hin => hp.layered.acyclic hloaded.sound hn hin
  have hcount : ∀ start' blocks' id b, BlockMap.Within start p.blocks start' blocks' →
      Entries.find? id blocks' = some b → b.kind ≠ .count :=
    fun _ _ _ _ hin hb => hp.layered.countless hloaded.sound hn hin hb
  have hstarted : ∀ outer o, Starts (p.outset params ctx) outer o →
      BlockMap.Within start p.blocks o.start o.blocks :=
    fun outer o hstarts => hp.entrypoint ▸ hstarts.within
  have hends : ∀ outer o, Starts (p.outset params ctx) outer o → ∃ r ctx', o.Ends r ctx' := by
    intro outer o hstarts
    have hin := hstarted outer o hstarts
    exact BlockMap.ends_of_acyclic o.start o.blocks
      (fun _ _ hin' => hmaps _ _ (hin.trans hin'))
      (fun _ _ id b hin' => hcount _ _ id b (hin.trans hin')) o.params o.ctx
  refine ⟨?_, fun outer o hstarts => ?_⟩
  · obtain ⟨r, last, fuel, hrun⟩ := hends [] _ .self
    exact ⟨fuel, r, _, run_iff.mpr ⟨last, hrun, rfl⟩⟩
  · obtain ⟨r, ctx', ho⟩ := hends outer o hstarts
    exact ⟨⟨r, ctx', ho⟩, ho.watched, fun fuel stops hwatched =>
      hwatched.nodup (hmaps _ _ (hstarted outer o hstarts))⟩

end Program

/-- A graph with a loop before a choice.  Edges over slots that nothing follows lead back. -/
def Graph.winding : Graph :=
  (((((((((Graph.empty.addBlock "in" .entrypoint .null).addBlock "loop" .each
    (.obj [("values", .arr [.null, .bool true])])).addBlock "show" .logger .null).addBlock
    "choose" .branch .null).link "in" "loop").addEdge "loop" "show" Slot.executor).link
    "loop" "choose").addEdge "choose" "show" Slot.success).link "choose" "in").addEdge
    "show" "show" Slot.success

/-- The program that it compiles to. -/
def Program.winding : Program :=
  let last : Block := .task "show" none (.logger ⟨none, .info⟩)
  ⟨[("choose", .branch "choose" ⟨[]⟩ (some "show") none),
    ("in", .task "in" (some "loop") .entrypoint),
    ("loop", .nested "loop" (some "choose") (.each ⟨.arr [.null, .bool true], false⟩)
      (some ("show", [("show", last)]))),
    ("show", last)], "in"⟩

theorem Graph.winding_acyclic : Graph.winding.net.Acyclic "in" := by
  have hblocks : ∀ d ∈ winding.blocks, d.kind ≠ .count ∧ (d.kind = .branch ↔ d.id = "choose") := by
    decide
  refine ⟨fun id _ hloop => ?_, fun id d _ hd => (hblocks d (mem_of_block? hd).1).1⟩
  -- Blocks lead on in the order of this list only.
  let rank (id : String) : Nat := ["in", "loop", "choose", "show"].idxOf id
  have hedges : ∀ e ∈ winding.edges,
      e.slot = (if e.start = "choose" then Slot.success else Slot.source) →
        rank e.start < rank e.target := by
    decide
  have hrank : ∀ x y, winding.net.Follows x y → rank x < rank y := by
    intro x y h
    cases h with
    | source hd hk ht =>
        obtain ⟨hmem, rfl⟩ := mem_of_block? hd
        obtain ⟨e, he, hstart, hslot, rfl⟩ := mem_edges_of_target? ht
        have hchoose := mt (hblocks _ hmem).2.mpr hk
        exact hstart ▸ hedges e he (by rw [hstart, if_neg hchoose, hslot])
    | success hd hk ht =>
        obtain ⟨hmem, rfl⟩ := mem_of_block? hd
        obtain ⟨e, he, hstart, hslot, rfl⟩ := mem_edges_of_target? ht
        have hchoose := (hblocks _ hmem).2.mp hk
        exact hstart ▸ hedges e he (by rw [hstart, if_pos hchoose, hslot])
    | failure hd hk ht =>
        obtain ⟨e, he, -, hslot, -⟩ := mem_edges_of_target? ht
        exact absurd hslot ((by decide : ∀ e ∈ winding.edges, e.slot ≠ Slot.failure) e he)
  have hless : Relation.TransGen (· < ·) (rank id) (rank id) := hloop.lift rank hrank
  rw [Relation.transGen_eq_self] at hless
  exact Nat.lt_irrefl _ hless

theorem Program.run_ends_of_acyclic_winding :
    Build.result (compileGraph .winding true none) {} = .ok .winding ∧
      Graph.winding.net.Acyclic "in" ∧
      (∃ fuel r ctx', Program.winding.run fuel .null .bodiless = some (r, ctx')) ∧
      ∃ outer o fuel stops, Starts (Program.winding.outset .null .bodiless) outer o ∧
        o.start = "show" ∧ o.Watched fuel stops ∧ (stops.map Walk.Stop.key).Nodup := by
  have hcompiled : Build.result (compileGraph .winding true none) {} = .ok .winding := rfl
  obtain ⟨hends, hstarted⟩ := run_ends_of_acyclic hcompiled Graph.winding_acyclic .null .bodiless
  let start : Outset Store.Memory Offline := Program.winding.outset .null .bodiless
  have hloop : start.Visits ⟨.nested "loop" (some "choose")
      (.each ⟨.arr [.null, .bool true], false⟩)
      (some ("show", [("show", .task "show" none (.logger ⟨none, .info⟩))])), _, _⟩ :=
    .onward rfl ⟨1, rfl⟩ rfl (.here rfl)
  have hstarts : Starts start _ _ := .inside hloop (.each rfl .here) .self
  obtain ⟨-, ⟨fuel, stops, hwatched⟩, hnodup⟩ := hstarted _ _ hstarts
  exact ⟨hcompiled, Graph.winding_acyclic, hends, _, _, fuel, stops, hstarts, rfl, hwatched,
    hnodup fuel stops hwatched⟩

end FlowGraph
