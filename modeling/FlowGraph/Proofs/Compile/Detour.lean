/-
A detour over one more block.

A net has a detour if one target is exchanged for a new block that leads on to it.  Then the
same blocks are reached as before, and the new one maybe.  The same bodies are needed as well,
although one of them may start at the new block now.  `Via` says which id has taken the place
of another one.

So nothing is wrong with the net that was not wrong before.  What is compiled on the detour
compiles, provided that the settings of the new block are accepted.
-/
import FlowGraph.Proofs.Compile.Program

namespace FlowGraph

/-! ### Nets -/

namespace Net

/-- Where the one net leads to an id, the other one leads to it as well, or to the stop before
it. -/
inductive Via (stop goal : String) : String → String → Prop
  | same {id : String} (h : id ≠ stop) : Via stop goal id id
  | stop : Via stop goal goal stop

/-- The second net is the first one with a detour over `stop` to `goal`. -/
structure Detour (n n' : Net) (stop goal : String) : Prop where
  ne : goal ≠ stop
  undefined : ¬ n.Defines stop
  defined : ∃ d, n'.block? stop = some d ∧ d.kind = .interceptor
  /-- The stop leads to the goal and nowhere else. -/
  leads : ∀ slot id, n'.target? stop slot = some id ↔ slot = Slot.source ∧ id = goal
  blocks : ∀ id, id ≠ stop → n'.block? id = n.block? id
  targets : ∀ id slot, id ≠ stop →
    Option.Rel (Via stop goal) (n.target? id slot) (n'.target? id slot)

variable {n n' : Net} {stop goal : String} {x x' y y' z id slot : String}

/-- An id has taken the place of one id only. -/
theorem Via.unique (h : Via stop goal x z) (h' : Via stop goal y z) : x = y := by
  cases h with
  | same hx =>
      cases h' with
      | same => rfl
      | stop => exact absurd rfl hx
  | stop =>
      cases h' with
      | same hy => exact absurd rfl hy
      | stop => rfl

/-- Away from the stop an id stands for itself. -/
theorem Via.eq (h : Via stop goal x y) (hy : y ≠ stop) : x = y := by
  cases h with
  | same => rfl
  | stop => exact absurd rfl hy

namespace Detour

variable (hd : n.Detour n' stop goal)
include hd

theorem ne_of_defines (h : n.Defines id) : id ≠ stop := fun hid => hd.undefined (hid ▸ h)

theorem defines_iff (hid : id ≠ stop) : n'.Defines id ↔ n.Defines id := by
  rw [Defines, Defines, hd.blocks id hid]

theorem via_of_defines (h : n.Defines id) : Via stop goal id id := .same (hd.ne_of_defines h)

/-- A target of the first net is a target of the second one, maybe by the stop. -/
theorem target (hid : id ≠ stop) (ht : n.target? id slot = some x) :
    ∃ x', n'.target? id slot = some x' ∧ Via stop goal x x' := by
  have hrel := hd.targets id slot hid
  rw [ht] at hrel
  generalize n'.target? id slot = found at hrel
  cases hrel with
  | some h => exact ⟨_, rfl, h⟩

theorem target_of (hid : id ≠ stop) (ht : n'.target? id slot = some x') :
    ∃ x, n.target? id slot = some x ∧ Via stop goal x x' := by
  have hrel := hd.targets id slot hid
  rw [ht] at hrel
  generalize n.target? id slot = found at hrel
  cases hrel with
  | some h => exact ⟨_, rfl, h⟩

/-- From the stop the goal is reached. -/
theorem pass (hreach : n'.Defines z → n'.Reaches x z) (hvia : Via stop goal y z)
    (hy : n.Defines y) : n'.Reaches x y := by
  have hdefined := (hd.defines_iff (hd.ne_of_defines hy)).mpr hy
  cases hvia with
  | same => exact hreach hdefined
  | stop =>
      obtain ⟨d, hstop, -⟩ := hd.defined
      exact (hreach ⟨d, hstop⟩).step ((hd.leads _ _).mpr ⟨rfl, rfl⟩) hdefined

theorem reaches (hvia : Via stop goal x x') (h : n.Reaches x y) : n'.Reaches x' y := by
  induction h with
  | start hx => exact hd.pass .start hvia hx
  | step hid ht hy ih =>
      obtain ⟨y', ht', hvia'⟩ := hd.target (hd.ne_of_defines hid.defines) ht
      exact hd.pass (ih.step ht') hvia' hy

/-- What is reached has taken the place of something that was reached before. -/
theorem reached (hvia : Via stop goal x x') (h : n'.Reaches x' y') :
    ∀ y, Via stop goal y y' → n.Defines y → n.Reaches x y := by
  induction h with
  | start _ => exact fun y hy hdef => hy.unique hvia ▸ .start (hy.unique hvia ▸ hdef)
  | @step id slot next hid ht _ ih =>
      intro y hy hdef
      by_cases hstop : id = stop
      · -- From the stop a walk comes to the goal, which is where the stop is in the place of.
        subst hstop
        obtain ⟨-, rfl⟩ := (hd.leads slot next).mp ht
        obtain rfl := hy.eq hd.ne
        exact ih _ .stop hdef
      · obtain ⟨z, hz, hvia'⟩ := hd.target_of hstop ht
        obtain rfl := hy.unique hvia'
        exact (ih id (.same hstop) ((hd.defines_iff hstop).mp hid.defines)).step hz hdef

theorem reaches_iff (hvia : Via stop goal x x') (hy : y ≠ stop) :
    n'.Reaches x' y ↔ n.Reaches x y := by
  refine ⟨fun h => ?_, hd.reaches hvia⟩
  exact hd.reached hvia h y (.same hy) ((hd.defines_iff hy).mp h.defines)

/-- A body that is needed has taken the place of one that was needed before. -/
theorem depends (hvia : Via stop goal x x') (h : n'.Depends x' y') :
    ∃ y, Via stop goal y y' ∧ n.Depends x y := by
  obtain ⟨id, b, hreach, hb, hkind, ht⟩ := h
  have hid : id ≠ stop := by
    rintro rfl
    obtain ⟨d, hstop, hinterceptor⟩ := hd.defined
    obtain rfl := Option.some.inj (hstop.symm.trans hb)
    rw [hinterceptor] at hkind
    exact nomatch hkind
  obtain ⟨y, hy, hvia'⟩ := hd.target_of hid ht
  exact ⟨y, hvia', id, b, (hd.reaches_iff hvia hid).mp hreach, hd.blocks id hid ▸ hb, hkind, hy⟩

theorem grounded (hvia : Via stop goal x x') (h : ∀ y, n.Depends x y → ¬ n.Depends y y)
    (hx : n'.Depends x' y') : ¬ n'.Depends y' y' := by
  intro hloop
  obtain ⟨y, hy, hdep⟩ := hd.depends hvia hx
  obtain ⟨z, hz, hdep'⟩ := hd.depends hy hloop
  exact h y hdep (hz.unique hy ▸ hdep')

end Detour

end Net

/-! ### Graphs -/

/-- The second graph is the first one with an interceptor on one of its edges.  The edge leads to
the interceptor instead, and a new edge from there to where it led.  The interceptor and the new
edge may stand anywhere among the others. -/
structure Graph.Detour (g g' : Graph) (e onward : EdgeDef) (b : BlockDef) : Prop where
  kind : b.kind = .interceptor
  blocks : g'.blocks.Perm (b :: g.blocks)
  edges : ∃ before after, g.edges = before ++ e :: after ∧ ∃ first rest,
    first ++ rest = before ++ { e with target := b.id } :: after ∧
      g'.edges = first ++ onward :: rest
  leaves : onward.start = b.id ∧ onward.slot = Slot.source
  reaches : onward.target = e.target
  /-- The id of the interceptor is a new one. -/
  fresh : (∀ d ∈ g.blocks, d.id ≠ b.id) ∧ ∀ e ∈ g.edges, e.start ≠ b.id ∧ e.target ≠ b.id

namespace Graph.Detour

variable {g g' : Graph} {e onward : EdgeDef} {b : BlockDef}

theorem distinct (h : g.Detour g' e onward b) (hg : (g.blocks.map BlockDef.id).Nodup) :
    (g'.blocks.map BlockDef.id).Nodup := by
  rw [(h.blocks.map BlockDef.id).nodup_iff, List.map_cons, List.nodup_cons]
  refine ⟨fun hmem => ?_, hg⟩
  obtain ⟨d, hd, hid⟩ := List.mem_map.mp hmem
  exact h.fresh.1 d hd hid

theorem entrypoints (h : g.Detour g' e onward b) : g'.entrypoints.Perm g.entrypoints := by
  have hperm := (h.blocks.filter fun b => b.kind = .entrypoint).map BlockDef.id
  have hnot : ¬ b.kind = .entrypoint := by rw [h.kind]; nofun
  rwa [List.filter_cons_of_neg (by simpa using hnot)] at hperm

/-- A slot of an old block leads where it led, or to the interceptor instead. -/
theorem target? (h : g.Detour g' e onward b) {id slot : String} (hid : id ≠ b.id) :
    Option.Rel (Net.Via b.id e.target) (g.net.target? id slot) (g'.net.target? id slot) := by
  obtain ⟨before, after, hedges, first, rest, hsame, hedges'⟩ := h.edges
  let leaves (e : EdgeDef) : Bool := e.start = id ∧ e.slot = slot
  have honward : leaves onward = false := by simp [leaves, h.leaves.1, hid.symm]
  have hold : ∀ e' ∈ g.edges, Net.Via b.id e.target e'.target e'.target := fun e' he' =>
    .same (h.fresh.2 e' he').2
  have hfind' : g'.edges.find? leaves
      = (before.find? leaves).or (({ e with target := b.id } :: after).find? leaves) := by
    rw [hedges', List.find?_append, List.find?_cons_of_neg (by simp [honward]), ← List.find?_append,
      hsame, List.find?_append]
  show Option.Rel _ ((g.edges.find? leaves).map _) ((g'.edges.find? leaves).map _)
  rw [hfind', hedges, List.find?_append]
  cases hbefore : before.find? leaves with
  | some e' =>
      have hmem : e' ∈ g.edges := by
        rw [hedges]
        exact List.mem_append_left _ (List.mem_of_find?_eq_some hbefore)
      exact .some (hold e' hmem)
  | none =>
      have hmoved : leaves { e with target := b.id } = leaves e := rfl
      rw [Option.none_or, Option.none_or, List.find?_cons, List.find?_cons, hmoved]
      cases leaves e with
      | true => exact .some .stop
      | false =>
        cases hafter : after.find? leaves with
        | none => exact .none
        | some e' =>
            have hmem : e' ∈ g.edges := by
              rw [hedges]
              exact List.mem_append_right _
                (List.mem_cons_of_mem _ (List.mem_of_find?_eq_some hafter))
            exact .some (hold e' hmem)

/-- The interceptor has one slot, which leads where the edge led. -/
theorem leads_iff (h : g.Detour g' e onward b) {id slot : String} :
    g'.net.target? b.id slot = some id ↔ slot = Slot.source ∧ id = e.target := by
  obtain ⟨before, after, hedges, first, rest, hsame, hedges'⟩ := h.edges
  have hstart : ∀ e' ∈ first ++ rest, e'.start ≠ b.id := by
    intro e' he'
    rw [hsame, List.mem_append, List.mem_cons] at he'
    have hfresh := h.fresh.2
    rw [hedges] at hfresh
    rcases he' with hmem | rfl | hmem
    · exact (hfresh e' (List.mem_append_left _ hmem)).1
    · exact (hfresh e (List.mem_append_right _ (List.mem_cons_self ..))).1
    · exact (hfresh e' (List.mem_append_right _ (List.mem_cons_of_mem _ hmem))).1
  let leaves (e : EdgeDef) : Bool := e.start = b.id ∧ e.slot = slot
  have hnone : ∀ es : List EdgeDef, (∀ e' ∈ es, e' ∈ first ++ rest) → es.find? leaves = none :=
    fun es hes => List.find?_eq_none.mpr fun e' he' => by simp [leaves, hstart e' (hes e' he')]
  have hleaves : leaves onward = decide (slot = Slot.source) := by
    simp [leaves, h.leaves, eq_comm]
  show (g'.edges.find? leaves).map EdgeDef.target = some id ↔ _
  rw [hedges', List.find?_append, hnone first fun _ => List.mem_append_left _, Option.none_or,
    List.find?_cons, hleaves, hnone rest fun _ => List.mem_append_right _]
  by_cases hslot : slot = Slot.source <;> simp [hslot, h.reaches, eq_comm]

theorem net (h : g.Detour g' e onward b) (hg : (g.blocks.map BlockDef.id).Nodup) :
    g.net.Detour g'.net b.id e.target where
  ne := by
    obtain ⟨before, after, hedges, -⟩ := h.edges
    exact (h.fresh.2 e (by rw [hedges]; simp)).2
  undefined := by
    rintro ⟨d, hd⟩
    obtain ⟨hmem, hid⟩ := mem_of_block? hd
    exact h.fresh.1 d hmem hid
  defined :=
    ⟨b, block?_of_mem (h.distinct hg) (h.blocks.mem_iff.mpr (List.mem_cons_self ..)), h.kind⟩
  leads slot id := h.leads_iff
  blocks id hid := by
    refine Option.ext fun d => ⟨fun hd => ?_, fun hd => ?_⟩
    · obtain ⟨hmem, rfl⟩ := mem_of_block? hd
      rcases List.mem_cons.mp (h.blocks.mem_iff.mp hmem) with rfl | hmem
      · exact absurd rfl hid
      · exact block?_of_mem hg hmem
    · obtain ⟨hmem, rfl⟩ := mem_of_block? hd
      exact block?_of_mem (h.distinct hg) (h.blocks.mem_iff.mpr (List.mem_cons_of_mem _ hmem))
  targets id slot hid := h.target? hid

end Graph.Detour

/-! ### Compiling -/

namespace Program

variable {c c' : Compiler} {start stop goal : String} {p : Program}

/-- A detour does not keep a graph from compiling. -/
theorem CompiledFrom.detour (h : CompiledFrom c start p) (hs : c'.wiring.Sound)
    (hd : c.wiring.net.Detour c'.wiring.net stop goal) (hv : c'.validate = c.validate)
    (hstop : ∀ d, c'.wiring.net.block? stop = some d → d.Accepted c.validate) :
    Build.Ends (compileFrom c' start) (CompiledFrom c' start) fun _ => False := by
  have hvia := hd.via_of_defines h.defines
  have hcompiled := h.layered start p.blocks .self
  refine (compileFrom_ends hs start).mono (fun _ hp => hp) ?_
  rintro e (hfault | ⟨-, hundefined⟩)
  · cases hfault with
    | @invalidConfig id text d hr hb hrej =>
        rw [hv] at hrej
        by_cases hid : id = stop
        · exact hrej.not_accepted (hstop d (hid ▸ hb))
        · have hreach := (hd.reaches_iff hvia hid).mp hr
          obtain ⟨b, hbuilt⟩ := Entries.contains_iff.mp ((hcompiled.contains_iff id).mpr hreach)
          obtain ⟨d', hd', hbuilds⟩ := hcompiled.built id b hbuilt
          rw [hd.blocks id hid, hd'] at hb
          exact hrej.not_accepted (Option.some.inj hb ▸ hbuilds.accepted)
    | recursiveBody hx hloop => exact hd.grounded hvia h.grounded hx hloop
  · exact hundefined ((hd.defines_iff (hd.ne_of_defines h.defines)).mpr h.defines)

end Program

namespace Graph.Detour

variable {g g' : Graph} {e onward : EdgeDef} {b : BlockDef} {validate : Bool}
  {from? : Option String} {log : BuildLog} {p : Program}

/-- A graph with a detour is loaded like the graph without it. -/
theorem loads (h : g.Detour g' e onward b) {w : Wiring} (hw : Wiring.ofGraph g = .ok w) :
    ∃ w', Wiring.ofGraph g' = .ok w' ∧ w'.entrypoint = w.entrypoint ∧
      w.net.Detour w'.net b.id e.target ∧ w'.net.block? b.id = some b := by
  obtain ⟨-, hnet, hdistinct, -⟩ := Wiring.ofGraph_ok hw
  obtain ⟨w', hw', hentry⟩ :=
    Wiring.exists_ofGraph_of_perm hw (h.distinct hdistinct) h.entrypoints
  obtain ⟨-, hnet', -, -⟩ := Wiring.ofGraph_ok hw'
  refine ⟨w', hw', hentry, ?_⟩
  rw [hnet, hnet']
  exact ⟨h.net hdistinct,
    block?_of_mem (h.distinct hdistinct) (h.blocks.mem_iff.mpr (List.mem_cons_self ..))⟩

/-- **A graph with a detour compiles**, from the same start. -/
theorem compiles (h : g.Detour g' e onward b) (hb : b.Accepted validate)
    (hp : Build.result (Program.compileGraph g validate from?) log = .ok p) (log' : BuildLog) :
    ∃ w w' start p', w.Sound ∧ w'.Sound ∧ w.net.Detour w'.net b.id e.target ∧
      Build.result (Program.compileGraph g' validate from?) log' = .ok p' ∧
      Program.CompiledFrom ⟨w, validate⟩ start p ∧
      Program.CompiledFrom ⟨w', validate⟩ start p' := by
  obtain ⟨w, start, hw, hstart, hfrom⟩ := (Program.compileGraph_starts g validate from?).ok hp
  obtain ⟨w', hw', hentry, hnets, hstop⟩ := h.loads hw
  have hsound := (Wiring.ofGraph_ok hw).1.sound
  have hsound' := (Wiring.ofGraph_ok hw').1.sound
  have hends : Build.Ends (Program.compileGraph g' validate from?)
      (Program.CompiledFrom ⟨w', validate⟩ start) fun _ => False := by
    rw [Program.compileGraph_of_ok hw', hentry, hstart]
    exact hfrom.detour hsound' hnets rfl fun d hd => Option.some.inj (hstop.symm.trans hd) ▸ hb
  cases hr : Build.result (Program.compileGraph g' validate from?) log' with
  | error e => exact (hends.error hr).elim
  | ok p' => exact ⟨w, w', start, p', hsound, hsound', hnets, rfl, hfrom, hends.ok hr⟩

end Graph.Detour

end FlowGraph
