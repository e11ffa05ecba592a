/-
Blocks that a walk does not find.

Three places must agree for a walk to find its blocks: the blocks that are compiled into a
body, the successors that blocks name when they are run, and the entries that bodies are
run from.  A block names a target of one of its slots, whatever its kind, and all targets
that are defined are compiled into the same body.  An entry is the target of an `executor`
slot.  So an id that is not found is the target of an edge and has no definition.

The walk may be any that is started in a run, at whatever depth.
-/
import FlowGraph.Proofs.Run.Changes
import FlowGraph.Proofs.Run.Execution
import FlowGraph.Proofs.Run.Visits
import FlowGraph.Proofs.Compile.Program
import FlowGraph.Store.Memory
import FlowGraph.Web.Offline

namespace FlowGraph

/-- An edge of the graph leads to the id, which no block has. -/
structure Graph.Dangles (g : Graph) (id : String) : Prop where
  undefined : ∀ b ∈ g.blocks, b.id ≠ id
  targeted : ∃ e ∈ g.edges, e.target = id

/-! ### Where blocks lead -/

section Leading

variable {δ χ : Type} {id : String} {next : Option String} {params : Json}
  {ctx ctx' : Context δ χ} {o : Output}

/-- The block has the id as a successor. -/
def Block.HasNext : Block → String → Prop
  | .task _ next _, id | .nested _ next _ _, id => next = some id
  | .branch _ _ onSuccess onFailure, id => onSuccess = some id ∨ onFailure = some id

variable [Store.Database δ]

/-- **A block names its successors only.** -/
theorem Block.execute_next [Client χ] {b : Block} {fuel : Nat}
    (h : b.execute fuel params ctx = some (.ok o, ctx')) (hid : o.next = some id) :
    b.HasNext id := by
  cases fuel with
  | zero => simp [execute_zero] at h
  | succ fuel =>
      rw [execute_succ_iff] at h
      generalize hr : Except.ok o = r at h
      cases h with
      | @task name next t =>
          obtain rfl := Except.ok.inj hr
          exact ((Task.run_made name params t).composed next).result ctx id hid
      | @branch name c onSuccess onFailure =>
          have hleads := (Task.runBranch_made name params c onSuccess onFailure).result ctx
          exact (hleads o hr.symm).imp (fun hs => hs id hid) fun hf => hf id hid
      | countUnset | eachUnset | transactionUnserved =>
          obtain rfl := Except.ok.inj hr
          exact nomatch hid
      | countDone | eachIdle | eachDone | transactionIdle =>
          obtain rfl := Except.ok.inj hr
          exact hid
      | countFailed | eachFailed | transactionRefused => exact nomatch hr
      | transactionClosed =>
          obtain rfl := Except.ok.inj hr
          exact ((close_made _ _).composed _).result _ id hid

/-- The successor that a block names is the target of one of its slots. -/
theorem Block.execute_leads [Client χ] {b : Block} {fuel : Nat}
    (h : b.execute fuel params ctx = some (.ok o, ctx')) {target : String → Option String}
    (hw : b.WiredTo target) (hid : o.next = some id) : ∃ slot, target slot = some id := by
  have hnext := execute_next h hid
  cases b with
  | task name next t => exact ⟨Slot.source, hw ▸ hnext⟩
  | nested name next frame body => exact ⟨Slot.source, hw ▸ hnext⟩
  | branch name c onSuccess onFailure =>
      rcases hnext with hs | hf
      · exact ⟨Slot.success, hw.1 ▸ hs⟩
      · exact ⟨Slot.failure, hw.2 ▸ hf⟩

end Leading

/-! ### What a walk does not find -/

section Walks

variable {δ χ : Type} [Store.Database δ] [Client χ] {n : Net} {start missing : String}
  {blocks : BlockMap} {ctx ctx' : Context δ χ}

/-- An id that a walk does not find is one that it may come to, and is not compiled. -/
theorem BlockMap.walk_missing {gives : BlockDef → Block → Prop}
    (hcompiled : Compiled n gives start blocks)
    (hwired : ∀ id b, Entries.find? id blocks = some b → b.WiredTo (n.target? id)) (budget : Nat) :
    ∀ (fuel : Nat) (id : String) (params : Json) (ctx : Context δ χ), n.Leads start id →
      walk (Block.execute budget) blocks fuel id params ctx
        = some (.error (.blockNotFound missing), ctx') →
      n.Leads start missing ∧ Entries.contains missing blocks = false := by
  intro fuel
  induction fuel with
  | zero => intro id params ctx _ h; simp [walk_zero] at h
  | succ fuel ih =>
      intro id params ctx hid h
      rw [walk_succ_iff] at h
      cases h with
      | missing hb => exact ⟨hid, Entries.not_contains_iff.mpr hb⟩
      | aborted hb hr hafter => exact absurd hafter (Walk.after_ne_notFound _ _ missing)
      | @onward b r mid _ next params' _ hb hr hafter h =>
          have hreach : n.Reaches start id :=
            (hcompiled.contains_iff id).mp (Entries.contains_of_find? hb)
          obtain ⟨o, rfl, hnext⟩ := Walk.after_onward hafter
          obtain ⟨slot, ht⟩ := b.execute_leads hr (hwired id b hb) hnext
          exact ih next params' _ (Or.inr ⟨id, slot, hreach, ht⟩) h

end Walks

/-! ### Compiled graphs -/

/-- A body starts at the target of an `executor` slot. -/
theorem BlockMap.Within.entry {c : Compiler} {start start' : String} {blocks blocks' : BlockMap}
    (h : Within start blocks start' blocks') (hlayered : c.Layered start blocks) :
    start' = start ∨ ∃ id, c.wiring.net.target? id Slot.executor = some start' := by
  induction h with
  | self => exact Or.inl rfl
  | @body start entry start' id blocks inner blocks' b hb hbody _ ih =>
      rcases ih fun s bs hin => hlayered s bs (.body hb hbody hin) with rfl | htarget
      · obtain ⟨d, -, hbuilds⟩ := (hlayered start blocks .self).built id b hb
        have hentry := hbuilds.entry
        rw [hbody, Compiler.bodyEntry] at hentry
        split at hentry
        · exact Or.inr ⟨d.id, hentry.symm⟩
        · simp at hentry
      · exact Or.inr htarget

namespace Program

variable {δ χ : Type} [Store.Database δ] [Client χ] {params : Json} {ctx ctx' : Context δ χ}
  {outer : List (Visit δ χ)} {o : Outset δ χ} {missing : String}

theorem CompiledFrom.not_found {c : Compiler} {start : String} {p : Program}
    (h : CompiledFrom c start p) (hs : c.wiring.Sound)
    (hstarts : Starts (p.outset params ctx) outer o)
    (hends : o.Ends (.error (.blockNotFound missing)) ctx') :
    ¬ c.wiring.net.Defines missing ∧ ∃ id slot, c.wiring.net.target? id slot = some missing := by
  have hwithin : BlockMap.Within start p.blocks o.start o.blocks := h.entrypoint ▸ hstarts.within
  have hcompiled := h.layered o.start o.blocks hwithin
  have hwired : ∀ id b, Entries.find? id o.blocks = some b →
      b.WiredTo (c.wiring.net.target? id) := by
    intro id b hb
    obtain ⟨d, -, -, hrealizes⟩ := Compiler.Layered.realizes hs hwithin h.layered hb
    exact hrealizes.wired
  obtain ⟨fuel, hrun⟩ := hends
  obtain ⟨hleads, hnew⟩ :=
    BlockMap.walk_missing hcompiled hwired fuel fuel o.start o.params o.ctx (Or.inl rfl) hrun
  have hundefined : ¬ c.wiring.net.Defines missing := fun hd =>
    absurd ((hcompiled.contains_iff missing).mpr (hleads.reaches hd)) (by simp [hnew])
  refine ⟨hundefined, ?_⟩
  rcases hleads with rfl | ⟨id, slot, -, ht⟩
  · -- The start of a body is the target of a slot; the start of the program has a definition.
    rcases hwithin.entry h.layered with hstart | ⟨id, ht⟩
    · exact absurd (hstart ▸ h.defines) hundefined
    · exact ⟨id, Slot.executor, ht⟩
  · exact ⟨id, slot, ht⟩

theorem compileGraph_ends (g : Graph) (validate : Bool) (from? : Option String) :
    Build.Ends (compileGraph g validate from?)
      (fun p => ∃ w start, Wiring.ofGraph g = .ok w ∧ CompiledFrom ⟨w, validate⟩ start p)
      (fun _ => True) :=
  (compileGraph_starts g validate from?).mono
    (fun _ ⟨w, start, hw, _, hp⟩ => ⟨w, start, hw, hp⟩) fun _ h => h

/-- **A walk of a compiled graph misses only ids that no block has and that an edge leads to.**
That goes for every walk that is started in a run.  Without such ids, none ever misses a
block. -/
theorem not_found_dangles {g : Graph} {validate : Bool} {from? : Option String} {log : BuildLog}
    {p : Program} (h : Build.result (compileGraph g validate from?) log = .ok p) (params : Json)
    (ctx : Context δ χ) :
    (∀ outer o missing ctx', Starts (p.outset params ctx) outer o →
      o.Ends (.error (.blockNotFound missing)) ctx' → g.Dangles missing) ∧
    (∀ fuel missing ctx', p.run fuel params ctx = some (.error (.blockNotFound missing), ctx') →
      g.Dangles missing) ∧
    ((∀ e ∈ g.edges, ∃ b ∈ g.blocks, b.id = e.target) →
      (∀ outer o missing ctx', Starts (p.outset params ctx) outer o →
        ¬ o.Ends (.error (.blockNotFound missing)) ctx') ∧
      ∀ fuel missing ctx',
        p.run fuel params ctx ≠ some (.error (.blockNotFound missing), ctx')) := by
  obtain ⟨w, start, hw, hp⟩ := (compileGraph_ends g validate from?).ok h
  obtain ⟨hloaded, hnet, -, -⟩ := Wiring.ofGraph_ok hw
  have hstarted : ∀ outer o missing ctx', Starts (p.outset params ctx) outer o →
      o.Ends (.error (.blockNotFound missing)) ctx' → g.Dangles missing := by
    intro outer o missing ctx' hstarts hends
    obtain ⟨hundefined, id, slot, ht⟩ := hp.not_found hloaded.sound hstarts hends
    simp only [hnet] at hundefined ht
    refine ⟨?_, ?_⟩
    · rintro b hb rfl
      exact hundefined (Graph.defines_of_mem hb)
    · obtain ⟨e, he, -, -, htarget⟩ := Graph.mem_edges_of_target? ht
      exact ⟨e, he, htarget⟩
  have hrun : ∀ fuel missing ctx',
      p.run fuel params ctx = some (.error (.blockNotFound missing), ctx') →
      g.Dangles missing := by
    intro fuel missing ctx' hr
    obtain ⟨last, hends, -⟩ := Program.run_ends hr
    exact hstarted [] _ missing last .self hends
  refine ⟨hstarted, hrun, fun hdefined => ?_⟩
  have hnone : ∀ missing, ¬ g.Dangles missing := by
    rintro missing ⟨hundefined, e, he, rfl⟩
    obtain ⟨b, hb, hid⟩ := hdefined e he
    exact hundefined b hb hid
  exact ⟨fun outer o missing ctx' hs he => hnone missing (hstarted outer o missing ctx' hs he),
    fun fuel missing ctx' hr => hnone missing (hrun fuel missing ctx' hr)⟩

end Program

/-- A graph with a transaction whose body would start at a block that is not there. -/
def Graph.bodiless : Graph :=
  (((Graph.empty.addBlock "in" .entrypoint .null).addBlock "tx" .transaction .null).link
    "in" "tx").addEdge
    "tx" "ghost" Slot.executor

/-- The program that it compiles to. -/
def Program.bodiless : Program :=
  ⟨[("in", .task "in" (some "tx") .entrypoint),
    ("tx", .nested "tx" none .transaction (some ("ghost", [])))],
    "in"⟩

/-- A context with an empty database, where scripts have no values. -/
def Context.bodiless : Context Store.Memory Offline :=
  { database := some {}, scripts := ⟨fun _ _ _ => .done (.ok .null)⟩ }

theorem Program.not_found_dangles_bodiless :
    Build.result (Program.compileGraph .bodiless true none) {} = .ok .bodiless ∧
      ∃ outer o ctx', Starts (Program.bodiless.outset .null .bodiless) outer o ∧
        o.Ends (.error (.blockNotFound "ghost")) ctx' ∧ Graph.bodiless.Dangles "ghost" := by
  have hcompiled : Build.result (Program.compileGraph .bodiless true none) {} = .ok .bodiless := rfl
  obtain ⟨hstarted, -⟩ := Program.not_found_dangles hcompiled .null .bodiless
  let start : Outset Store.Memory Offline := Program.bodiless.outset .null .bodiless
  have htx : start.Visits ⟨.nested "tx" none .transaction (some ("ghost", [])), _, _⟩ :=
    .onward rfl ⟨1, rfl⟩ rfl (.here rfl)
  have hstarts : Starts start _ _ := .inside htx (.transaction rfl rfl) .self
  exact ⟨hcompiled, _, _, _, hstarts, ⟨1, rfl⟩, hstarted _ _ _ _ hstarts ⟨1, rfl⟩⟩

end FlowGraph
