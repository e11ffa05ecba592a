/-
What compiling looks at.

Of a definition compiling reads the id, the kind and the data, and of a wiring the edges and the
definitions of the ids that it comes to.  So two wirings that have these in common are alike
for it: the same ids wait in every round, the same blocks are built of them, and the first fault
is met in the same place, in the graph and in every body.  Compiling then does the same on both,
to the last event in the log.

`Wiring.Alike` is about a start.  What a body needs is needed by everything that needs the body,
so wirings that are alike for a graph are alike for the bodies within it.
-/
import FlowGraph.Proofs.Compile.Program

namespace FlowGraph

/-- The block without its place on the canvas. -/
def BlockDef.unplaced (d : BlockDef) : BlockDef := { d with position := none }

theorem BlockDef.unplaced_eq_iff {d d' : BlockDef} :
    d.unplaced = d'.unplaced ↔ d.id = d'.id ∧ d.kind = d'.kind ∧ d.data = d'.data := by
  rw [unplaced, unplaced, BlockDef.mk.injEq]
  simp

/-- Two wirings have the same edges, and the same blocks wherever a walk may come to, but for their
places on the canvas. -/
structure Wiring.Alike (w w' : Wiring) (start : String) : Prop where
  edges : w.edges = w'.edges
  blocks : ∀ id, w.net.Leads start id →
    (w.net.block? id).map BlockDef.unplaced = (w'.net.block? id).map BlockDef.unplaced

namespace Wiring.Alike

variable {w w' : Wiring} {start entry : String}

/-- Wirings that are alike for a start are alike for the bodies that it needs. -/
theorem of_depends (h : w.Alike w' start) (hd : w.net.Depends start entry) : w.Alike w' entry :=
  ⟨h.edges, fun id hid => h.blocks id (hd.leads hid)⟩

theorem successor_eq (h : w.Alike w' start) (id : String) : w.successor id = w'.successor id := by
  funext slot
  rw [successor, successor, h.edges]

theorem targets_eq (h : w.Alike w' start) (id : String) : w.targets id = w'.targets id := by
  rw [targets, targets, h.edges]

theorem edgeCount_eq (h : w.Alike w' start) : w.edgeCount = w'.edgeCount := by
  rw [edgeCount, edgeCount, h.edges]

end Wiring.Alike

namespace Compiler

variable {w w' : Wiring} {validate : Bool} {child child' : BodyBuilder} {d d' : BlockDef}
  {start entry : String}

/-- A block is what its id, kind, data and successors make of it. -/
theorem block_congr (hd : d.unplaced = d'.unplaced) (hs : w.successor d.id = w'.successor d.id)
    (body : Option (String × BlockMap)) :
    block ⟨w, validate⟩ d body = block ⟨w', validate⟩ d' body := by
  obtain ⟨id, kind, data, position⟩ := d
  obtain ⟨id', kind', data', position'⟩ := d'
  obtain ⟨rfl, rfl, rfl, -⟩ := BlockDef.mk.inj hd
  rw [block_eq, block_eq, hs]
  rfl

theorem body_congr (hd : d.unplaced = d'.unplaced) (hs : w.successor d.id = w'.successor d.id)
    (hchild : ∀ entry, bodyEntry ⟨w, validate⟩ d = some entry → child entry = child' entry) :
    body ⟨w, validate⟩ child d = body ⟨w', validate⟩ child' d' := by
  obtain ⟨hid, hkind, -⟩ := BlockDef.unplaced_eq_iff.mp hd
  rw [bodyEntry] at hchild
  rw [body, body, ← hkind, ← hid, ← hs]
  by_cases hk : d.kind.hasBody = true
  · simp only [hk, if_true] at hchild ⊢
    cases hentry : w.successor d.id Slot.executor with
    | none => rfl
    | some entry => simp only [hchild entry hentry]
  · rw [if_neg hk, if_neg hk]

theorem build_congr (hd : d.unplaced = d'.unplaced) (hs : w.successor d.id = w'.successor d.id)
    (hchild : ∀ entry, bodyEntry ⟨w, validate⟩ d = some entry → child entry = child' entry) :
    build ⟨w, validate⟩ child d = build ⟨w', validate⟩ child' d' := by
  rw [build, build, body_congr hd hs hchild]
  simp only [block_congr hd hs]

/-- **The rounds go in lockstep**: the same id is taken, and the same block built or the same fault
met. -/
theorem buildPending_alike (hw : w.Sound) (h : w.Alike w' start)
    (hchild : ∀ entry, w.net.Depends start entry → child entry = child' entry) :
    ∀ (fuel : Nat) (blocks : BlockMap) (pending : List String),
      (∀ id ∈ pending, w.net.Leads start id) →
      buildPending ⟨w, validate⟩ child fuel blocks pending
        = buildPending ⟨w', validate⟩ child' fuel blocks pending := by
  intro fuel
  induction fuel with
  | zero => intro blocks pending _; rfl
  | succ fuel ih =>
      intro blocks pending hpending
      cases pending with
      | nil => rfl
      | cons id pending =>
          obtain ⟨hid, hrest⟩ := List.forall_mem_cons.mp hpending
          rw [buildPending, buildPending]
          by_cases hc : Entries.contains id blocks = true
          · rw [if_pos hc, if_pos hc]
            exact ih _ _ hrest
          · rw [if_neg hc, if_neg hc]
            have hblocks := h.blocks id hid
            simp only [Wiring.net] at hblocks
            cases hd : Entries.find? id w.definitions with
            | none =>
                rw [hd] at hblocks
                have hd' : Entries.find? id w'.definitions = none := by simpa using hblocks.symm
                simp only [hd', ih _ _ hrest]
            | some d =>
                rw [hd] at hblocks
                obtain ⟨d', hd', hunplaced⟩ := Option.map_eq_some_iff.mp hblocks.symm
                have hreach : w.net.Reaches start id := hid.reaches ⟨d, hd⟩
                have hbuild : build ⟨w, validate⟩ child d = build ⟨w', validate⟩ child' d' :=
                  build_congr hunplaced.symm (h.successor_eq d.id) fun entry hentry =>
                    hchild entry (depends_of_bodyEntry (c := ⟨w, validate⟩) hw hreach hd hentry)
                have hkind := (BlockDef.unplaced_eq_iff.mp hunplaced).2.1
                simp only [hd', hbuild, hkind, ← h.targets_eq id]
                refine bind_congr fun built => bind_congr fun _ => ih _ _ ?_
                intro next hmem
                rcases List.mem_append.mp hmem with hnew | hold
                · rw [List.mem_reverse, List.mem_filter] at hnew
                  obtain ⟨slot, ht⟩ := hw.mem_targets.mp hnew.1
                  exact Or.inr ⟨id, slot, hreach, ht⟩
                · exact hrest next hold

theorem buildFrom_alike (hw : w.Sound) (h : w.Alike w' start)
    (hchild : ∀ entry, w.net.Depends start entry → child entry = child' entry) :
    buildFrom ⟨w, validate⟩ child start = buildFrom ⟨w', validate⟩ child' start := by
  rw [buildFrom, buildFrom, ← h.edgeCount_eq]
  refine buildPending_alike hw h hchild _ _ _ fun id hmem => Or.inl ?_
  exact List.mem_singleton.mp hmem

/-- The bodies are compiled alike, at every depth. -/
theorem buildBody_alike (hw : w.Sound) :
    ∀ (depth : Nat) (opened : List String) (entry : String), w.Alike w' entry →
      buildBody ⟨w, validate⟩ depth opened entry = buildBody ⟨w', validate⟩ depth opened entry := by
  intro depth
  induction depth with
  | zero => intro opened entry _; rfl
  | succ depth ih =>
      intro opened entry h
      rw [buildBody, buildBody]
      by_cases hopen : opened.contains entry = true
      · rw [if_pos hopen, if_pos hopen]
      · rw [if_neg hopen, if_neg hopen]
        exact buildFrom_alike hw h fun next hd => ih _ next (h.of_depends hd)

theorem buildChild_alike (hw : w.Sound) (h : w.Alike w' entry) :
    buildChild ⟨w, validate⟩ entry = buildChild ⟨w', validate⟩ entry := by
  rw [buildChild, buildChild, bodyDepth, bodyDepth, ← h.edgeCount_eq]
  exact buildBody_alike hw _ _ entry h

/-- **Compiling from a block looks at nothing but what it leads to.** -/
theorem buildGraph_alike (hw : w.Sound) (h : w.Alike w' start) :
    buildGraph ⟨w, validate⟩ start = buildGraph ⟨w', validate⟩ start :=
  buildFrom_alike hw h fun _ hd => buildChild_alike hw (h.of_depends hd)

end Compiler

theorem Program.compileFrom_alike {w w' : Wiring} {start : String} {validate : Bool}
    (hw : w.Sound) (h : w.Alike w' start) :
    compileFrom ⟨w, validate⟩ start = compileFrom ⟨w', validate⟩ start := by
  rw [compileFrom, compileFrom, Compiler.buildGraph_alike hw h]

end FlowGraph
