/-
Which graphs compile.

`Graph.Compiles` says it of the graph alone: one entrypoint, no id twice, settings that are
accepted wherever the entrypoint leads, and no body that needs itself.  `Graph.HasFault`
says of an error what is wrong with the graph when the error is right.  A graph with a
fault does not satisfy `Compiles`, and compiling either succeeds on a graph that does or
reports a fault; so success and `Compiles` are the same, and every error is right.

Both are stated over the net of the graph, where the first edge of a slot counts.  A slot
may have any name, and a walk goes through defined blocks only, so a slot that leads
nowhere is no fault.
-/
import FlowGraph.Proofs.Compile.Bodies

namespace FlowGraph

namespace Graph

/-- The graph can be compiled from its entrypoint. -/
structure Compiles (g : Graph) (validate : Bool) : Prop where
  entrypoint : ∃ start, g.entrypoints = [start]
  distinct : (g.blocks.map BlockDef.id).Nodup
  accepted : ∀ start ∈ g.entrypoints, ∀ b ∈ g.blocks, g.net.Reaches start b.id → b.Accepted validate
  grounded : ∀ start ∈ g.entrypoints, ∀ x, g.net.Depends start x →
    ¬ Relation.TransGen g.net.Depends x x

/-- The error tells what is wrong with the graph. -/
inductive HasFault (g : Graph) (validate : Bool) : BuildError → Prop
  | missingEntrypoint (h : g.entrypoints = []) : HasFault g validate .missingEntrypoint
  | multipleEntrypoints (h : 2 ≤ g.entrypoints.length) :
      HasFault g validate (.multipleEntrypoints g.entrypoints)
  | duplicateBlock {id : String} (h : 2 ≤ (g.blocks.map BlockDef.id).count id) :
      HasFault g validate (.duplicateBlock id)
  | invalidConfig {start text : String} {b : BlockDef} (hs : start ∈ g.entrypoints)
      (hb : b ∈ g.blocks) (hr : g.net.Reaches start b.id) (h : b.Rejected validate text) :
      HasFault g validate (.invalidConfig b.id b.kind text)
  | recursiveBody {start x : String} (hs : start ∈ g.entrypoints) (hx : g.net.Depends start x)
      (h : Relation.TransGen g.net.Depends x x) : HasFault g validate (.recursiveBody x)

variable {g : Graph} {validate : Bool} {e : BuildError} {start id : String} {b : BlockDef}

theorem HasFault.not_compiles (hf : g.HasFault validate e) : ¬ g.Compiles validate := by
  intro hc
  obtain ⟨start, hstart⟩ := hc.entrypoint
  cases hf with
  | missingEntrypoint h => simp [hstart] at h
  | multipleEntrypoints h => simp [hstart] at h
  | duplicateBlock h =>
      have := List.nodup_iff_count.mp hc.distinct ‹String›
      omega
  | invalidConfig hs hb hr h => exact h.not_accepted (hc.accepted _ hs _ hb hr)
  | recursiveBody hs hx h => exact hc.grounded _ hs _ hx h

theorem mem_of_block? (h : g.net.block? id = some b) : b ∈ g.blocks ∧ b.id = id :=
  ⟨List.mem_of_find?_eq_some h, by simpa using List.find?_some h⟩

theorem defines_of_mem (hb : b ∈ g.blocks) : g.net.Defines b.id :=
  Option.isSome_iff_exists.mp (List.find?_isSome.mpr ⟨b, hb, by simp⟩)

/-- Where no id repeats, every block is found under its id. -/
theorem block?_of_mem (hd : (g.blocks.map BlockDef.id).Nodup) (hb : b ∈ g.blocks) :
    g.net.block? b.id = some b := by
  show g.blocks.find? (fun b' => b'.id = b.id) = some b
  generalize g.blocks = bs at hd hb
  induction bs with
  | nil => simp at hb
  | cons first rest ih =>
      obtain ⟨hfresh, hrest⟩ := List.nodup_cons.mp hd
      rcases List.mem_cons.mp hb with rfl | hmem
      · simp
      · have hne : first.id ≠ b.id := fun hc => hfresh (hc ▸ List.mem_map_of_mem hmem)
        rw [List.find?_cons]
        simp [hne, ih hrest hmem]

theorem mem_edges_of_target? {slot : String} (h : g.net.target? start slot = some id) :
    ∃ e ∈ g.edges, e.start = start ∧ e.slot = slot ∧ e.target = id := by
  obtain ⟨e, he, htarget⟩ := Option.map_eq_some_iff.mp h
  have hends : e.start = start ∧ e.slot = slot := by simpa using List.find?_some he
  exact ⟨e, List.mem_of_find?_eq_some he, hends.1, hends.2, htarget⟩

theorem HasFault.of_faulty (hs : start ∈ g.entrypoints) (h : g.net.Faulty validate start e) :
    g.HasFault validate e := by
  cases h with
  | invalidConfig hr hd hrej =>
      obtain ⟨hmem, rfl⟩ := mem_of_block? hd
      exact .invalidConfig hs hmem hr hrej
  | recursiveBody hx hloop => exact .recursiveBody hs hx (.single hloop)

end Graph

/-! ### Compiling a graph -/

namespace Program

/-- What is known of a program that was compiled from a block. -/
structure CompiledFrom (c : Compiler) (start : String) (p : Program) : Prop where
  entrypoint : p.entrypoint = start
  defines : c.wiring.net.Defines start
  layered : c.Layered start p.blocks
  grounded : ∀ x, c.wiring.net.Depends start x → ¬ c.wiring.net.Depends x x

theorem compileFrom_ends {c : Compiler} (hs : c.wiring.Sound) (start : String) :
    Build.Ends (compileFrom c start) (CompiledFrom c start)
      (fun e => c.wiring.net.Faulty c.validate start e ∨
        (e = .unknownStart start ∧ ¬ c.wiring.net.Defines start)) := by
  rw [compileFrom]
  refine .bind ((Compiler.buildGraph_ends hs start).mono (fun _ h => h) fun _ h => Or.inl h) ?_
  rintro blocks ⟨hlayered, hgrounded⟩
  have hcompiled := hlayered start blocks .self
  by_cases hc : Entries.contains start blocks = true
  · rw [if_pos hc]
    have hdef := ((hcompiled.contains_iff start).mp hc).defines
    exact .bind (.noted _) fun _ _ => .pure ⟨rfl, hdef, hlayered, hgrounded⟩
  · rw [if_neg hc]
    exact .throw (Or.inr ⟨rfl, fun hd => hc ((hcompiled.contains_iff start).mpr (.start hd))⟩)

/-- A program that was compiled from the entrypoint of a graph shows that the graph compiles. -/
theorem CompiledFrom.compiles {g : Graph} {w : Wiring} {validate : Bool} {start : String}
    {p : Program} (h : CompiledFrom ⟨w, validate⟩ start p) (hw : Wiring.ofGraph g = .ok w)
    (hstart : w.entrypoint = some start) : g.Compiles validate := by
  obtain ⟨-, hnet, hdistinct, hentry⟩ := Wiring.ofGraph_ok hw
  have hone : g.entrypoints = [start] := by rw [hentry, hstart]; rfl
  have hcompiled := h.layered start p.blocks .self
  have hgrounded := h.grounded
  simp only [hnet] at hcompiled hgrounded
  refine ⟨⟨start, hone⟩, hdistinct, ?_, ?_⟩
  · intro start' hs b hb hr
    obtain rfl : start' = start := by simpa [hone] using hs
    obtain ⟨built, hbuilt⟩ := Entries.contains_iff.mp ((hcompiled.contains_iff b.id).mpr hr)
    obtain ⟨d, hd, hbuilds⟩ := hcompiled.built b.id built hbuilt
    rw [Graph.block?_of_mem hdistinct hb] at hd
    exact Option.some.inj hd ▸ hbuilds.accepted
  · intro start' hs x hx
    obtain rfl : start' = start := by simpa [hone] using hs
    rw [Net.Depends.transGen_iff]
    exact hgrounded x hx

theorem compile_ends (g : Graph) (validate : Bool) :
    Build.Ends (compile g validate) (fun _ => g.Compiles validate) (g.HasFault validate) := by
  rw [compile]
  have hload : Build.Ends (liftM (Wiring.ofGraph g)) (fun w => Wiring.ofGraph g = .ok w)
      (g.HasFault validate) := by
    refine .lift (fun _ h => h) fun e he => ?_
    rcases Wiring.ofGraph_error he with ⟨rfl, hlen⟩ | ⟨id, rfl, hcount⟩
    · exact .multipleEntrypoints hlen
    · exact .duplicateBlock hcount
  refine .bind hload fun w hw => ?_
  obtain ⟨hloaded, hnet, -, hentry⟩ := Wiring.ofGraph_ok hw
  cases hstart : w.entrypoint with
  | none =>
      rw [hstart] at hentry
      exact .throw (.missingEntrypoint hentry)
  | some start =>
      have hmem : start ∈ g.entrypoints := by
        rw [hentry, hstart]
        exact List.mem_singleton.mpr rfl
      refine (compileFrom_ends (c := ⟨w, validate⟩) hloaded.sound start).mono ?_ ?_
      · exact fun p hp => hp.compiles hw hstart
      · rintro e (hfault | ⟨-, hundefined⟩)
        · exact .of_faulty hmem (hnet ▸ hfault)
        · -- The entrypoint is one of the blocks of the graph.
          exfalso
          obtain ⟨b, hb, rfl⟩ := List.mem_map.mp hmem
          exact hundefined (hnet ▸ Graph.defines_of_mem (List.mem_filter.mp hb).1)

/-- **A graph compiles exactly if it has one entrypoint and distinct ids, and from the entrypoint
only accepted settings and no body that needs itself are reached**; and every error names a
fault of the graph. -/
theorem compile_ok_iff_compiles (g : Graph) (validate : Bool) (log : BuildLog) :
    ((∃ p, Build.result (compile g validate) log = .ok p) ↔ g.Compiles validate) ∧
      ∀ e, Build.result (compile g validate) log = .error e → g.HasFault validate e := by
  have hends := compile_ends g validate
  refine ⟨⟨?_, ?_⟩, fun e he => hends.error he⟩
  · rintro ⟨p, hp⟩
    exact hends.ok hp
  · intro hc
    cases hr : Build.result (compile g validate) log with
    | ok p => exact ⟨p, rfl⟩
    | error e => exact absurd hc (hends.error hr).not_compiles

/-- Compiling begins where it is told to, or else at the entrypoint. -/
theorem compileGraph_eq (g : Graph) (validate : Bool) (from? : Option String) :
    compileGraph g validate from? = (do
      let w ← liftM (Wiring.ofGraph g)
      match from?.or w.entrypoint with
      | some start => compileFrom ⟨w, validate⟩ start
      | none => throw .missingEntrypoint) := by
  cases from? <;> rfl

theorem compileGraph_of_ok {g : Graph} {w : Wiring} (hw : Wiring.ofGraph g = .ok w)
    (validate : Bool) (from? : Option String) :
    compileGraph g validate from? =
      match from?.or w.entrypoint with
      | some start => compileFrom ⟨w, validate⟩ start
      | none => throw .missingEntrypoint := by
  rw [compileGraph_eq, hw]
  rfl

theorem compileGraph_starts (g : Graph) (validate : Bool) (from? : Option String) :
    Build.Ends (compileGraph g validate from?)
      (fun p => ∃ w start, Wiring.ofGraph g = .ok w ∧ from?.or w.entrypoint = some start ∧
        CompiledFrom ⟨w, validate⟩ start p)
      (fun _ => True) := by
  rw [compileGraph_eq]
  refine .bind (.lift (fun _ h => h) fun _ _ => trivial) fun w hw => ?_
  cases hstart : from?.or w.entrypoint with
  | none => exact .throw trivial
  | some start =>
      have hsound := (Wiring.ofGraph_ok hw).1.sound
      exact (compileFrom_ends (c := ⟨w, validate⟩) hsound start).mono
        (fun p hp => ⟨w, start, hw, hstart, hp⟩) fun _ _ => trivial

end Program

/-! ### The blocks of a compiled graph -/

/-- **Building from a block takes in exactly the defined blocks that it reaches**, each under its
own id, and each is what its definition says: its kind, its settings and its successors. -/
theorem Compiler.buildGraph_realizes {w : Wiring} (hw : w.Loaded) (validate : Bool) (start : String)
    (log : BuildLog) {blocks : BlockMap}
    (h : Build.result (Compiler.buildGraph ⟨w, validate⟩ start) log = .ok blocks) :
    (Entries.keys blocks).Nodup ∧ (∀ id, id ∈ Entries.keys blocks ↔ w.net.Reaches start id) ∧
      (¬ w.net.Defines start → blocks = []) ∧
      ∀ id b, Entries.find? id blocks = some b →
        b.id = id ∧
          ∃ d, Entries.find? id w.definitions = some d ∧ b.Realizes d (w.successor id) := by
  obtain ⟨hlayered, -⟩ := (buildGraph_ends hw.sound start).ok h
  have hcompiled := hlayered start blocks .self
  have hkeys : ∀ id, id ∈ Entries.keys blocks ↔ w.net.Reaches start id := fun id =>
    Entries.contains_iff_mem_keys.symm.trans (hcompiled.contains_iff id)
  refine ⟨hcompiled.distinct, hkeys, ?_, ?_⟩
  · intro hundefined
    cases blocks with
    | nil => rfl
    | cons e rest =>
        have hmem : e.1 ∈ Entries.keys (e :: rest) := List.mem_cons_self ..
        exact absurd ((hkeys e.1).mp hmem).defines_start hundefined
  · intro id b hb
    obtain ⟨d, hd, hbuilds⟩ := hcompiled.built id b hb
    have hid : d.id = id := hw.sound.ids id d hd
    refine ⟨hbuilds.realizes.id.trans hid, d, hd, ?_⟩
    rw [← hid]
    exact hbuilds.realizes

/-- A wiring with a transaction around a block that leads to itself and into nothing, with a second
edge in one slot, and with a block that nothing leads to. -/
def Wiring.around : Wiring :=
  (({} : Wiring).addBlocks
      [⟨"in", .entrypoint, .null, none⟩, ⟨"island", .logger, .null, none⟩,
       ⟨"read", .getVar, .obj [("key", .str "x")], none⟩,
       ⟨"tx", .transaction, .null, none⟩]).2.addEdges
    [⟨"", "in", "tx", none, Slot.source⟩, ⟨"", "in", "island", none, Slot.source⟩,
     ⟨"", "tx", "read", none, Slot.executor⟩, ⟨"", "read", "ghost", none, Slot.source⟩,
     ⟨"", "read", "read", none, "again"⟩]

/-- The blocks that are built from it. -/
def BlockMap.around : BlockMap :=
  let read : Block := .task "read" (some "ghost") (.getVar ⟨"x"⟩)
  [("in", .task "in" (some "tx") .entrypoint), ("read", read),
   ("tx", .nested "tx" none .transaction (some ("read", [("read", read)])))]

theorem Compiler.buildGraph_realizes_around :
    Wiring.around.Loaded ∧
      Build.result (Compiler.buildGraph ⟨.around, true⟩ "in") {} = .ok BlockMap.around ∧
      (∀ id, id ∈ ["in", "read", "tx"] ↔ Wiring.around.net.Reaches "in" id) ∧
      ∃ d, Entries.find? "read" Wiring.around.definitions = some d ∧
        (Block.task "read" (some "ghost") (.getVar ⟨"x"⟩)).Realizes d
          (Wiring.around.successor "read") := by
  have hloaded : Wiring.around.Loaded := .edges (.blocks .empty _) _
  have hbuilt : Build.result (Compiler.buildGraph ⟨.around, true⟩ "in") {}
      = .ok BlockMap.around := rfl
  obtain ⟨-, hkeys, -, hblocks⟩ := Compiler.buildGraph_realizes hloaded true "in" {} hbuilt
  exact ⟨hloaded, hbuilt, hkeys, (hblocks "read" _ rfl).2⟩

end FlowGraph
