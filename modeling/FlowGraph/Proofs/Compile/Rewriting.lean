/-
Ways to write a graph down.

Much of a graph is only a way of writing it: the order of its blocks, their places on a canvas,
the ids of its edges, edges that come after the first one of their slot, and blocks that nothing
leads to, whatever is told to them.  `Graph.Rewrites` says that two graphs differ in nothing
else.

Such graphs compile alike, and not only if they compile: where one of them has several faults,
the same one is met first in the other.  Edges are kept by their blocks and slots, so the edges
that count are the same ones in the same places.  And no walk from the start comes to a block that
only one of the graphs has, because it would reach it.
-/
import FlowGraph.Proofs.Compile.Alike

namespace FlowGraph

namespace Graph

/-- Where compiling starts: where it is told to, or else at the entrypoint. -/
def start? (g : Graph) (from? : Option String) : Option String := from?.or g.entrypoints.head?

/-- Where the edges of a slot lead, in their order. -/
def leaving (g : Graph) (id slot : String) : List String :=
  (g.edges.filter fun e => e.start = id ∧ e.slot = slot).map EdgeDef.target

/-- The blocks that are not spare, without their places. -/
def fixed (g : Graph) (spare : List String) : List BlockDef :=
  (g.blocks.filter fun b => b.id ∉ spare).map BlockDef.unplaced

/-- The second graph is the first one, written down in another way.  The ids of blocks that only one
of them has, or that are told different things in the two, are spare. -/
structure Rewrites (g g' : Graph) (from? : Option String) (spare : List String) : Prop where
  /-- The other blocks are the same ones, in any order and at any place. -/
  blocks : (g.fixed spare).Perm (g'.fixed spare)
  /-- The edges of a slot lead to the same targets in the same order, whatever their ids are and
  whatever stands between them.  Any of them but the first may be left out. -/
  edges : ∀ id slot, (g'.leaving id slot).Sublist (g.leaving id slot) ∧
    (g'.leaving id slot).head? = (g.leaving id slot).head?
  /-- No entrypoint is spare. -/
  ordinary : ∀ b ∈ g.blocks ++ g'.blocks, b.id ∈ spare → b.kind ≠ .entrypoint
  /-- Neither graph leads from the start to a spare block. -/
  unreached : ∀ start, g.start? from? = some start → ∀ id ∈ spare,
    ¬ g.net.Reaches start id ∧ ¬ g'.net.Reaches start id

variable {g g' : Graph} {from? : Option String} {spare : List String} {id slot start : String}

/-- The first edge of a slot counts. -/
theorem target?_eq_head? (g : Graph) (id slot : String) :
    g.net.target? id slot = (g.leaving id slot).head? := by
  rw [leaving, List.head?_map, List.head?_filter]
  rfl

/-- Nothing leads away by a slot that no edge is for. -/
theorem leaving_eq_nil (h : ∀ e ∈ g.edges, ¬ (e.start = id ∧ e.slot = slot)) :
    g.leaving id slot = [] := by
  rw [leaving, List.filter_eq_nil_iff.mpr (by simpa using h), List.map_nil]

/-- Only the slots that there are edges for have to be compared. -/
theorem leaving_of_edges
    (h : ∀ e ∈ g.edges ++ g'.edges,
      (g'.leaving e.start e.slot).Sublist (g.leaving e.start e.slot) ∧
        (g'.leaving e.start e.slot).head? = (g.leaving e.start e.slot).head?) (id slot : String) :
    (g'.leaving id slot).Sublist (g.leaving id slot) ∧
      (g'.leaving id slot).head? = (g.leaving id slot).head? := by
  by_cases hedge : ∃ e ∈ g.edges ++ g'.edges, e.start = id ∧ e.slot = slot
  · obtain ⟨e, he, rfl, rfl⟩ := hedge
    exact h e he
  · have hnone : ∀ e ∈ g.edges ++ g'.edges, ¬ (e.start = id ∧ e.slot = slot) :=
      fun e he hslot => hedge ⟨e, he, hslot⟩
    rw [leaving_eq_nil fun e he => hnone e (List.mem_append_left _ he),
      leaving_eq_nil fun e he => hnone e (List.mem_append_right _ he)]
    exact ⟨.refl _, rfl⟩

/-- A block that is not spare is found among the fixed ones. -/
theorem mem_fixed_iff (hd : (g.blocks.map BlockDef.id).Nodup) (hid : id ∉ spare) {u : BlockDef} :
    (g.net.block? id).map BlockDef.unplaced = some u ↔ u ∈ g.fixed spare ∧ u.id = id := by
  rw [Option.map_eq_some_iff, fixed, List.mem_map]
  constructor
  · rintro ⟨b, hb, rfl⟩
    obtain ⟨hmem, rfl⟩ := mem_of_block? hb
    exact ⟨⟨b, List.mem_filter.mpr ⟨hmem, by simpa using hid⟩, rfl⟩, rfl⟩
  · rintro ⟨⟨b, hb, rfl⟩, rfl⟩
    exact ⟨b, block?_of_mem hd (List.mem_filter.mp hb).1, rfl⟩

/-- Where no entrypoint is spare, the entrypoints are among the fixed blocks. -/
theorem entrypoints_eq (h : ∀ b ∈ g.blocks, b.id ∈ spare → b.kind ≠ .entrypoint) :
    g.entrypoints = Wiring.entrypointsOf (g.fixed spare) := by
  have hkept : g.blocks.filter (fun b => b.kind = .entrypoint)
      = (g.blocks.filter fun b => b.id ∉ spare).filter fun b => b.kind = .entrypoint := by
    rw [List.filter_filter]
    refine List.filter_congr fun b hb => ?_
    by_cases hk : b.kind = .entrypoint
    · have hfixed : b.id ∉ spare := fun hmem => h b hb hmem hk
      simp [hk, hfixed]
    · simp [hk]
  rw [entrypoints, hkept, Wiring.entrypointsOf, fixed, List.filter_map, List.map_map]
  rfl

/-- Spare blocks are not reached if only spare blocks have edges to them. -/
theorem not_reaches_of_edges (hstart : start ∉ spare)
    (hedges : ∀ e ∈ g.edges, e.target ∈ spare → e.start ∈ spare) (hid : id ∈ spare) :
    ¬ g.net.Reaches start id := by
  intro hr
  induction hr with
  | start _ => exact hstart hid
  | @step place slot next _ ht _ ih =>
      obtain ⟨e, he, rfl⟩ := Option.map_eq_some_iff.mp ht
      have hleaves := List.find?_some he
      simp only [decide_eq_true_eq] at hleaves
      exact ih (hleaves.1 ▸ hedges e (List.mem_of_find?_eq_some he) hid)

namespace Rewrites

theorem target? (h : g.Rewrites g' from? spare) (id slot : String) :
    g'.net.target? id slot = g.net.target? id slot := by
  rw [target?_eq_head?, target?_eq_head?]
  exact (h.edges id slot).2

theorem entrypoints (h : g.Rewrites g' from? spare) : g'.entrypoints.Perm g.entrypoints := by
  rw [entrypoints_eq fun b hb => h.ordinary b (List.mem_append_left _ hb),
    entrypoints_eq fun b hb => h.ordinary b (List.mem_append_right _ hb)]
  exact ((h.blocks.filter _).map BlockDef.id).symm

section Distinct

variable (h : g.Rewrites g' from? spare) (hd : (g.blocks.map BlockDef.id).Nodup)
  (hd' : (g'.blocks.map BlockDef.id).Nodup)

include h hd hd'

/-- Blocks that are not spare are the same in both. -/
theorem block? (hid : id ∉ spare) :
    (g.net.block? id).map BlockDef.unplaced = (g'.net.block? id).map BlockDef.unplaced := by
  refine Option.ext fun u => ?_
  rw [mem_fixed_iff hd hid, mem_fixed_iff hd' hid, h.blocks.mem_iff]

theorem defines (hid : id ∉ spare) (hdef : g.net.Defines id) : g'.net.Defines id := by
  obtain ⟨b, hb⟩ := hdef
  have hsame := h.block? hd hd' hid
  rw [hb] at hsame
  obtain ⟨b', hb', -⟩ := Option.map_eq_some_iff.mp hsame.symm
  exact ⟨b', hb'⟩

/-- What the first graph reaches is not spare, so the second one reaches it too. -/
theorem reaches (hs : g.start? from? = some start) (hr : g.net.Reaches start id) :
    g'.net.Reaches start id := by
  have hfixed : ∀ {id}, g.net.Reaches start id → id ∉ spare :=
    fun hr hmem => (h.unreached start hs _ hmem).1 hr
  induction hr with
  | start hdef => exact .start (h.defines hd hd' (hfixed (.start hdef)) hdef)
  | step hr ht hdef ih =>
      exact ih.step ((h.target? _ _).trans ht)
        (h.defines hd hd' (hfixed (hr.step ht hdef)) hdef)

/-- Wherever a walk may come to, both have the same block, or neither has one. -/
theorem block?_of_leads (hs : g.start? from? = some start) (hl : g.net.Leads start id) :
    (g.net.block? id).map BlockDef.unplaced = (g'.net.block? id).map BlockDef.unplaced := by
  by_cases hid : id ∈ spare
  · obtain ⟨hunreached, hunreached'⟩ := h.unreached start hs id hid
    have hl' : g'.net.Leads start id := by
      rcases hl with rfl | ⟨place, slot, hplace, ht⟩
      · exact Or.inl rfl
      · exact Or.inr ⟨place, slot, h.reaches hd hd' hs hplace, (h.target? _ _).trans ht⟩
    cases hb : g.net.block? id with
    | some b => exact absurd (hl.reaches ⟨b, hb⟩) hunreached
    | none =>
        cases hb' : g'.net.block? id with
        | some b => exact absurd (hl'.reaches ⟨b, hb'⟩) hunreached'
        | none => rfl
  · exact h.block? hd hd' hid

end Distinct

/-- The wirings of the graphs are alike for the start. -/
theorem alike (h : g.Rewrites g' from? spare) {w w' : Wiring} (hw : Wiring.ofGraph g = .ok w)
    (hw' : Wiring.ofGraph g' = .ok w') (hs : g.start? from? = some start) : w.Alike w' start := by
  obtain ⟨hloaded, hnet, hd, -⟩ := Wiring.ofGraph_ok hw
  obtain ⟨hloaded', hnet', hd', -⟩ := Wiring.ofGraph_ok hw'
  refine ⟨hloaded.tidy.edges_eq hloaded'.tidy fun id slot => ?_, ?_⟩
  · have hsame : w'.net.target? id slot = w.net.target? id slot := by
      rw [hnet, hnet']
      exact h.target? id slot
    exact hsame.symm
  · rw [hnet, hnet']
    exact fun id hl => h.block?_of_leads hd hd' hs hl

end Rewrites

end Graph

/-- **Two ways to write a graph down compile alike**, from the entrypoint or from any block: to the
same program, or to the same error. -/
theorem Program.compileGraph_rewritten {g g' : Graph} {from? : Option String} {spare : List String}
    (h : g.Rewrites g' from? spare) (hd : (g.blocks.map BlockDef.id).Nodup)
    (hd' : (g'.blocks.map BlockDef.id).Nodup) (hone : g.entrypoints.length ≤ 1) (validate : Bool) :
    compileGraph g validate from? = compileGraph g' validate from? := by
  obtain ⟨w, hw⟩ := Wiring.exists_ofGraph hd hone
  obtain ⟨w', hw', hentry⟩ := Wiring.exists_ofGraph_of_perm hw hd' h.entrypoints
  obtain ⟨hloaded, -, -, hentries⟩ := Wiring.ofGraph_ok hw
  have hstart : g.start? from? = from?.or w.entrypoint := by
    rw [Graph.start?, hentries]
    cases w.entrypoint <;> rfl
  rw [compileGraph_of_ok hw, compileGraph_of_ok hw', hentry]
  cases hcase : from?.or w.entrypoint with
  | none => rfl
  | some start => exact compileFrom_alike hloaded.sound (h.alike hw hw' (hstart.trans hcase))

/-- A graph with an edge that does not count and a block that nothing leads to. -/
def Graph.cluttered : Graph :=
  ⟨[⟨"in", .entrypoint, .null, some ⟨0, 0⟩⟩,
    ⟨"all", .each, .obj [("values", .arr [.str "a", .str "b"])], none⟩,
    ⟨"read", .getVar, .obj [("key", .str "x")], none⟩,
    ⟨"lost", .logger, .null, none⟩],
   [⟨"", "in", "all", none, Slot.source⟩, ⟨"", "in", "read", none, Slot.source⟩,
    ⟨"", "all", "read", none, Slot.executor⟩, ⟨"", "lost", "in", none, Slot.source⟩]⟩

/-- The same graph written down the other way round, without that edge, and with settings that are
not accepted in the block that nothing leads to. -/
def Graph.rearranged : Graph :=
  ⟨[⟨"lost", .getVar, .null, some ⟨1, 1⟩⟩,
    ⟨"read", .getVar, .obj [("key", .str "x")], none⟩,
    ⟨"all", .each, .obj [("values", .arr [.str "a", .str "b"])], some ⟨1, 0⟩⟩,
    ⟨"in", .entrypoint, .null, none⟩],
   [⟨"3", "lost", "in", none, Slot.source⟩, ⟨"2", "all", "read", some "left", Slot.executor⟩,
    ⟨"1", "in", "all", none, Slot.source⟩]⟩

theorem Program.compileGraph_rewritten_rearranged :
    Graph.cluttered.Rewrites .rearranged none ["lost"] ∧
      compileGraph .cluttered true none = compileGraph .rearranged true none := by
  have hrewrites : Graph.cluttered.Rewrites .rearranged none ["lost"] := by
    refine ⟨(List.reverse_perm _).symm, Graph.leaving_of_edges (by decide), by decide, ?_⟩
    intro start hs id hid
    obtain rfl := Option.some.inj hs
    exact ⟨Graph.not_reaches_of_edges (by decide) (by decide) hid,
      Graph.not_reaches_of_edges (by decide) (by decide) hid⟩
  exact ⟨hrewrites, compileGraph_rewritten hrewrites (by decide) (by decide) (by decide) true⟩

end FlowGraph
