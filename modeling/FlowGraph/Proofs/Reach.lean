/-
What can be reached in a graph.

Compiling asks two things of a graph: which block an id stands for, and where a slot of a
block leads.  A `Net` is these two and nothing else.  A graph has one, in which the first
block of an id and the first edge of a slot count, and so has the wiring that is loaded
from it; `Proofs/Loading.lean` shows that the two are the same.

`Reaches` walks over slots of every name, but through blocks that are defined only.  `Leads`
adds the ids that such a walk comes to without finding a block.
`Depends` says that a body is needed: its entry is the target of the `executor` slot of a
block that owns a body and can be reached.  Such slots are walked over as well, so what
a body needs is also needed by everything that needs the body, and `Depends` is
transitive as it stands.
-/
import FlowGraph.Compile.Wiring
import FlowGraph.Proofs.Entries
import Mathlib.Logic.Relation

namespace FlowGraph

/-- Which blocks there are, and where their slots lead. -/
structure Net where
  block? : String → Option BlockDef
  target? : String → String → Option String

/-- The blocks and edges of a graph, the first of several in one place. -/
def Graph.net (g : Graph) : Net where
  block? id := g.blocks.find? fun b => b.id = id
  target? id slot := (g.edges.find? fun e => e.start = id ∧ e.slot = slot).map EdgeDef.target

/-- The blocks and edges of a wiring. -/
def Wiring.net (w : Wiring) : Net where
  block? id := Entries.find? id w.definitions
  target? := w.successor

namespace Net

variable {n : Net} {x y z id start : String}

/-- The id stands for a block. -/
def Defines (n : Net) (id : String) : Prop := ∃ b, n.block? id = some b

/-- A walk over slots of defined blocks leads from a block to a defined block. -/
inductive Reaches (n : Net) (start : String) : String → Prop
  | start (h : n.Defines start) : Reaches n start start
  | step {id slot next : String} (h : Reaches n start id) (ht : n.target? id slot = some next)
      (hd : n.Defines next) : Reaches n start next

/-- A block that is reached from `x` owns a body that starts at `y`. -/
def Depends (n : Net) (x y : String) : Prop :=
  ∃ id b, n.Reaches x id ∧ n.block? id = some b ∧ b.kind.hasBody = true ∧
    n.target? id Slot.executor = some y

namespace Reaches

theorem defines (h : n.Reaches x y) : n.Defines y := by
  cases h with
  | start hd => exact hd
  | step _ _ hd => exact hd

theorem defines_start (h : n.Reaches x y) : n.Defines x := by
  induction h with
  | start hd => exact hd
  | step _ _ _ ih => exact ih

theorem trans (hxy : n.Reaches x y) (hyz : n.Reaches y z) : n.Reaches x z := by
  induction hyz with
  | start _ => exact hxy
  | step _ ht hd ih => exact .step ih ht hd

/-- From the target of a slot everything is reached that the target reaches. -/
theorem through {slot : String} (hx : n.Reaches x id) (ht : n.target? id slot = some y)
    (hyz : n.Reaches y z) : n.Reaches x z :=
  (step hx ht hyz.defines_start).trans hyz

end Reaches

/-- A walk from a block may come to the id: it is the start, or a target of a block that is
reached. -/
def Leads (n : Net) (start id : String) : Prop :=
  id = start ∨ ∃ place slot, n.Reaches start place ∧ n.target? place slot = some id

theorem Leads.reaches (h : n.Leads start id) (hd : n.Defines id) : n.Reaches start id := by
  rcases h with rfl | ⟨place, slot, hplace, ht⟩
  · exact .start hd
  · exact hplace.step ht hd

namespace Depends

theorem reaches (h : n.Depends x y) (hyz : n.Reaches y z) : n.Reaches x z := by
  obtain ⟨id, b, hr, -, -, ht⟩ := h
  exact hr.through ht hyz

/-- Whatever a body leads to, what needs the body leads to as well. -/
theorem leads (h : n.Depends x y) (hyz : n.Leads y z) : n.Leads x z := by
  rcases hyz with rfl | ⟨place, slot, hplace, ht⟩
  · obtain ⟨id, b, hr, -, -, ht⟩ := h
    exact Or.inr ⟨id, Slot.executor, hr, ht⟩
  · exact Or.inr ⟨place, slot, h.reaches hplace, ht⟩

theorem trans (hxy : n.Depends x y) (hyz : n.Depends y z) : n.Depends x z := by
  obtain ⟨id, b, hr, hb, hk, ht⟩ := hyz
  exact ⟨id, b, hxy.reaches hr, hb, hk, ht⟩

instance (n : Net) : IsTrans String n.Depends := ⟨fun _ _ _ => trans⟩

/-- A chain of bodies that need one another is no more than one need. -/
theorem transGen_iff : Relation.TransGen n.Depends x y ↔ n.Depends x y := by
  rw [Relation.transGen_eq_self]

end Depends

end Net

end FlowGraph
