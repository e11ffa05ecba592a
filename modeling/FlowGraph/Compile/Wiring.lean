/-
The blocks and edges of a graph, found by their ids.

Ids may not repeat, and at most one block may be an entrypoint.  Of several edges that leave
a block through one slot the first one counts.
-/
import FlowGraph.Graph.Definition

namespace FlowGraph

/-- Why a graph cannot be compiled. -/
inductive BuildError where
  | parse (m : Json.Mismatch)
  | missingEntrypoint
  | multipleEntrypoints (ids : List String)
  | duplicateBlock (id : String)
  | invalidConfig (id : String) (kind : Kind) (text : String)
  | unknownStart (id : String)
  | recursiveBody (entry : String)

/-- The wording of an error. -/
def BuildError.message : BuildError → String
  | parse m => "graph parse error: " ++ m.message
  | missingEntrypoint => "graph has no entrypoint block"
  | multipleEntrypoints ids => "graph has more than one entrypoint block: " ++ Text.quotedList ids
  | duplicateBlock id => "duplicate block id: " ++ id
  | invalidConfig id kind text => "invalid config for " ++ kind.name ++ " block " ++ id ++ ": " ++ text
  | unknownStart id => "start block not found: " ++ id
  | recursiveBody entry => "sub-graph starting at " ++ entry ++ " contains itself"

/-- The definitions of blocks under their ids, and where the slots of blocks lead. -/
structure Wiring where
  definitions : Entries BlockDef := []
  /-- Targets under slots, under the ids of the blocks that the edges leave. -/
  edges : Entries (Entries String) := []
  entrypoint : Option String := none

namespace Wiring

/-- Take in one block. -/
def addBlock (w : Wiring) (b : BlockDef) : Except BuildError Wiring :=
  if Entries.contains b.id w.definitions then .error (.duplicateBlock b.id)
  else
    let defined := { w with definitions := Entries.insert b.id b w.definitions }
    match b.kind, w.entrypoint with
    | .entrypoint, some first => .error (.multipleEntrypoints [first, b.id])
    | .entrypoint, none => .ok { defined with entrypoint := some b.id }
    | _, _ => .ok defined

/-- Take in blocks up to the first one that does not fit. -/
def addBlocks (w : Wiring) : List BlockDef → Option BuildError × Wiring
  | [] => (none, w)
  | b :: rest =>
    match w.addBlock b with
    | .ok w => w.addBlocks rest
    | .error e => (some e, w)

/-- Take in one edge. -/
def addEdge (w : Wiring) (e : EdgeDef) : Wiring :=
  let slots := (Entries.find? e.start w.edges).getD []
  { w with edges := Entries.insert e.start (Entries.insertNew e.slot e.target slots) w.edges }

/-- Take in edges. -/
def addEdges (w : Wiring) (es : List EdgeDef) : Wiring := es.foldl addEdge w

/-- Where a slot of a block leads. -/
def successor (w : Wiring) (id slot : String) : Option String :=
  (Entries.find? id w.edges).bind (Entries.find? slot)

/-- Where the slots of a block lead, in the order of the slots. -/
def targets (w : Wiring) (id : String) : List String :=
  ((Entries.find? id w.edges).map Entries.values).getD []

/-- The number of edges that count. -/
def edgeCount (w : Wiring) : Nat := w.edges.foldl (fun n e => n + e.2.length) 0

/-- The wiring of a graph. -/
def ofGraph (g : Graph) : Except BuildError Wiring :=
  match g.entrypoints with
  | _ :: _ :: _ => .error (.multipleEntrypoints g.entrypoints)
  | _ =>
    match ({} : Wiring).addBlocks g.blocks with
    | (some e, _) => .error e
    | (none, w) => .ok (w.addEdges g.edges)

end Wiring

end FlowGraph
