/-
Graphs as they are written down.

A graph is a list of blocks and a list of edges.  An edge leaves its block through a slot:
`source`, or `success` and `failure` for a choice, or `executor` for the body of a loop or
a transaction.  Nothing is checked here: ids may repeat and edges may lead nowhere.
-/
import FlowGraph.Graph.Kind

namespace FlowGraph

/-- Where a block lies on a canvas.  Nothing depends on it. -/
structure Position where
  x : Float
  y : Float

/-- A block with its settings, which its kind interprets. -/
structure BlockDef where
  id : String
  kind : Kind
  data : Json
  position : Option Position

/-- An edge from a slot of a block to another block. -/
structure EdgeDef where
  id : String
  start : String
  target : String
  fromHandle : Option String
  /-- The slot of the first block. -/
  slot : String

structure Graph where
  blocks : List BlockDef
  edges : List EdgeDef

/-! ### The names of slots -/

namespace Slot

/-- The ordinary successor. -/
def source : String := "source"

/-- The successor of a choice that holds. -/
def success : String := "success"

/-- The successor of a choice that does not hold. -/
def failure : String := "failure"

/-- The first block of a body. -/
def executor : String := "executor"

end Slot

/-! ### Reading and writing -/

open Json Reader Record

def Position.reader : Reader Position :=
  Record.reader "Position" <| Position.mk <$> required "x" float <*> required "y" float

def Position.toJson (p : Position) : Json :=
  Json.object [("x", Json.float p.x), ("y", Json.float p.y)]

def BlockDef.reader : Reader BlockDef :=
  Record.reader "BlockDef" <|
    BlockDef.mk <$> required "id" string <*> required "type" Kind.reader
      <*> withDefault "data" json .null <*> withDefault "position" Position.reader.option none

def BlockDef.toJson (b : BlockDef) : Json :=
  Json.object <|
    [("id", .str b.id), ("type", .str b.kind.name), ("data", b.data)] ++
      (match b.position with
        | some p => [("position", p.toJson)]
        | none => [])

def EdgeDef.reader : Reader EdgeDef :=
  Record.reader "EdgeDef" <|
    EdgeDef.mk <$> withDefault "id" string "" <*> required "from" string <*> required "to" string
      <*> withDefault "fromHandle" string.option none <*> required "toHandle" string

def EdgeDef.toJson (e : EdgeDef) : Json :=
  Json.object
    [("id", .str e.id), ("from", .str e.start), ("to", .str e.target),
     ("fromHandle", Json.ofOption e.fromHandle), ("toHandle", .str e.slot)]

namespace Graph

def reader : Reader Graph :=
  Record.reader "GraphDefinition" <|
    Graph.mk <$> withDefault "blocks" (list BlockDef.reader) []
      <*> withDefault "edges" (list EdgeDef.reader) []

def toJson (g : Graph) : Json :=
  Json.object [("blocks", .arr (g.blocks.map BlockDef.toJson)), ("edges", .arr (g.edges.map EdgeDef.toJson))]

/-- Read a graph from its text. -/
def ofText (s : String) : Except Mismatch Graph := readText reader s

/-- The ids of the entrypoints, in the order of the blocks. -/
def entrypoints (g : Graph) : List String :=
  (g.blocks.filter fun b => b.kind = .entrypoint).map BlockDef.id

/-! ### Building a graph step by step -/

def empty : Graph := ⟨[], []⟩

/-- The graph with one more block. -/
def addBlock (g : Graph) (id : String) (kind : Kind) (data : Json) : Graph :=
  { g with blocks := g.blocks ++ [⟨id, kind, data, none⟩] }

/-- The graph with one more edge, whose id names its ends and its slot. -/
def addEdge (g : Graph) (start target slot : String) : Graph :=
  { g with edges := g.edges ++ [⟨start ++ "-" ++ slot ++ "-" ++ target, start, target, none, slot⟩] }

/-- The graph with one more ordinary edge. -/
def link (g : Graph) (start target : String) : Graph := g.addEdge start target Slot.source

end Graph

end FlowGraph
