/-
A builder, which is loaded and built from again and again.

Next to what was loaded, a builder keeps the entries of the bodies that are under construction.
The entry of a body is put on top of them before the body is built.  It is taken off when that
has ended, whether it gave the body or failed, and only then the error goes on.

Errors stand outside of the state: work that fails leaves the builder as it was when it failed,
and not as it was before the work.
-/
import FlowGraph.Compile.Program

namespace FlowGraph

/-- What was loaded, and what is being built. -/
structure Builder where
  wiring : Wiring := {}
  /-- Check the settings of the blocks. -/
  validate : Bool
  /-- The entries of the bodies that are under construction, the innermost first. -/
  building : List String := []

/-- Work on a builder. -/
abbrev Work (α : Type) := ExceptT BuildError (StateT Builder (StateM BuildLog)) α

/-- What work ends with, and the builder and the log that it leaves. -/
def Work.outcome {α : Type} (x : Work α) (b : Builder) (log : BuildLog) :
    (Except BuildError α × Builder) × BuildLog :=
  StateT.run (StateT.run (ExceptT.run x) b) log

/-- How work ends, with an error as a result. -/
def Work.attempt {α : Type} (x : Work α) : Work (Except BuildError α) :=
  ExceptT.mk (Except.ok <$> ExceptT.run x)

namespace Builder

/-- What the builder compiles from. -/
def compiler (b : Builder) : Compiler := ⟨b.wiring, b.validate⟩

/-! ### Loading -/

/-- A builder for a graph. -/
def ofGraph (g : Graph) (validate : Bool) : Except BuildError Builder :=
  (Wiring.ofGraph g).map fun w => { wiring := w, validate := validate }

/-- Take in blocks up to the first one that does not fit. -/
def loadBlocks (ds : List BlockDef) : Work Unit := do
  let b ← getThe Builder
  match b.wiring.addBlocks ds with
  | (failed, w) => do
    set { b with wiring := w }
    match failed with
    | some e => throw e
    | none => return ()

/-- Take in edges. -/
def loadEdges (es : List EdgeDef) : Work Unit :=
  modifyThe Builder fun b => { b with wiring := b.wiring.addEdges es }

/-! ### Looking up -/

/-- The entrypoint, which must have been loaded. -/
def entrypoint (b : Builder) : Except BuildError String :=
  match b.wiring.entrypoint with
  | some id => .ok id
  | none => .error .missingEntrypoint

/-- Where a slot of a block leads. -/
def successor (b : Builder) (id slot : String) : Option String := b.wiring.successor id slot

/-! ### Building -/

/-- Write down an event. -/
def note (e : Event) : Work Unit :=
  modifyThe BuildLog fun l => { l with events := l.events.push e }

/-- Write down that a body is compiled. -/
def noteBody (entry : String) : Work Unit :=
  modifyThe BuildLog fun l => { l with bodies := l.bodies.push entry }

/-- Begin a body. -/
def push (entry : String) : Work Unit :=
  modifyThe Builder fun b => { b with building := entry :: b.building }

/-- End the innermost body. -/
def pop : Work Unit := modifyThe Builder fun b => { b with building := b.building.tail }

/-- How to build a body from its entry. -/
abbrev BodyWork := String → Work BlockMap

/-- The body of a block, if its kind has one and an edge leads to it. -/
def body (child : BodyWork) (d : BlockDef) : Work (Option (String × BlockMap)) := do
  if d.kind.hasBody then
    let b ← getThe Builder
    match b.wiring.successor d.id Slot.executor with
    | none => return none
    | some entry => do
      noteBody entry
      let blocks ← child entry
      return some (entry, blocks)
  else return none

/-- Build a block. -/
def build (child : BodyWork) (d : BlockDef) : Work Block := do
  let inner ← body child d
  let b ← getThe Builder
  b.compiler.block d inner

/-- Build the blocks that wait, and those that they lead to. -/
def buildPending (child : BodyWork) : Nat → BlockMap → List String → Work BlockMap
  | 0, blocks, _ => return blocks
  | _ + 1, blocks, [] => return blocks
  | fuel + 1, blocks, id :: pending =>
    if Entries.contains id blocks then buildPending child fuel blocks pending
    else do
      let b ← getThe Builder
      match Entries.find? id b.wiring.definitions with
      | none => do
        note (.blockUndefined id)
        buildPending child fuel blocks pending
      | some d => do
        let built ← build child d
        note (.blockBuilt id d.kind)
        let blocks := Entries.insert id built blocks
        let b ← getThe Builder
        let found := (b.wiring.targets id).filter fun t => !Entries.contains t blocks
        buildPending child fuel blocks (found.reverse ++ pending)

/-- Build all blocks that can be reached from a block. -/
def buildFrom (child : BodyWork) (start : String) : Work BlockMap := do
  let b ← getThe Builder
  buildPending child (b.wiring.edgeCount + 2) [] [start]

/-- Build a body, unless it is under construction. -/
def buildBody : Nat → BodyWork
  | 0, entry => throw (.recursiveBody entry)
  | depth + 1, entry => do
    let b ← getThe Builder
    if b.building.contains entry then throw (.recursiveBody entry)
    else do
      push entry
      let blocks ← (buildFrom (buildBody depth) entry).attempt
      pop
      blocks

/-- Build a body.  There are never more open bodies than the depth allows. -/
def buildChild : BodyWork := fun entry => do
  let b ← getThe Builder
  buildBody b.compiler.bodyDepth entry

/-- Build a graph from a block. -/
def buildGraph (start : String) : Work BlockMap := buildFrom buildChild start

/-! ### Calls -/

/-- A call to a builder. -/
inductive Call where
  | loadBlocks (ds : List BlockDef)
  | loadEdges (es : List EdgeDef)
  | buildGraph (start : String)
  | buildChild (entry : String)

/-- What the caller gets. -/
inductive Answer where
  | loaded (r : Except BuildError Unit)
  | built (r : Except BuildError BlockMap) (log : BuildLog)

/-- Whether a call loads something. -/
def Call.loads : Call → Bool
  | loadBlocks _ | loadEdges _ => true
  | buildGraph _ | buildChild _ => false

/-- Answer a call. -/
def perform (b : Builder) : Call → Answer × Builder
  | .loadBlocks ds =>
    match (loadBlocks ds).outcome b {} with
    | ((r, b), _) => (.loaded r, b)
  | .loadEdges es =>
    match (loadEdges es).outcome b {} with
    | ((r, b), _) => (.loaded r, b)
  | .buildGraph start =>
    match (buildGraph start).outcome b {} with
    | ((r, b), log) => (.built r log, b)
  | .buildChild entry =>
    match (buildChild entry).outcome b {} with
    | ((r, b), log) => (.built r log, b)

/-- The builder after some calls. -/
def after (b : Builder) (calls : List Call) : Builder := calls.foldl (fun b c => (b.perform c).2) b

end Builder

end FlowGraph
