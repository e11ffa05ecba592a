/-
Programs: graphs that are ready to run.

Compiling starts at a block and takes in every block that can be reached from it over any
slot, each once.  Ids that lead nowhere are passed over.  Of the blocks that wait to be built
the one that was found last comes first, and the slots of a block are found in the order of
their names.

The body of a loop or a transaction is compiled from the same wiring, before the settings of
the block itself are read.  A body that would contain itself is an error.  So the bodies that
are open at one time all have different entries, which bounds how deep they nest.
-/
import FlowGraph.Compile.Wiring
import FlowGraph.Block.Basic
import FlowGraph.Settings

namespace FlowGraph

/-- What compiling leaves behind besides its result. -/
structure BuildLog where
  events : Array Event := #[]
  /-- The entries of the bodies that were compiled, in the order in which they were begun. -/
  bodies : Array String := #[]

abbrev Build (α : Type) := ExceptT BuildError (StateM BuildLog) α

/-- A graph that can be compiled. -/
structure Compiler where
  wiring : Wiring
  /-- Check the settings of the blocks. -/
  validate : Bool

namespace Compiler

/-- Write down an event. -/
def note (e : Event) : Build Unit := modify fun l => { l with events := l.events.push e }

/-- Write down that a body is compiled. -/
def noteBody (entry : String) : Build Unit := modify fun l => { l with bodies := l.bodies.push entry }

/-! ### Settings of blocks -/

/-- The settings of a block.  Without any, they are read from an object without fields. -/
def config {α : Type} (c : Compiler) (r : Json.Reader α) (check : α → Check) (b : BlockDef) :
    Except BuildError α :=
  match Json.readValue r (if b.data.isNull then .obj [] else b.data) with
  | .error m => .error (.invalidConfig b.id b.kind m.message)
  | .ok a =>
    match check a, c.validate with
    | .error text, true => .error (.invalidConfig b.id b.kind text)
    | _, _ => .ok a

/-- Settings that need no check. -/
def unchecked {α : Type} (_ : α) : Check := .ok ()

/-- A block that takes an action on the database. -/
def storeTask (c : Compiler) (b : BlockDef) (action : StoreAction) : Except BuildError Task :=
  (c.config StoreConfig.reader (StoreConfig.check action) b).map (Task.store action)

/-- A block that reads a part of the request. -/
def readTask (c : Compiler) (b : BlockDef) (part : RequestPart) : Except BuildError Task :=
  (c.config ReadConfig.reader (ReadConfig.check part) b).map (Task.read part)

/-- The outgoing edge of a block with one successor. -/
def next (c : Compiler) (b : BlockDef) : Option String := c.wiring.successor b.id Slot.source

/-- A block of one task. -/
def taskBlock (c : Compiler) (b : BlockDef) (t : Except BuildError Task) : Except BuildError Block :=
  t.map (Block.task b.id (c.next b))

/-- A block around a body. -/
def nestedBlock (c : Compiler) (b : BlockDef) (body : Option (String × BlockMap))
    (frame : Except BuildError Frame) : Except BuildError Block :=
  frame.map fun f => Block.nested b.id (c.next b) f body

/-- A block from its definition and its body. -/
def block (c : Compiler) (b : BlockDef) (body : Option (String × BlockMap)) : Except BuildError Block :=
  match b.kind with
  | .entrypoint => c.taskBlock b (.ok .entrypoint)
  | .code => c.taskBlock b ((c.config CodeConfig.reader CodeConfig.check b).map Task.code)
  | .branch =>
    (c.config BranchConfig.reader BranchConfig.check b).map fun conf =>
      Block.branch b.id conf (c.wiring.successor b.id Slot.success) (c.wiring.successor b.id Slot.failure)
  | .count =>
    c.nestedBlock b body ((c.config CountConfig.reader CountConfig.check b).map Frame.count)
  | .each => c.nestedBlock b body ((c.config EachConfig.reader EachConfig.check b).map Frame.each)
  | .transaction => c.nestedBlock b body (.ok .transaction)
  | .setVar => c.taskBlock b ((c.config SetVarConfig.reader SetVarConfig.check b).map Task.setVar)
  | .getVar => c.taskBlock b ((c.config GetVarConfig.reader GetVarConfig.check b).map Task.getVar)
  | .transformer =>
    c.taskBlock b ((c.config TransformerConfig.reader TransformerConfig.check b).map Task.transformer)
  | .arrayOps => c.taskBlock b ((c.config ListConfig.reader ListConfig.check b).map Task.list)
  | .dbGetAll => c.taskBlock b (c.storeTask b .getAll)
  | .dbGetSingle => c.taskBlock b (c.storeTask b .getSingle)
  | .dbInsert => c.taskBlock b (c.storeTask b .insert)
  | .dbInsertBulk => c.taskBlock b (c.storeTask b .insertBulk)
  | .dbUpdate => c.taskBlock b (c.storeTask b .update)
  | .dbDelete => c.taskBlock b (c.storeTask b .delete)
  | .dbRaw => c.taskBlock b (c.storeTask b .raw)
  | .httpRequest => c.taskBlock b ((c.config CallConfig.reader CallConfig.check b).map Task.call)
  | .getHeader => c.taskBlock b (c.readTask b .header)
  | .getCookie => c.taskBlock b (c.readTask b .cookie)
  | .getParam => c.taskBlock b (c.readTask b .param)
  | .getBody => c.taskBlock b (c.readTask b .body)
  | .setHeader => c.taskBlock b ((c.config HeaderConfig.reader HeaderConfig.check b).map Task.setHeader)
  | .setCookie => c.taskBlock b ((c.config CookieConfig.reader CookieConfig.check b).map Task.setCookie)
  | .response =>
    c.taskBlock b ((c.config ResponseConfig.reader ResponseConfig.check b).map Task.response)
  | .logger => c.taskBlock b ((c.config LoggerConfig.reader unchecked b).map Task.logger)
  | .interceptor => c.taskBlock b ((c.config InterceptorConfig.reader unchecked b).map Task.interceptor)

/-! ### Reaching blocks -/

/-- How to compile a body from its entry. -/
abbrev BodyBuilder := String → Build BlockMap

/-- The body of a block, if its kind has one and an edge leads to it. -/
def body (c : Compiler) (child : BodyBuilder) (b : BlockDef) : Build (Option (String × BlockMap)) :=
  if b.kind.hasBody then
    match c.wiring.successor b.id Slot.executor with
    | none => return none
    | some entry => do
      noteBody entry
      let blocks ← child entry
      return some (entry, blocks)
  else return none

/-- Build a block. -/
def build (c : Compiler) (child : BodyBuilder) (b : BlockDef) : Build Block := do
  let body ← c.body child b
  c.block b body

/-- Build the blocks that wait, and those that they lead to.  Every edge makes a block wait
at most once, so the number of edges bounds the recursion. -/
def buildPending (c : Compiler) (child : BodyBuilder) : Nat → BlockMap → List String → Build BlockMap
  | 0, blocks, _ => return blocks
  | _ + 1, blocks, [] => return blocks
  | fuel + 1, blocks, id :: pending =>
    if Entries.contains id blocks then c.buildPending child fuel blocks pending
    else
      match Entries.find? id c.wiring.definitions with
      | none => do
        note (.blockUndefined id)
        c.buildPending child fuel blocks pending
      | some b => do
        let built ← c.build child b
        note (.blockBuilt id b.kind)
        let blocks := Entries.insert id built blocks
        let found := (c.wiring.targets id).filter fun t => !Entries.contains t blocks
        c.buildPending child fuel blocks (found.reverse ++ pending)

/-- Build all blocks that can be reached from a block. -/
def buildFrom (c : Compiler) (child : BodyBuilder) (start : String) : Build BlockMap :=
  c.buildPending child (c.wiring.edgeCount + 2) [] [start]

/-- Build a body inside of the bodies that are `opened`.  Their entries are all different,
so their number bounds the recursion. -/
def buildBody (c : Compiler) : Nat → List String → BodyBuilder
  | 0, _, entry => throw (.recursiveBody entry)
  | depth + 1, opened, entry =>
    if opened.contains entry then throw (.recursiveBody entry)
    else c.buildFrom (buildBody c depth (entry :: opened)) entry

/-- More bodies than can be open at one time. -/
def bodyDepth (c : Compiler) : Nat := c.wiring.edgeCount + 3

/-- Build a body on its own. -/
def buildChild (c : Compiler) : BodyBuilder := c.buildBody c.bodyDepth []

/-- Build a graph from a block. -/
def buildGraph (c : Compiler) (start : String) : Build BlockMap := c.buildFrom c.buildChild start

end Compiler

/-- A graph that is ready to run. -/
structure Program where
  blocks : BlockMap
  entrypoint : String

namespace Program

/-- Compile from a block. -/
def compileFrom (c : Compiler) (start : String) : Build Program := do
  let blocks ← c.buildGraph start
  if Entries.contains start blocks then
    Compiler.note (.programCompiled start blocks.length)
    return ⟨blocks, start⟩
  else throw (.unknownStart start)

/-- Compile a graph from its entrypoint. -/
def compile (g : Graph) (validate : Bool) : Build Program := do
  let w ← Wiring.ofGraph g
  match w.entrypoint with
  | some start => compileFrom ⟨w, validate⟩ start
  | none => throw .missingEntrypoint

/-- Compile a graph from a block that need not be an entrypoint. -/
def compileAt (g : Graph) (validate : Bool) (start : String) : Build Program := do
  let w ← Wiring.ofGraph g
  compileFrom ⟨w, validate⟩ start

/-- Compile a graph from a block, or else from its entrypoint. -/
def compileGraph (g : Graph) (validate : Bool) : Option String → Build Program
  | some start => compileAt g validate start
  | none => compile g validate

end Program

end FlowGraph
