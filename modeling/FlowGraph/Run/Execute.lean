/-
Running blocks and programs.

A loop runs its body once for each of its values, strictly one after the other, and a
transaction runs its body once.  To run a body is to walk through it.  So running is a
recursion over bodies inside of bodies, with walks and loops that may be of any length: a
budget bounds both, and a run that uses it up has no result.

Blocks are run in a state that holds the context.  It may hold more than that, which blocks
leave as it is: whoever watches a run keeps there what was seen.
-/
import FlowGraph.Run.Task
import FlowGraph.Run.Walk
import FlowGraph.Compile.Program

namespace FlowGraph

variable {δ χ : Type}

instance : Journaling (Context δ χ) := ⟨Context.note⟩

/-- A state that holds the context of a run. -/
class HoldsContext (σ : Type) (δ χ : outParam Type) where
  context : σ → Context δ χ
  /-- The state with another context. -/
  put : Context δ χ → σ → σ

instance : HoldsContext (Context δ χ) δ χ := ⟨fun ctx => ctx, fun ctx _ => ctx⟩

/-- Take a step in the context that a state holds. -/
def Act.within {σ α : Type} [HoldsContext σ δ χ] (x : Act δ χ α) (s : σ) : α × σ :=
  let out := x (HoldsContext.context s)
  (out.1, HoldsContext.put out.2 s)

/-- In a context itself, a step is taken as it is. -/
@[simp] theorem Act.within_context {α : Type} (x : Act δ χ α) (ctx : Context δ χ) :
    x.within ctx = x ctx := rfl

@[simp] theorem HoldsContext.context_context (ctx : Context δ χ) :
    HoldsContext.context (δ := δ) (χ := χ) ctx = ctx := rfl

/-- A step that may use up its budget. -/
abbrev Limited (σ α : Type) := σ → Option (α × σ)

/-- A body, as something that is run with an input. -/
abbrev Inside (σ : Type) := Json → Limited σ (Except RunError Output)

/-- A step in a context that may use up its budget. -/
abbrev Bounded (δ χ α : Type) := Limited (Context δ χ) α

/-- A body that is run in a context. -/
abbrev BodyRun (δ χ : Type) := Json → Bounded δ χ (Except RunError Output)

variable [Store.Database δ] [Client χ]

/-! ### Counting -/

/-- A counting loop: from a start, as long as the index is below the end. -/
structure Bounds where
  start : Float
  stop : Float
  step : Float

namespace Bounds

/-- The loop is over at an index.  A step that does not lead upward is over at once. -/
def isOver (b : Bounds) (index : Float) : Bool :=
  b.step.isNaN || b.step ≤ 0.0 || index.isNaN || b.stop ≤ index

/-- The first indices of a loop, no more than a given number. -/
def indices (b : Bounds) : Nat → Float → List Float
  | 0, _ => []
  | n + 1, index => if b.isOver index then [] else index :: b.indices n (index + b.step)

/-- Whole numbers of at most 53 bits are integers, other finite numbers floats. -/
def indexValue (x : Float) : Json :=
  let whole := if x.isFinite then (Decimal.Binary.ofBits x.toBits).natural? else none
  match whole with
  | some n => if n < 9007199254740992 then Json.int (if x < 0.0 then -n else n) else Json.float x
  | none => Json.float x

/-- A bound: a number, or a text that reads as one. -/
def boundValue (name : String) (v : Json) : Except String Float :=
  match v with
  | .number n => .ok n.toFloat
  | .str s =>
    match Decimal.float? (Text.trim s) with
    | some x => .ok x
    | none => .error (name ++ " must resolve to a number, got \"" ++ s ++ "\"")
  | other => .error (name ++ " must resolve to a number, got " ++ other.kind)

end Bounds

/-- A bound from its setting.  Every text is a script. -/
def resolveBound (params : Json) (name : String) (setting : Json) : ExceptT String (Act δ χ) Float := do
  match setting with
  | .str code =>
    let v ← (Act.script params (Template.unmarked code)).adapt fun f => name ++ ": " ++ f.message
    Bounds.boundValue name v
  | v => Bounds.boundValue name v

/-- The bounds of a loop. -/
def resolveBounds (c : CountConfig) (params : Json) : ExceptT String (Act δ χ) Bounds := do
  let start ← resolveBound params "start" c.start
  let stop ← resolveBound params "end" c.stop
  let step ← resolveBound params "step" c.step
  return ⟨start, stop, step⟩

/-- The values of a loop over a list. -/
def resolveItems (c : EachConfig) (params : Json) : ExceptT String (Act δ χ) (List Json) := do
  if c.useParam then
    match params with
    | .arr items => return items
    | other => throw ("forEach with useParam expects an array input, got " ++ other.kind)
  else
    match ← (Act.resolve params c.values).adapt Script.Failure.message with
    | .arr items => return items
    | other => throw ("forEach values must resolve to an array, got " ++ other.kind)

/-! ### Loops -/

section Loops

variable {σ : Type}

/-- Run a body for every index from one on.  The result counts the turns. -/
def countLoop (b : Bounds) (body : Option (Inside σ)) : Nat → Float → Nat →
    Limited σ (Except RunError Nat)
  | 0, _, _ => fun _ => none
  | fuel + 1, index, turns => fun s =>
    if b.isOver index then some (.ok turns, s)
    else
      match body with
      | none => countLoop b none fuel (index + b.step) (turns + 1) s
      | some run =>
        match run (Bounds.indexValue index) s with
        | none => none
        | some (.error e, s) => some (.error e, s)
        | some (.ok _, s) => countLoop b (some run) fuel (index + b.step) (turns + 1) s

/-- Run a body for every value. -/
def eachLoop (run : Inside σ) : List Json → Limited σ (Except RunError Unit)
  | [], s => some (.ok (), s)
  | v :: rest, s =>
    match run v s with
    | none => none
    | some (.error e, s) => some (.error e, s)
    | some (.ok _, s) => eachLoop run rest s

variable [HoldsContext σ δ χ]

/-- The end of a loop: its input goes on. -/
def loopEnd (next : Option String) (params : Json) (e : Event) (r : Except RunError Unit) (s : σ) :
    Except BlockError Output × σ :=
  match r with
  | .ok () => (.ok (.success next params), ((Act.note e).within s).2)
  | .error err => (.error (.run err), s)

/-- Run a counting loop. -/
def runCount (c : CountConfig) (id : String) (next : Option String) (body : Option (Inside σ))
    (fuel : Nat) (params : Json) : Limited σ (Except BlockError Output) := fun s =>
  match (resolveBounds c params).run.within s with
  | (.error text, s) => some (.ok (.failure text), s)
  | (.ok bounds, s) =>
    match countLoop bounds body fuel bounds.start 0 s with
    | none => none
    | some (.ok turns, s) => some (loopEnd next params (.countCompleted id turns) (.ok ()) s)
    | some (.error e, s) => some (loopEnd next params (.countCompleted id 0) (.error e) s)

/-- Run a loop over a list. -/
def runEach (c : EachConfig) (id : String) (next : Option String) (body : Option (Inside σ))
    (params : Json) : Limited σ (Except BlockError Output) := fun s =>
  match (resolveItems c params).run.within s with
  | (.error text, s) => some (.ok (.failure text), s)
  | (.ok items, s) =>
    let looped : Option (Except RunError Unit × σ) := match body with
      | none => some (.ok (), s)
      | some run => eachLoop run items s
    looped.map fun (r, s) => loopEnd next params (.eachCompleted id items.length) r s

end Loops

/-! ### Transactions -/

/-- Ask the database, if it is there. -/
def ask (q : Store.Query) : Act δ χ (Except Store.Fault Json) := fun ctx =>
  match ctx.database with
  | some db => ctx.query db q
  | none => (.ok .null, ctx)

/-- Undo what was done since the transaction was opened. -/
def undo (id : String) : Act δ χ Unit := do
  match ← ask .rollback with
  | .ok _ => return ()
  | .error f => Act.note (.rollbackFailed id f.message)

/-- Close a transaction after its body: keep what a body did that came to an end, undo
everything else. -/
def close (id : String) (next : Option String) (r : Except RunError Output) : Act δ χ Output := do
  match r with
  | .ok o =>
    match ← ask .commit with
    | .ok _ =>
      Act.note (.transactionCommitted id)
      return .success next (o.output.getD .null)
    | .error f =>
      undo id
      return .failure ("transaction commit failed: " ++ f.message)
  | .error e =>
    undo id
    Act.note (.transactionRolledBack id e.message)
    return .failure ("transaction rolled back: " ++ e.message)

/-- Leave the mode of transactions. -/
def leaveTransaction (id : String) : Act δ χ Unit := do
  match ← ask (.setMode .normal) with
  | .ok _ => return ()
  | .error f => Act.note (.resetFailed id f.message)

/-- Run a body in a transaction. -/
def runTransaction {σ : Type} [HoldsContext σ δ χ] (id : String) (next : Option String)
    (body : Option (Inside σ)) (params : Json) : Limited σ (Except BlockError Output) := fun s =>
  match (HoldsContext.context s).database, body with
  | none, _ => some (.ok (.failure "transaction block requires a database adapter"), s)
  | some _, none => some (.ok (.success next params), s)
  | some db, some run =>
    let opened : Act δ χ (Except Store.Fault Json) := fun ctx => ctx.query db (.setMode .transaction)
    match opened.within s with
    | (.error f, s) => some (.error (.store f), s)
    | (.ok _, s) =>
      match run params s with
      | none => none
      | some (r, s) =>
        let closed : Act δ χ Output := do
          let o ← close id next r
          leaveTransaction id
          return o
        let (o, s) := closed.within s
        some (.ok o, s)

/-! ### Blocks and programs -/

/-- A block as a station of a walk. -/
def Block.station (run : Block → Json → Bounded δ χ (Except BlockError Output)) (b : Block) :
    Station (Context δ χ) :=
  ⟨b.id, b.kind, run b⟩

/-- Run a block, where `walk` runs its body from an id on. -/
def Block.perform {σ : Type} [HoldsContext σ δ χ] (walk : BlockMap → String → Inside σ) (fuel : Nat)
    (b : Block) (params : Json) : Limited σ (Except BlockError Output) := fun s =>
  let bodyRun (body : Option (String × BlockMap)) : Option (Inside σ) :=
    body.map fun (entry, blocks) => walk blocks entry
  match b with
  | .task id next t =>
    let (o, s) := (t.run id next params).within s
    some (.ok o, s)
  | .branch id c onSuccess onFailure =>
    some ((Task.runBranch c id onSuccess onFailure params).within s)
  | .nested id next (.count c) body => runCount c id next (bodyRun body) fuel params s
  | .nested id next (.each c) body => runEach c id next (bodyRun body) params s
  | .nested id next .transaction body => runTransaction id next (bodyRun body) params s

/-- Run a block. -/
def Block.execute : Nat → Block → Json → Bounded δ χ (Except BlockError Output)
  | 0, _, _ => fun _ => none
  | fuel + 1, b, params =>
    let walk (blocks : BlockMap) : String → BodyRun δ χ :=
      Walk.from? (fun id => (Entries.find? id blocks).map (Block.station (Block.execute fuel))) fuel
    b.perform walk fuel params

/-- Run blocks from one of them. -/
def BlockMap.run (fuel : Nat) (blocks : BlockMap) (start : String) (params : Json) :
    Bounded δ χ (Except RunError Output) :=
  Walk.from? (fun id => (Entries.find? id blocks).map (Block.station (Block.execute fuel))) fuel start params

/-- The event at the end of a run. -/
def endOfRun : Except RunError Output → Event
  | .ok o => .runFinished o.successful
  | .error e => .runAborted e.message

/-- Run a program.  What is written down meanwhile belongs to the run. -/
def Program.run (fuel : Nat) (p : Program) (params : Json) : Bounded δ χ (Except RunError Output) :=
  fun ctx =>
    let before := ctx.span
    let ctx := ({ ctx with span := some ctx.route } : Context δ χ).note (.runStarted p.entrypoint)
    match p.blocks.run fuel p.entrypoint params ctx with
    | none => none
    | some (r, ctx) => some (r, { ctx.note (endOfRun r) with span := before })

end FlowGraph
