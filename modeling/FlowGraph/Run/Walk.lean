/-
Walking from block to block.

A walk runs the block it is at and goes to the successor that the block names, with the
output of the block as the next input.  It ends with the output that names no successor, or
with the first fault: a block that is not there, an error that a block raises, an output that
is fatal.

Nothing here depends on what blocks are.  A walk is over things with an id and a kind, over a
state that keeps a journal, and over a function that runs a thing.  That function has no
result where it runs out of budget, and then neither has the walk.
-/
import FlowGraph.Run.Output
import FlowGraph.Journal

namespace FlowGraph

/-- A state that events are written down in. -/
class Journaling (σ : Type) where
  note : Event → σ → σ

/-- What a walk needs to know of a block, and what it does. -/
structure Station (σ : Type) where
  id : String
  kind : Kind
  run : Json → σ → Option (Except BlockError Output × σ)

namespace Walk

variable {σ : Type} [Journaling σ]

/-- How a walk goes on after a block. -/
inductive Step where
  | onward (next : String) (params : Json)
  | finished (o : Output)
  | aborted (e : RunError)

/-- What comes after the output of a block. -/
def afterOutput (id : String) (o : Output) : Step :=
  if o.isFatal then .aborted (.failed id (o.error.getD "block failed"))
  else
    match o.next with
    | none => .finished o
    | some next => .onward next (o.output.getD .null)

/-- What comes after a block. -/
def after (id : String) : Except BlockError Output → Step
  | .error e => .aborted (.raised id e)
  | .ok o => afterOutput id o

/-- What is written down after a block. -/
def events (id : String) (kind : Kind) : Except BlockError Output → List Event
  | .error _ => []
  | .ok o =>
    .blockExecuted id kind o.successful o.next ::
      (if o.isFatal then [.blockFailed id (o.error.getD "block failed")] else [])

/-- Write down what happened at a block. -/
def record (id : String) (kind : Kind) (r : Except BlockError Output) (s : σ) : σ :=
  (events id kind r).foldl (fun s e => Journaling.note e s) s

/-- Walk from an id.  No result means that the budget was used up. -/
def from? (find : String → Option (Station σ)) : Nat → String → Json → σ →
    Option (Except RunError Output × σ)
  | 0, _, _, _ => none
  | fuel + 1, id, params, s =>
    match find id with
    | none => some (.error (.blockNotFound id), s)
    | some b =>
      match b.run params s with
      | none => none
      | some (r, s) =>
        match after b.id r with
        | .finished o => some (.ok o, record b.id b.kind r s)
        | .aborted e => some (.error e, record b.id b.kind r s)
        | .onward next params => from? find fuel next params (record b.id b.kind r s)

end Walk

end FlowGraph
