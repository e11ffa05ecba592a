/-
Conditions and chains of them.

A condition compares two operands, or asks a script.  A list of conditions is read as an
`or` of groups: each condition says how it goes on, and one that says `or` closes its
group.  A group holds if all its conditions do, and the list if some group does.  Without
conditions there is one empty group, which holds.
-/
import FlowGraph.Condition.Loose
import FlowGraph.Json.Reader
import FlowGraph.Template

namespace FlowGraph

/-- How two operands are compared. -/
inductive Operator where
  | eq
  | neq
  | gt
  | gte
  | lt
  | lte
  /-- Ask a script. -/
  | script
  /-- A name that means no comparison.  It never holds. -/
  | unknown
  deriving DecidableEq, Repr

/-- How a condition goes on. -/
inductive Chain where
  | and
  | or
  deriving DecidableEq, Repr

structure Condition where
  lhs : Json
  rhs : Json
  operator : Operator
  /-- The script that the operator may ask instead of the operands. -/
  script : Option String
  chain : Chain

namespace Operator

/-- The operators that have a name. -/
def names : List (String × Operator) :=
  [("eq", eq), ("neq", neq), ("gt", gt), ("gte", gte), ("lt", lt), ("lte", lte), ("js", script)]

def reader : Json.Reader Operator := Json.Reader.variant names (some unknown)

/-- The operator of a name. -/
def ofName (name : String) : Operator := (names.lookup name).getD unknown

def name : Operator → String
  | eq => "eq"
  | neq => "neq"
  | gt => "gt"
  | gte => "gte"
  | lt => "lt"
  | lte => "lte"
  | script => "js"
  | unknown => "unknown"

/-- The comparison holds of two values. -/
def holds (op : Operator) (a b : Json) : Bool :=
  match op with
  | eq => a.looseEq b
  | neq => !a.looseEq b
  | gt => Json.looseOrder a b == some .gt
  | gte => Json.looseOrder a b == some .gt || Json.looseOrder a b == some .eq
  | lt => Json.looseOrder a b == some .lt
  | lte => Json.looseOrder a b == some .lt || Json.looseOrder a b == some .eq
  | script | unknown => false

end Operator

namespace Chain

def reader : Json.Reader Chain := Json.Reader.variant [("and", .and), ("or", .or)] none

def name : Chain → String
  | .and => "and"
  | .or => "or"

/-- What is known while a list of results is read: some closed group held, the open group
holds so far, and whether a group is open at all. -/
structure Progress where
  held : Bool
  group : Bool
  opened : Bool

/-- Nothing is read yet: one group is open and empty. -/
def Progress.start : Progress := ⟨false, true, true⟩

/-- Take one more result into account. -/
def Progress.step (p : Progress) (result : Bool × Chain) : Progress :=
  let group := p.group && result.1
  match result.2 with
  | .and => ⟨p.held, group, true⟩
  | .or => ⟨p.held || group, true, false⟩

/-- Some group holds. -/
def Progress.result (p : Progress) : Bool := p.held || (p.opened && p.group)

/-- The results of a list of conditions, taken together. -/
def resolve (results : List (Bool × Chain)) : Bool :=
  (results.foldl Progress.step Progress.start).result

end Chain

namespace Condition

/-- A comparison. -/
def comparing (lhs : Json) (op : Operator) (rhs : Json) : Condition := ⟨lhs, rhs, op, none, .and⟩

/-- A script. -/
def asking (code : String) : Condition := ⟨.null, .null, .script, some code, .and⟩

/-- The condition, closing its group. -/
def closing (c : Condition) : Condition := { c with chain := .or }

open Json Reader in
def reader : Reader Condition :=
  Record.reader "Condition" <|
    Condition.mk <$> Record.withDefault "lhs" json .null <*> Record.withDefault "rhs" json .null
      <*> Record.required "operator" Operator.reader
      <*> Record.withDefault "js" string.option none <*> Record.withDefault "chain" Chain.reader .and

def toJson (c : Condition) : Json :=
  Json.object
    [("lhs", c.lhs), ("rhs", c.rhs), ("operator", .str c.operator.name),
     ("js", Json.ofOption c.script), ("chain", .str c.chain.name)]

variable {m : Type → Type} [Monad m]

/-- The condition holds, where `run` gives the values of scripts and `truthy` says which of them
count as true.  A script of its own goes before the operands. -/
def evaluate (run : String → m Json) (c : Condition) (truthy : Json → Bool := Json.truthy) :
    m Bool :=
  match c.operator, c.script with
  | .script, some code => do return truthy (← run (Template.unmarked code))
  | op, _ => do
    let a ← Template.resolve run c.lhs
    let b ← Template.resolve run c.rhs
    return op.holds a b

/-- The results of conditions, in their order. -/
def evaluateEach (run : String → m Json) (cs : List Condition)
    (truthy : Json → Bool := Json.truthy) : m (List (Bool × Chain)) :=
  match cs with
  | [] => pure []
  | c :: rest => do
    let b ← c.evaluate run truthy
    return (b, c.chain) :: (← evaluateEach run rest truthy)

/-- A list of conditions holds.  All of them are evaluated, also those that can no longer
matter. -/
def evaluateAll (run : String → m Json) (cs : List Condition)
    (truthy : Json → Bool := Json.truthy) : m Bool := do
  return Chain.resolve (← evaluateEach run cs truthy)

end Condition

end FlowGraph
