/-
The machine that runs scripts.

The machine holds the variables in sight, the cells that closures share with their
surroundings, the functions known so far and a count of operations.  A step of the
machine ends with a value, or breaks off: with a fault, or because the script leaves a
loop or a function.  It may also use up its budget, which is no outcome of the script at
all.

A step is put together from a few kinds of actions, and only these touch the machine, so
what every action keeps is kept by every step.

The variables that a script starts with are constants, and a constant keeps its value
whatever is written to it.  A variable that is captured by a closure moves into a cell,
and the cell remembers that it holds a constant.
-/
import FlowGraph.Script.Session
import FlowGraph.Script.Expr
import FlowGraph.Script.Fault

namespace FlowGraph.Script

/-- A variable. -/
structure Slot where
  name : String
  value : Val
  constant : Bool

/-- A value shared between closures and their surroundings. -/
structure Cell where
  value : Val
  constant : Bool
  deriving Inhabited

/-- What the machine may use. -/
structure Allowance where
  /-- Operations of one script; zero is no limit. -/
  operations : Nat
  /-- Calls inside of calls. -/
  calls : Nat
  depths : Depths
  /-- The functions that the host grants. -/
  granted : List String

structure Machine where
  /-- The variables in sight, the latest first. -/
  slots : List Slot
  cells : Array Cell
  functions : List Function
  operations : Nat
  closures : Nat

/-- Why a step breaks off. -/
inductive Signal where
  | fault (f : Fault)
  | leave (v : Val)
  | skip
  | give (v : Val)

/-- How a step ends. -/
inductive Ending (α : Type) where
  | value (a : α) (m : Machine)
  | signal (s : Signal) (m : Machine)
  | exhausted

namespace Ending

variable {α β : Type}

/-- Go on from a value. -/
@[inline] def next (f : α → Machine → Session (Ending β)) : Ending α → Session (Ending β)
  | value a m => f a m
  | signal s m => .done (.signal s m)
  | exhausted => .done .exhausted

/-- How the step ends, as a value. -/
@[inline] def caught : Ending α → Ending (Except Signal α)
  | value a m => value (.ok a) m
  | signal s m => value (.error s) m
  | exhausted => exhausted

/-- Change the machine in the end. -/
@[inline] def leaving (f : Machine → Machine) : Ending α → Ending α
  | value a m => value a (f m)
  | signal s m => signal s (f m)
  | exhausted => exhausted

/-- The variables as they were left, beside the value. -/
@[inline] def withSlots : Ending α → Ending (α × List Slot)
  | value a m => value (a, m.slots) m
  | signal s m => signal s m
  | exhausted => exhausted

end Ending

/-! ### Variables -/

/-- Put a value into a cell, unless it holds a constant. -/
def Cell.put (v : Val) (cell : Cell) : Cell :=
  if cell.constant then cell else { cell with value := v }

namespace Machine

/-- The latest slot of a name. -/
def findSlot (name : String) : List Slot → Option Slot
  | [] => none
  | s :: rest => if s.name = name then some s else findSlot name rest

/-- Put a value into the latest slot of a name. -/
def replaceSlot (name : String) (v : Val) : List Slot → List Slot
  | [] => []
  | s :: rest => if s.name = name then { s with value := v } :: rest else s :: replaceSlot name v rest

/-- The value behind a cell, or the value itself. -/
def content (m : Machine) : Val → Val
  | .shared c => ((m.cells[c]?).map Cell.value).getD .unit
  | v => v

/-- The value of a variable, and whether it may not be changed. -/
def lookup? (m : Machine) (name : String) : Option (Val × Bool) :=
  match findSlot name m.slots with
  | none => none
  | some s =>
    match s.value with
    | .shared c =>
      match m.cells[c]? with
      | some cell => some (cell.value, cell.constant)
      | none => some (.unit, s.constant)
    | v => some (v, s.constant)

/-- The value of a variable.  The name of a function of the script, where there is no
variable of that name, is the function. -/
def read (m : Machine) (name : String) : Ending (Val × Bool) :=
  match m.lookup? name with
  | some r => .value r m
  | none =>
    if m.functions.any fun f => f.name = name then .value (.fn name [], false) m
    else .signal (.fault (.variableNotFound name)) m

/-- Put a value into a variable, unless it is a constant. -/
def write (m : Machine) (name : String) (v : Val) : Machine :=
  match findSlot name m.slots with
  | none => m
  | some s =>
    match s.value with
    | .shared c => { m with cells := m.cells.modify c (Cell.put v) }
    | _ => if s.constant then m else { m with slots := replaceSlot name v m.slots }

/-- A new variable. -/
def declare (m : Machine) (name : String) (v : Val) (constant : Bool) : Machine :=
  { m with slots := ⟨name, v, constant⟩ :: m.slots }

/-- Move a variable into a cell, unless it is in one. -/
def share (m : Machine) (name : String) : Ending Val :=
  match findSlot name m.slots with
  | none => .signal (.fault (.variableNotFound name)) m
  | some s =>
    match s.value with
    | .shared c => .value (.shared c) m
    | v =>
      let c := m.cells.size
      .value (.shared c)
        { m with
          cells := m.cells.push ⟨v, s.constant⟩
          slots := replaceSlot name (.shared c) m.slots }

/-- Count an operation.  Zero is no limit. -/
def count (m : Machine) (limit : Nat) : Ending Unit :=
  let n := m.operations + 1
  if limit ≠ 0 && limit < n then .signal (.fault .tooManyOperations) { m with operations := n }
  else .value () { m with operations := n }

/-- Drop the latest variables down to so many. -/
def dropTo (m : Machine) (size : Nat) : Machine :=
  { m with slots := m.slots.drop (m.slots.length - size) }

end Machine

/-! ### Steps -/

/-- What a step does with the machine itself. -/
inductive Action : Type → Type where
  | look : Action Machine
  | count (limit : Nat) : Action Unit
  | read (name : String) : Action (Val × Bool)
  | write (name : String) (v : Val) : Action Unit
  | declare (name : String) (v : Val) (constant : Bool) : Action Unit
  | share (name : String) : Action Val

def Action.run {α : Type} : Action α → Machine → Ending α
  | look, m => .value m m
  | count limit, m => m.count limit
  | read name, m => m.read name
  | write name v, m => .value () (m.write name v)
  | declare name v constant, m => .value () (m.declare name v constant)
  | share name, m => m.share name

/-- A step of the machine. -/
inductive Run : Type → Type 1 where
  | protected pure {α : Type} (a : α) : Run α
  | protected bind {α β : Type} (x : Run α) (f : α → Run β) : Run β
  /-- The budget is used up. -/
  | exhausted {α : Type} : Run α
  | signal {α : Type} (s : Signal) : Run α
  | act {α : Type} (a : Action α) : Run α
  /-- Ask the host. -/
  | ask (q : Request) : Run Reply
  /-- Run a step and look at how it ends. -/
  | attempt {α : Type} (x : Run α) : Run (Except Signal α)
  /-- Run a step and drop the variables that it added, also when it breaks off. -/
  | locally {α : Type} (x : Run α) : Run α
  /-- Run a step with variables of its own.  It gives the variables as they were left. -/
  | isolated {α : Type} (slots : List Slot) (x : Run α) : Run (α × List Slot)

namespace Run

variable {α β : Type}

instance : Monad Run where
  pure := Run.pure
  bind := Run.bind

/-- Take a step. -/
def run {α : Type} : Run α → Machine → Session (Ending α)
  | .pure a, m => .done (.value a m)
  | .bind x f, m => (x.run m).andThen fun r => r.next fun a m => (f a).run m
  | exhausted, _ => .done .exhausted
  | signal s, m => .done (.signal s m)
  | act a, m => .done (a.run m)
  | ask q, m => .ask q fun r => .done (.value r m)
  | attempt x, m => (x.run m).andThen fun r => .done r.caught
  | locally x, m => (x.run m).andThen fun r => .done (r.leaving (·.dropTo m.slots.length))
  | isolated slots x, m =>
    (x.run { m with slots := slots }).andThen fun r =>
      .done (r.withSlots.leaving ({ · with slots := m.slots }))

def fault (f : Fault) : Run α := signal (.fault f)

/-- The value, or its fault. -/
def ofExcept (r : Except Fault α) : Run α :=
  match r with
  | .ok a => pure a
  | .error f => fault f

def machine : Run Machine := act .look

/-- Count an operation. -/
def tick (a : Allowance) : Run Unit := act (.count a.operations)

def readVar (name : String) : Run (Val × Bool) := act (.read name)

def writeVar (name : String) (v : Val) : Run Unit := act (.write name v)

def declareVar (name : String) (v : Val) (constant : Bool) : Run Unit :=
  act (.declare name v constant)

def shareVar (name : String) : Run Val := act (.share name)

end Run

end FlowGraph.Script
