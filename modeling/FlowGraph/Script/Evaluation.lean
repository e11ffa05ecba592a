/-
Evaluating a script against variables.

Every variable whose name is a plain identifier is bound as a constant of that name, and
all variables together as the constant map `vars`.  A script can read what it is bound
to and never change it.  The result is read as JSON.

The functions that a host grants are known only to the evaluation they are granted to.
-/
import FlowGraph.Script.Eval

namespace FlowGraph.Script

/-- What scripts may use up.  Where nothing is said, 64 calls may nest, and expressions 64
deep outside and 32 deep inside of functions; operations are not counted.  Zero lifts a
limit on operations or on depth. -/
structure Limits where
  maxOperations : Option Nat := some 1000000
  maxCallLevels : Option Nat := none
  maxExprDepth : Option Nat := none
  deriving DecidableEq, Repr

/-- What a script may use under the limits. -/
def Limits.allowance (l : Limits) (granted : List String) : Allowance where
  operations := l.maxOperations.getD 0
  calls := l.maxCallLevels.getD 64
  depths :=
    match l.maxExprDepth with
    | some n => ⟨n, n⟩
    | none => ⟨64, 32⟩
  granted := granted

/-- Why a script has no result. -/
inductive Failure where
  | evaluation (text : String)
  | conversion (text : String)
  /-- The script was lost with the task that ran it. -/
  | task (text : String)
  deriving DecidableEq, Repr

/-- The wording of a failure. -/
def Failure.message : Failure → String
  | evaluation text => "script evaluation failed: " ++ text
  | conversion text => "script value conversion failed: " ++ text
  | task text => "script task failed: " ++ text

/-! ### Bindings -/

/-- The name under which all variables are bound. -/
def scopeName : String := "vars"

/-- The text is a plain identifier: letters, digits and underscores of ASCII, not
beginning with a digit. -/
def isIdentifier (name : String) : Bool :=
  match name.toList with
  | [] => false
  | c :: cs => (c.isAlpha || c = '_') && cs.all fun c => c.isAlphanum || c = '_'

/-- The name is bound on its own. -/
def isBound (name : String) : Bool := name ≠ scopeName && isIdentifier name

/-- The constants that a script finds, the latest first. -/
def bindings (scope : Entries Json) : List Slot :=
  ⟨scopeName, Val.ofJson (.obj scope), true⟩ ::
    ((scope.filter fun e => isBound e.1).map fun e => Slot.mk e.1 (Val.ofJson e.2) true).reverse

/-- The machine on which a script starts that has defined functions and closures. -/
def Machine.start (scope : Entries Json) (p : Program) (closures : Nat) : Machine :=
  ⟨bindings scope, #[], p.functions, 0, closures⟩

/-! ### Evaluation -/

/-- How far the machine may run.  The limits on operations and calls stop a script long
before this does. -/
def budget : Nat := 4611686018427387904

/-- The result of a script that ended. -/
def resultOf : Except Signal Val → Except Failure Json
  | .ok v | .error (.give v) | .error (.leave v) =>
    match v.toJson with
    | .ok j => .ok j
    | .error e => .error (.conversion e.message)
  | .error (.fault f) => .error (.evaluation f.message)
  | .error .skip => .ok .null

/-- Evaluate a script with a budget.  There is no result if the budget is used up. -/
def evaluateWithin (fuel : Nat) (limits : Limits) (granted : List String) (scope : Entries Json)
    (code : String) : Session (Option (Except Failure Json)) :=
  let allowance := limits.allowance granted
  match Program.parse? allowance.depths 0 code with
  | none => .done (some (.error (.evaluation Fault.unreadable.message)))
  | some (p, closures) =>
    ((execAll fuel ⟨allowance, 0⟩ p.body).run (Machine.start scope p closures)).bind fun
      | .value v _ => .done (some (resultOf (.ok v)))
      | .signal s _ => .done (some (resultOf (.error s)))
      | .exhausted => .done none

/-- Evaluate a script. -/
def evaluate (limits : Limits) (granted : List String) (scope : Entries Json) (code : String) :
    Session (Option (Except Failure Json)) :=
  evaluateWithin budget limits granted scope code

/-! ### Engines -/

/-- What evaluates scripts, given the functions that are granted, the variables and the
script.  An engine always comes to a result. -/
structure Engine where
  run : List String → Entries Json → String → Session (Except Failure Json)

/-- A result, or the loss of a script that outlived its budget. -/
def settled : Option (Except Failure Json) → Except Failure Json
  | some r => r
  | none => .error (.task "the script did not end")

/-- The engine of this language. -/
def Engine.standard (limits : Limits) : Engine where
  run granted scope code := (evaluate limits granted scope code).bind fun r => .done (settled r)

/-- An engine that grants nothing. -/
def Engine.ungranting (e : Engine) : Engine where
  run _ scope code := e.run [] scope code

end FlowGraph.Script
