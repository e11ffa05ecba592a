/-
What can go wrong while a script runs.

A fault is a cause; its wording is in `Fault.message`.  A fault inside a function is
wrapped once for each call it passes on its way out, except for the faults that mean
that the script used up what it was allowed.  Those cannot be caught either.
-/
import FlowGraph.Script.Value

namespace FlowGraph.Script

/-- Why a script stops. -/
inductive Fault where
  | variableNotFound (name : String)
  /-- No function of the name takes arguments of these types. -/
  | functionNotFound (name : String) (types : List String)
  | mixedSort
  | constantAssigned (name : String)
  | constantMethod (name : String)
  /-- A result of the operation does not fit. -/
  | overflow (operation : String) (a : Int) (op : String) (b : Int)
  | negationOverflow (a : Int)
  | conversionOverflow (x : Float)
  | divisionByZero (a b : Int)
  | moduloFault (a b : Int)
  | negativePower (a b : Int)
  | hugePower (a b : Int)
  | badRadix (base : Int)
  | notAnInt (text reason : String)
  | notAFloat (text reason : String)
  | arrayBounds (size : Nat) (index : Int)
  | stringBounds (size : Nat) (index : Int)
  | bitBounds (index : Int)
  | wrongType (actual expected : String)
  | noIndexer (target key : String)
  | noGetter (name type : String)
  | noSetter (name type : String)
  | notIterable
  | unboundThis
  /-- The script itself gave up with a value. -/
  | raised (v : Val)
  | unreadable
  | tooManyOperations
  | stackOverflow
  | inCall (name : String) (anonymous : Bool) (inner : Fault)
  deriving Inhabited

namespace Fault

/-- The number of elements, as a message gives it. -/
def only (size : Nat) (one many : String) : String :=
  if size = 1 then "only 1 " ++ one else "only " ++ displayInt size ++ " " ++ many

/-- An operation with its operands. -/
def binaryText (a : Int) (op : String) (b : Int) : String :=
  displayInt a ++ " " ++ op ++ " " ++ displayInt b

/-- A text could not be read.  The message says no more than that, wherever it comes from. -/
def isUnreadable : Fault → Bool
  | unreadable => true
  | inCall _ _ inner => inner.isUnreadable
  | _ => false

/-- The wording of a fault. -/
def message : Fault → String
  | variableNotFound name => "Variable not found: " ++ name
  | functionNotFound name types =>
    "Function not found: " ++ name ++ " (" ++ ", ".intercalate types ++ ")"
  | mixedSort => "Function not found: sort() cannot be called with elements of different types"
  | constantAssigned name => "Cannot modify constant " ++ name
  | constantMethod name => "Non-pure method '" ++ name ++ "' cannot be called on constant"
  | overflow operation a op b => operation ++ " overflow: " ++ binaryText a op b
  | negationOverflow a => "Negation overflow: -" ++ displayInt a
  | conversionOverflow x => "Integer overflow: to_int(" ++ wholeFloat x ++ ")"
  | divisionByZero a b => "Division by zero: " ++ binaryText a "/" b
  | moduloFault a b => "Modulo division by zero or overflow: " ++ binaryText a "%" b
  | negativePower a b => "Integer raised to a negative power: " ++ binaryText a "**" b
  | hugePower a b => "Integer raised to too large an index: " ++ binaryText a "**" b
  | badRadix base => "Invalid radix: '" ++ displayInt base ++ "'"
  | notAnInt text reason => "Error parsing integer number '" ++ text ++ "': " ++ reason
  | notAFloat text reason => "Error parsing floating-point number '" ++ text ++ "': " ++ reason
  | arrayBounds size index =>
    "Array index " ++ displayInt index ++ " out of bounds: " ++
      (if size = 0 then "array is empty" else only size "element in array" "elements in array")
  | stringBounds size index =>
    "String index " ++ displayInt index ++ " out of bounds: " ++
      (if size = 0 then "string is empty" else only size "character in string" "characters in string")
  | bitBounds index =>
    "Bit-field index " ++ displayInt index ++ " out of bounds: only 64 bits in bit-field"
  | wrongType actual expected =>
    "Data type incorrect: " ++ actual ++ " (expecting " ++ expected ++ ")"
  | noIndexer target key => "Indexer unavailable: " ++ target ++ " [" ++ key ++ "]"
  | noGetter name type =>
    "Unknown property '" ++ name ++ "' - a getter is not registered for type '" ++ type ++ "'"
  | noSetter name type =>
    "Unknown property '" ++ name ++ "' - a setter is not registered for type '" ++ type ++ "'"
  | notIterable => "For loop expects iterable type"
  | unboundThis => "'this' not bound"
  | raised v => if v.display = "" then "Runtime error" else "Runtime error: " ++ v.display
  | unreadable => "Syntax error"
  | tooManyOperations => "Too many operations"
  | stackOverflow => "Stack overflow"
  | inCall name anonymous inner =>
    if inner.isUnreadable then inner.message
    else inner.message ++ (if anonymous then "\nin closure call" else "\nin call to function '" ++ name ++ "'")

/-- The fault leaves functions as it is. -/
def isSystem : Fault → Bool
  | unreadable | tooManyOperations | stackOverflow => true
  | _ => false

/-- The fault may be caught. -/
def isCatchable (f : Fault) : Bool := !f.isSystem

/-- The fault without the calls around it. -/
def cause : Fault → Fault
  | inCall _ _ inner => inner.cause
  | f => f

/-- The fault as it leaves a call of the function. -/
def leaving (name : String) (anonymous : Bool) (f : Fault) : Fault :=
  if f.isSystem then f else inCall name anonymous f

/-- The name of the kind of a fault. -/
def kind : Fault → String
  | variableNotFound _ => "ErrorVariableNotFound"
  | functionNotFound _ _ | mixedSort => "ErrorFunctionNotFound"
  | constantAssigned _ => "ErrorAssignmentToConstant"
  | constantMethod _ => "ErrorNonPureMethodCallOnConstant"
  | overflow _ _ _ _ | negationOverflow _ | conversionOverflow _ | divisionByZero _ _
  | moduloFault _ _ | negativePower _ _ | hugePower _ _ | badRadix _ | notAnInt _ _
  | notAFloat _ _ =>
    "ErrorArithmetic"
  | arrayBounds _ _ => "ErrorArrayBounds"
  | stringBounds _ _ => "ErrorStringBounds"
  | bitBounds _ => "ErrorBitFieldBounds"
  | wrongType _ _ => "ErrorMismatchDataType"
  | noIndexer _ _ => "ErrorIndexingType"
  | noGetter _ _ | noSetter _ _ => "ErrorDotExpr"
  | notIterable => "ErrorFor"
  | unboundThis => "ErrorUnboundThis"
  | raised _ => "ErrorRuntime"
  | unreadable => "ErrorParsing"
  | tooManyOperations => "ErrorTooManyOperations"
  | stackOverflow => "ErrorStackOverflow"
  | inCall _ _ _ => "ErrorInFunctionCall"

/-- What a handler is given: the value that was thrown, or a description of the fault. -/
def caught (f : Fault) : Val :=
  match f.cause with
  | raised v => v
  | g => .map [("error", .str g.kind), ("message", .str g.message)]

end Fault

end FlowGraph.Script
