/-
The library of functions that scripts can call.

A function is found by its name and the types of its arguments, whether it is written
before its first argument or after it.  The functions here are those that need nothing
but their arguments.
-/
import FlowGraph.Script.Library.Text
import FlowGraph.Script.Library.Number
import FlowGraph.Script.Library.Container

namespace FlowGraph.Script

/-- The operators that stand between two values. -/
def binaryOperators : List String :=
  ["+", "-", "*", "/", "%", "**", "<<", ">>", "&", "|", "^", "==", "!=", "<", "<=", ">", ">=",
   "..", "..="]

/-- The value of a string, number or truth value is its own text; so every value has one. -/
def textFunctionOf (name : String) (v : Val) : Outcome :=
  match name with
  | "to_string" => .value (.str v.display)
  | "to_debug" => .value (.str v.inspect)
  | _ => .absent

/-- Functions chosen by the type of the first argument. -/
def byFirst (name : String) (first : Val) (rest : List Val) : Outcome :=
  match first with
  | .str s => textFunction name s rest
  | .char c => charFunction name c rest
  | .array xs => listFunction name xs rest
  | .map fields => mapFunction name fields rest
  | .range a b inclusive => rangeFunction name a b inclusive rest
  | .blob bytes => blobFunction name bytes rest
  | _ => .absent

/-- A library function applied to its arguments. -/
def libraryCall (name : String) (args : List Val) : Outcome :=
  match args with
  | [] =>
    if name = "blob" then .value (.blob []) else numberFunction name args
  | [a] =>
    if name = "!" || name = "-" || name = "+" then .ofExcept (signed name a)
    else
      (byFirst name a []).orElse fun _ =>
        (numberFunction name args).orElse fun _ => textFunctionOf name a
  | [a, b] =>
    if binaryOperators.contains name then .ofExcept (binary name a b)
    else
      match name, a, b with
      | "blob", .int n, .int v =>
        if 0 ≤ n then .value (.blob (List.replicate n.toNat (v % 256).toNat)) else .value (.blob [])
      | _, _, _ => (byFirst name a [b]).orElse fun _ => numberFunction name args
  | a :: rest => byFirst name a rest

/-- The properties that a value has besides the fields of a map. -/
def propertyOf (name : String) (v : Val) : Outcome :=
  match v with
  | .str s =>
    if name = "len" || name = "is_empty" || name = "chars" || name = "bytes" then textUnary name s
    else .absent
  | .array xs => if name = "len" || name = "is_empty" then listUnary name xs else .absent
  | .blob bs => if name = "len" || name = "is_empty" then blobFunction name bs [] else .absent
  | .range a b i => rangeFunction name a b i []
  | .float x =>
    if floatProperties.contains name || name = "is_zero" then floatFunction name x else .absent
  | .int i =>
    if name = "is_zero" || name = "is_odd" || name = "is_even" then intFunction name i else .absent
  | .fn f _ =>
    if name = "name" then .value (.str f)
    else if name = "is_anonymous" then .value (.bool (f.startsWith "anon$"))
    else .absent
  | _ => .absent

end FlowGraph.Script
