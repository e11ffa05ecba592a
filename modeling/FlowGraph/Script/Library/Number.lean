/-
Library functions on numbers, and the reading of numbers.
-/
import FlowGraph.Script.Library.Outcome
import FlowGraph.Decimal.Reader
import FlowGraph.Text.Blank

namespace FlowGraph.Script

/-- The whole part of a float. -/
def truncated (x : Float) : Float := if x < 0.0 then x.ceil else x.floor

/-- The integer that a whole float holds, if it fits. -/
def wholeInt? (x : Float) : Option Int :=
  if !x.isFinite then none
  else
    let d := (Decimal.Binary.ofBits x.toBits)
    let n : Nat := if 0 ≤ d.q then d.m <<< d.q.toNat else d.m >>> (-d.q).toNat
    let i : Int := if Decimal.isNegative x then -(n : Int) else n
    if fits i then some i else none

/-- The whole part of a float as an integer.  What is no number counts as zero, and the
least power of two above all integers as the greatest of them. -/
def toInt (x : Float) : Outcome :=
  match wholeInt? x with
  | some i => .value (.int i)
  | none =>
    if x.isNaN then .value (.int 0)
    else if x == 9223372036854775808.0 then .value (.int 9223372036854775807)
    else .fault (.conversionOverflow x)

/-- Functions on an integer alone. -/
def intFunction (name : String) (i : Int) : Outcome :=
  match name with
  | "abs" => if fits i.natAbs then .value (.int i.natAbs) else .fault (.negationOverflow i)
  | "sign" => .value (.int i.sign)
  | "is_zero" => .value (.bool (i == 0))
  | "is_odd" => .value (.bool (i % 2 == 1))
  | "is_even" => .value (.bool (i % 2 == 0))
  | "to_int" => .value (.int i)
  | "to_float" => .value (.float (Float.ofInt i))
  | "to_hex" => .value (.str (String.ofList (Nat.toDigits 16 (toBits64 i).toNat)))
  | "to_octal" => .value (.str (String.ofList (Nat.toDigits 8 (toBits64 i).toNat)))
  | "to_binary" => .value (.str (String.ofList (Nat.toDigits 2 (toBits64 i).toNat)))
  | "to_char" =>
    if 0 ≤ i && i.toNat.isValidChar then .value (.char (Char.ofNat i.toNat)) else .absent
  | _ => .absent

/-- Functions on a float alone. -/
def floatFunction (name : String) (x : Float) : Outcome :=
  match name with
  | "abs" => .value (.float x.abs)
  | "sign" =>
    .value (.int (if x == 0.0 then 0 else if Decimal.isNegative x then -1 else 1))
  | "is_zero" => .value (.bool (x == 0.0))
  | "round" => .value (.float x.round)
  | "floor" => .value (.float x.floor)
  | "ceiling" => .value (.float x.ceil)
  | "int" => .value (.float (truncated x))
  | "fraction" => .value (.float (x - truncated x))
  | "is_nan" => .value (.bool x.isNaN)
  | "is_finite" => .value (.bool x.isFinite)
  | "is_infinite" => .value (.bool x.isInf)
  | "to_int" => toInt x
  | "to_float" => .value (.float x)
  | "sqrt" => .value (.float x.sqrt)
  | "exp" => .value (.float x.exp)
  | "ln" => .value (.float x.log)
  | "log" => .value (.float x.log10)
  | "sin" => .value (.float x.sin)
  | "cos" => .value (.float x.cos)
  | "tan" => .value (.float x.tan)
  | _ => .absent

/-- The properties that floats have. -/
def floatProperties : List String :=
  ["round", "floor", "ceiling", "int", "fraction", "is_nan", "is_finite", "is_infinite"]

/-- The greater or the lesser of two numbers, texts or characters. -/
def extreme (greatest : Bool) (a b : Val) : Outcome :=
  let pick (first : Bool) (x y : Val) : Outcome := .value (if first then x else y)
  match a, b with
  | .int i, .int j => pick (if greatest then j ≤ i else i ≤ j) a b
  | .float x, .float y => pick (if greatest then y < x || y.isNaN else x < y || y.isNaN) a b
  | .int i, .float y =>
    let x := Float.ofInt i
    pick (if greatest then y < x else x < y) (.float x) b
  | .float x, .int j =>
    let y := Float.ofInt j
    pick (if greatest then y < x else x < y) a (.float y)
  | .char c, .char d => pick (if greatest then d ≤ c else c ≤ d) a b
  | .str s, .str t => pick (if greatest then t ≤ s else s ≤ t) a b
  | _, _ => .absent

/-- The value of the digits of a text in a base, with a sign. -/
def readInt (base : Nat) (s : String) : Outcome :=
  let text := Text.trim s
  let fail (reason : String) : Outcome := .fault (.notAnInt s reason)
  let (negative, ds) := match text.toList with
    | '-' :: r => (true, r)
    | '+' :: r => (false, r)
    | r => (false, r)
  let digit? (c : Char) : Option Nat :=
    let n := if c.isDigit then c.toNat - '0'.toNat
      else if c.isLower then c.toNat - 'a'.toNat + 10
      else if c.isUpper then c.toNat - 'A'.toNat + 10
      else base
    if n < base then some n else none
  if text = "" then fail "cannot parse integer from empty string"
  else if ds.isEmpty || ds.any fun c => (digit? c).isNone then fail "invalid digit found in string"
  else
    let n : Int := ds.foldl (fun n c => n * base + ((digit? c).getD 0 : Int)) 0
    let i := if negative then -n else n
    if fits i then .value (.int i)
    else fail (if negative then "number too small to fit in target type"
      else "number too large to fit in target type")

/-- The float that a text stands for. -/
def readFloat (s : String) : Outcome :=
  let text := Text.trim s
  if text = "" then .fault (.notAFloat s "cannot parse float from empty string")
  else
    match Decimal.float? text with
    | some x => .value (.float x)
    | none => .fault (.notAFloat s "invalid float literal")

/-- Library functions that are about numbers. -/
def numberFunction (name : String) (args : List Val) : Outcome :=
  match name, args with
  | "min", [a, b] => extreme false a b
  | "max", [a, b] => extreme true a b
  | "parse_int", [.str s] => readInt 10 s
  | "parse_int", [.str s, .int base] =>
    if 2 ≤ base && base ≤ 36 then readInt base.toNat s else .fault (.badRadix base)
  | "parse_float", [.str s] => readFloat s
  | "PI", [] => .value (.float 3.141592653589793)
  | "E", [] => .value (.float 2.718281828459045)
  | name, [.int i] => intFunction name i
  | name, [.float x] => floatFunction name x
  | _, _ => .absent

end FlowGraph.Script
