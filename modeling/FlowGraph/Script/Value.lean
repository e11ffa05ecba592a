/-
The values that scripts compute with, and their texts.

A script tells integers, floats, characters and strings apart.  Lists and maps are
plain values: to change one is to put a changed copy in its place.  What is shared
between a closure and its surroundings is not a value but a cell, and `shared` is the
name of a cell.

A value has two texts.  `display` is what `print` and joining to a string use, `inspect`
is what stands inside a list or a map, where strings have quotes and characters have none.
-/
import FlowGraph.Json.Value
import FlowGraph.Decimal.Layout
import FlowGraph.Text.Quoted

namespace FlowGraph.Script

/-- A script value.  Integers are kept between -2^63 and 2^63 - 1. -/
inductive Val where
  | unit
  | bool (b : Bool)
  | int (i : Int)
  | float (x : Float)
  | char (c : Char)
  | str (s : String)
  | blob (bytes : List Nat)
  | array (items : List Val)
  | map (fields : List (String × Val))
  /-- A function by its name, with arguments that are already given. -/
  | fn (name : String) (given : List Val)
  | range (first last : Int) (inclusive : Bool)
  | shared (cell : Nat)
  deriving Inhabited

/-- The integer fits the 64 bits of a script integer. -/
def fits (i : Int) : Bool := -9223372036854775808 ≤ i && i ≤ 9223372036854775807

namespace Val

/-- The name of the type of a value. -/
def typeName : Val → String
  | unit => "()"
  | bool _ => "bool"
  | int _ => "i64"
  | float _ => "f64"
  | char _ => "char"
  | str _ => "string"
  | blob _ => "blob"
  | array _ => "array"
  | map _ => "map"
  | fn _ _ => "Fn"
  | range _ _ false => "range"
  | range _ _ true => "range="
  | shared _ => "shared"

/-- The name of the type in the list of arguments that no function takes. -/
def argumentType : Val → String
  | str _ => "&str | ImmutableString | String"
  | v => v.typeName

/-- The name of the type where a value leaves the script. -/
def outputType : Val → String
  | range _ _ false => "Range<i64>"
  | range _ _ true => "RangeInclusive<i64>"
  | v => v.typeName

end Val

/-! ### Texts of floats -/

/-- Digits as they are written without exponent. -/
def plainFloat (x : Float) : String :=
  let d := Decimal.digitsOf x .upward
  if d.digits = 0 then "0.0" else d.positional

/-- Digits as they are written with an exponent. -/
def exponentFloat (x : Float) : String :=
  let d := Decimal.digitsOf x .upward
  if d.digits = 0 then "0e0" else d.scientific false

def withSign (x : Float) (magnitude : String) : String :=
  if Decimal.isNegative x then "-" ++ magnitude else magnitude

/-- Infinities and what is no number. -/
def specialFloat (x : Float) : String :=
  if x.isNaN then "NaN" else if Decimal.isNegative x then "-inf" else "inf"

/-- From here on a float is displayed with an exponent. -/
def displayAbove : Float := 9999999827968.0

/-- Below this a float is displayed with an exponent. -/
def displayBelow : Float := 9.9999998245167e-14

/-- A float as `print` shows it: without exponent in the middle of the range, and zero
without a sign. -/
def displayFloat (x : Float) : String :=
  if !x.isFinite then specialFloat x
  else if x == 0.0 then "0.0"
  else if x.abs > displayAbove || x.abs < displayBelow then withSign x (exponentFloat x)
  else withSign x (plainFloat x)

/-- A float too large to have a fraction, with all its digits. -/
def wholeFloat (x : Float) : String :=
  if !x.isFinite then specialFloat x
  else
    let d := Decimal.digitsOf x .upward
    withSign x (String.ofList (Decimal.numeral d.digits ++ List.replicate d.exp.toNat '0'))

/-- Inside containers floats are written positionally from 10^-4 and below 10^16. -/
def inspectLayout : Decimal.Layout where
  plainFrom := -4
  plainBelow := 16
  exponentPlus := false
  tie := .upward

/-- A float inside a list or a map. -/
def inspectFloat (x : Float) : String :=
  if x.isFinite then inspectLayout.render x else specialFloat x

/-- An integer. -/
def displayInt (i : Int) : String :=
  let digits := String.ofList (Decimal.numeral i.natAbs)
  if i < 0 then "-" ++ digits else digits

/-! ### Texts of values -/

/-- Two hexadecimal digits. -/
def hexByte (n : Nat) : String :=
  String.ofList [Nat.digitChar (n / 16), Nat.digitChar (n % 16)]

/-- The text of a range. -/
def rangeText (first last : Int) (inclusive : Bool) : String :=
  displayInt first ++ (if inclusive then "..=" else "..") ++ displayInt last

namespace Val

mutual

/-- The text of a value inside a container.  The name of a cell has no text of its own;
values are read through their cells before they are written. -/
def inspect : Val → String
  | unit => "()"
  | bool b => if b then "true" else "false"
  | int i => displayInt i
  | float x => inspectFloat x
  | char c => String.ofList [c]
  | str s => Text.quoted s
  | blob bytes => "[" ++ String.join (bytes.map hexByte) ++ "]"
  | array items => "[" ++ ", ".intercalate (inspectItems items) ++ "]"
  | map fields => "#\x7b" ++ ", ".intercalate (inspectFields fields) ++ "\x7d"
  | fn name _ => "Fn(" ++ name ++ ")"
  | range first last inclusive => rangeText first last inclusive
  | shared _ => "()"

def inspectItems : List Val → List String
  | [] => []
  | v :: rest => inspect v :: inspectItems rest

def inspectFields : List (String × Val) → List String
  | [] => []
  | (k, v) :: rest => (Text.quoted k ++ ": " ++ inspect v) :: inspectFields rest

end

/-- The text of a value on its own. -/
def display : Val → String
  | unit => ""
  | float x => displayFloat x
  | char c => String.ofList [c]
  | str s => s
  | v => v.inspect

end Val

/-! ### Values from and to JSON -/

/-- A number as a script value: an integer if it fits, else a float. -/
def ofNumber : Number → Val
  | .int i => if fits i then .int i else .float (Float.ofInt i)
  | .float x => .float x

mutual

/-- A JSON value as a script value. -/
def Val.ofJson : Json → Val
  | .null => .unit
  | .bool b => .bool b
  | .number n => ofNumber n
  | .str s => .str s
  | .arr items => .array (ofItems items)
  | .obj fields => .map (ofFields fields)

def ofItems : List Json → List Val
  | [] => []
  | j :: rest => Val.ofJson j :: ofItems rest

def ofFields : List (String × Json) → List (String × Val)
  | [] => []
  | (k, j) :: rest => (k, Val.ofJson j) :: ofFields rest

end

/-- Why a value has no JSON form. -/
inductive NoJson where
  /-- Its type has none. -/
  | ofType (name : String)
  /-- It is a list of bytes. -/
  | ofBytes

mutual

/-- A script value as JSON, or the first part of it that has none. -/
def Val.toJson : Val → Except NoJson Json
  | .unit => .ok .null
  | .bool b => .ok (.bool b)
  | .int i => .ok (.number (.int i))
  | .float x => .ok (Json.float x)
  | .char c => .ok (.str (String.ofList [c]))
  | .str s => .ok (.str s)
  | .array items => (toItems items).map .arr
  | .map fields => (toFields fields).map .obj
  | .blob _ => .error .ofBytes
  | v => .error (.ofType v.outputType)

def toItems : List Val → Except NoJson (List Json)
  | [] => .ok []
  | v :: rest =>
    match v.toJson with
    | .error e => .error e
    | .ok j => (toItems rest).map (j :: ·)

def toFields : List (String × Val) → Except NoJson (List (String × Json))
  | [] => .ok []
  | (k, v) :: rest =>
    match v.toJson with
    | .error e => .error e
    | .ok j => (toFields rest).map ((k, j) :: ·)

end

end FlowGraph.Script
