/-
JSON values.

A number is an integer or a binary64 value, and the two stay apart: `1` and `1.0` are
different values.  Integers reach from -2^63 to 2^64 - 1; a reader makes everything
outside that range, and everything written with a point or an exponent, a float.  The
fields of an object are kept in ascending order of their names.
-/
import FlowGraph.Entries

namespace FlowGraph

/-- A JSON number. -/
inductive Number where
  | int (i : Int)
  | float (x : Float)

/-- A JSON value. -/
inductive Json where
  | null
  | bool (b : Bool)
  | number (n : Number)
  | str (s : String)
  | arr (items : List Json)
  | obj (fields : List (String × Json))
  deriving Inhabited

namespace Number

/-- The integer lies in the range that JSON integers have here. -/
def inRange (i : Int) : Bool := -9223372036854775808 ≤ i && i ≤ 18446744073709551615

/-- The value as a float, rounded to nearest. -/
def toFloat : Number → Float
  | int i => Float.ofInt i
  | float x => x

/-- Equal values of one kind.  An integer never equals a float. -/
def same : Number → Number → Bool
  | int i, int j => i == j
  | float x, float y => x == y
  | _, _ => false

end Number

namespace Json

/-- An integer as a value. -/
def int (i : Int) : Json := .number (.int i)

/-- A natural as a value. -/
def nat (n : Nat) : Json := .number (.int n)

/-- A float as a value; one that is no number or infinite has no value. -/
def float (x : Float) : Json := if x.isFinite then .number (.float x) else .null

/-- A text, or nothing, as a value. -/
def ofOption (s : Option String) : Json :=
  match s with
  | some s => .str s
  | none => .null

/-- An object from its fields, in any order. -/
def object (fields : List (String × Json)) : Json := .obj (Entries.ofList fields)

/-- The value of a field. -/
def get? (name : String) : Json → Option Json
  | .obj fields => Entries.find? name fields
  | _ => none

/-- The value of a field, or nothing. -/
def getD (name : String) (j : Json) : Json := (j.get? name).getD .null

/-- The value is `null`. -/
def isNull : Json → Bool
  | .null => true
  | _ => false

/-- The text of a string value. -/
def str? : Json → Option String
  | .str s => some s
  | _ => none

/-- The natural number that a value is. -/
def natural? : Json → Option Nat
  | .number (.int i) => if 0 ≤ i then some i.toNat else none
  | _ => none

/-- The word for the kind of a value. -/
def kind : Json → String
  | .null => "null"
  | .bool _ => "boolean"
  | .number _ => "number"
  | .str _ => "string"
  | .arr _ => "array"
  | .obj _ => "object"

mutual

/-- Equality of values: numbers by kind and value, objects field by field. -/
def same : Json → Json → Bool
  | .null, .null => true
  | .bool a, .bool b => a == b
  | .number a, .number b => a.same b
  | .str a, .str b => a == b
  | .arr as, .arr bs => sameItems as bs
  | .obj as, .obj bs => sameFields as bs
  | _, _ => false

def sameItems : List Json → List Json → Bool
  | [], [] => true
  | a :: as, b :: bs => same a b && sameItems as bs
  | _, _ => false

def sameFields : List (String × Json) → List (String × Json) → Bool
  | [], [] => true
  | (k, a) :: as, (l, b) :: bs => k == l && same a b && sameFields as bs
  | _, _ => false

end

instance : BEq Json := ⟨same⟩

end Json

end FlowGraph
