/-
Loose comparison of JSON values.

Values of different kinds are compared through their plain forms.  A list is its items
joined by commas, an object is a fixed text.  Where texts and truth values meet other
kinds, both sides are read as numbers, and what cannot be read as one is no number.

`null` equals only itself, but in an ordering it counts as zero.
-/
import FlowGraph.Json.Printer
import FlowGraph.Decimal.Reader
import FlowGraph.Text.Blank

namespace FlowGraph.Json

mutual

/-- The text of a value inside a joined list. -/
def joinedText : Json → String
  | .null => ""
  | .str s => s
  | .arr items => ",".intercalate (joinedTexts items)
  | .obj _ => "[object Object]"
  | j => j.compact

def joinedTexts : List Json → List String
  | [] => []
  | j :: rest => joinedText j :: joinedTexts rest

end

/-- The plain form of a value: lists and objects as text, everything else as it is. -/
def plain : Json → Json
  | .arr items => .str (joinedText (.arr items))
  | .obj fields => .str (joinedText (.obj fields))
  | j => j

/-- The value is a list or an object. -/
def isComposite : Json → Bool
  | .arr _ | .obj _ => true
  | _ => false

/-- The number that a text stands for.  Blanks around it do not count, and a text of
nothing but blanks is zero. -/
def textNumber (s : String) : Float :=
  let t := Text.trim s
  if t.isEmpty then 0.0 else (Decimal.float? t).getD (0.0 / 0.0)

/-- The number that a plain value stands for. -/
def plainNumber : Json → Float
  | .null => 0.0
  | .bool b => if b then 1.0 else 0.0
  | .number n => n.toFloat
  | .str s => textNumber s
  | .arr _ | .obj _ => 0.0 / 0.0

/-- The number that a value stands for. -/
def looseNumber (j : Json) : Float := j.plain.plainNumber

/-- Equality of plain values, neither of them `null`. -/
def plainEq : Json → Json → Bool
  | .str a, .str b => a == b
  | .bool a, .bool b => a == b
  | a, b => a.plainNumber == b.plainNumber

/-- Loose equality. -/
def looseEq (a b : Json) : Bool :=
  if a.isNull || b.isNull then a.isNull && b.isNull
  else if a.isComposite && b.isComposite then a.same b
  else plainEq a.plain b.plain

/-- The order of two floats, if they have one. -/
def floatOrder (x y : Float) : Option Ordering :=
  if x < y then some .lt
  else if x == y then some .eq
  else if y < x then some .gt
  else none

/-- The order of two texts by their code points. -/
def textOrder (a b : String) : Ordering :=
  if a < b then .lt else if a = b then .eq else .gt

/-- The order of two values: texts as texts, everything else as numbers. -/
def looseOrder (a b : Json) : Option Ordering :=
  match a.plain, b.plain with
  | .str s, .str t => some (textOrder s t)
  | x, y => floatOrder x.plainNumber y.plainNumber

/-- The value counts as true: it is not `null`, not false, not zero, not the empty text.
Lists and objects are true even when they are empty. -/
def truthy : Json → Bool
  | .null => false
  | .bool b => b
  | .number n => n.toFloat != 0.0 && !n.toFloat.isNaN
  | .str s => !s.isEmpty
  | .arr _ | .obj _ => true

end FlowGraph.Json
