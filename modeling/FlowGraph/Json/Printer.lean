/-
JSON as text.

A value is written without blanks, the fields of an object in the order of their names.
A quote, a backslash and the control characters below the blank are escaped, everything
else is written as itself.
-/
import FlowGraph.Json.Value
import FlowGraph.Decimal.Layout

namespace FlowGraph.Json

/-- Floats are written with the fewest digits that identify them, positionally from
10^-5 and below 10^16, otherwise with a signed exponent. -/
def floatLayout : Decimal.Layout where
  plainFrom := -5
  plainBelow := 16
  exponentPlus := true
  tie := .toEven

/-- The text of a float.  What is no number or infinite has no text of its own. -/
def floatText (x : Float) : String :=
  if x.isFinite then floatLayout.render x else "null"

/-- The text of an integer. -/
def intText (i : Int) : String :=
  let digits := String.ofList (Decimal.numeral i.natAbs)
  if i < 0 then "-" ++ digits else digits

/-- The text of a number. -/
def numberText : Number → String
  | .int i => intText i
  | .float x => floatText x

/-- One character inside a string. -/
def escapedChar (c : Char) : List Char :=
  match c with
  | '"' => ['\\', '"']
  | '\\' => ['\\', '\\']
  | '\n' => ['\\', 'n']
  | '\r' => ['\\', 'r']
  | '\t' => ['\\', 't']
  | '\x08' => ['\\', 'b']
  | '\x0c' => ['\\', 'f']
  | c =>
    if c.toNat < 0x20 then
      ['\\', 'u', '0', '0', Nat.digitChar (c.toNat / 16), Nat.digitChar (c.toNat % 16)]
    else [c]

/-- A string with its quotes. -/
def stringText (s : String) : String :=
  String.ofList ('"' :: s.toList.flatMap escapedChar ++ ['"'])

mutual

/-- The compact text of a value. -/
def compact : Json → String
  | .null => "null"
  | .bool b => if b then "true" else "false"
  | .number n => numberText n
  | .str s => stringText s
  | .arr items => "[" ++ ",".intercalate (compactItems items) ++ "]"
  | .obj fields => "\x7b" ++ ",".intercalate (compactFields fields) ++ "\x7d"

def compactItems : List Json → List String
  | [] => []
  | j :: rest => compact j :: compactItems rest

def compactFields : List (String × Json) → List String
  | [] => []
  | (k, j) :: rest => (stringText k ++ ":" ++ compact j) :: compactFields rest

end

end FlowGraph.Json
