/-
Reading decimals.

A numeral is taken apart by `Numeral.split` into its digits and its exponent, and the
value is then rounded once, to nearest.  Exponents far outside the range of a binary64
number are answered without computing a power of ten.
-/

namespace FlowGraph.Decimal

/-- The value of a list of decimal digits. -/
def digitsValue (ds : List Char) : Nat :=
  ds.foldl (fun n c => n * 10 + (c.toNat - '0'.toNat)) 0

/-- `digits * 10^exp`, rounded to the nearest binary64 number. -/
def toFloat (digits : Nat) (exp : Int) : Float :=
  if digits = 0 then 0.0
  else
    let size : Int := (Nat.toDigits 10 digits).length + exp
    if 400 < size then 1.0 / 0.0
    else if size < -400 then 0.0
    else Float.ofScientific digits (exp < 0) exp.natAbs

/-- The pieces of a numeral: whole digits, the digits after the point, and the exponent. -/
structure Numeral where
  whole : List Char
  fraction : List Char
  exponent : Int

/-- The digits at the front of a text, and what follows them. -/
def spanDigits (cs : List Char) : List Char × List Char := cs.span Char.isDigit

/-- An exponent after `e` or `E`, with an optional sign and at least one digit. -/
def readExponent (cs : List Char) : Option (Int × List Char) :=
  let (negative, cs) := match cs with
    | '-' :: r => (true, r)
    | '+' :: r => (false, r)
    | r => (false, r)
  match spanDigits cs with
  | ([], _) => none
  | (ds, rest) =>
    let n : Int := digitsValue ds
    some (if negative then -n else n, rest)

/-- The value of a numeral. -/
def Numeral.value (n : Numeral) : Float :=
  toFloat (digitsValue (n.whole ++ n.fraction)) (n.exponent - n.fraction.length)

/-- The names of the values that are no numerals, in any case. -/
def named? (cs : List Char) : Option Float :=
  match String.ofList (cs.map Char.toLower) with
  | "inf" | "infinity" => some (1.0 / 0.0)
  | "nan" => some (0.0 / 0.0)
  | _ => none

/-- A numeral without sign: digits on at least one side of the point, and perhaps an
exponent. -/
def numeral? (cs : List Char) : Option Numeral :=
  let (whole, rest) := spanDigits cs
  let (fraction, rest) := match rest with
    | '.' :: r => spanDigits r
    | r => ([], r)
  if whole.isEmpty && fraction.isEmpty then none
  else
    match rest with
    | [] => some ⟨whole, fraction, 0⟩
    | c :: r =>
      if c = 'e' ∨ c = 'E' then
        match readExponent r with
        | some (e, []) => some ⟨whole, fraction, e⟩
        | _ => none
      else none

/-- Read a whole text as a number: a signed numeral, or the name of an infinity or of
the value that is no number. -/
def float? (s : String) : Option Float :=
  let (negative, cs) := match s.toList with
    | '-' :: r => (true, r)
    | '+' :: r => (false, r)
    | r => (false, r)
  let magnitude := match numeral? cs with
    | some n => some n.value
    | none => named? cs
  magnitude.map fun x => if negative then -x else x

/-- Read a whole text as a natural: an optional plus sign and digits. -/
def nat? (s : String) : Option Nat :=
  let cs := match s.toList with
    | '+' :: r => r
    | r => r
  if !cs.isEmpty && cs.all Char.isDigit then some (digitsValue cs) else none

end FlowGraph.Decimal
