/-
Writing a decimal down.

Selecting the digits of a number and laying them out are two decisions.  `Shortest`
makes the first.  Here a decimal is laid out positionally, `0.00012`, or with an
exponent, `1.2e-4`; which of the two a format takes, and from where on, is the
format's own decision.
-/
import FlowGraph.Decimal.Shortest

namespace FlowGraph.Decimal

/-- The digits of a natural in base ten. -/
def numeral (n : Nat) : List Char := Nat.toDigits 10 n

/-- The exponent of the leading digit: `1234` is `1.234 * 10^3`. -/
def Digits.leading (d : Digits) : Int := ((numeral d.digits).length : Int) - 1 + d.exp

/-- The decimal with its point in place, and at least one digit on each side of it. -/
def Digits.positional (d : Digits) : String :=
  let ds := numeral d.digits
  if 0 ≤ d.exp then String.ofList (ds ++ List.replicate d.exp.toNat '0') ++ ".0"
  else
    let places := (-d.exp).toNat
    if places < ds.length then
      String.ofList (ds.take (ds.length - places)) ++ "." ++ String.ofList (ds.drop (ds.length - places))
    else "0." ++ String.ofList (List.replicate (places - ds.length) '0' ++ ds)

/-- The decimal with one digit before the point and an exponent.  An exponent that is
not negative carries a plus sign if `plus` is set. -/
def Digits.scientific (d : Digits) (plus : Bool) : String :=
  let mantissa := match numeral d.digits with
    | [] => "0"
    | [c] => String.ofList [c]
    | c :: rest => String.ofList (c :: '.' :: rest)
  let e := d.leading
  let sign := if e < 0 then "-" else if plus then "+" else ""
  mantissa ++ "e" ++ sign ++ String.ofList (numeral e.natAbs)

/-- A way of writing finite numbers. -/
structure Layout where
  /-- Least exponent of the leading digit that is written positionally. -/
  plainFrom : Int
  /-- Exponents of the leading digit from here on are written with an exponent. -/
  plainBelow : Int
  /-- An exponent that is not negative carries a plus sign. -/
  exponentPlus : Bool
  tie : Tie

/-- The sign bit is set. -/
def isNegative (x : Float) : Bool := x.toBits >>> 63 == 1

/-- The shortest digits of the magnitude of a finite number. -/
def digitsOf (x : Float) (tie : Tie) : Digits :=
  (Binary.ofBits x.toBits).shortest tie

/-- The magnitude in the given layout. -/
def Layout.magnitude (l : Layout) (x : Float) : String :=
  let d := digitsOf x l.tie
  if d.digits = 0 then "0.0"
  else if l.plainFrom ≤ d.leading ∧ d.leading < l.plainBelow then d.positional
  else d.scientific l.exponentPlus

/-- A finite number in the given layout, with its sign. -/
def Layout.render (l : Layout) (x : Float) : String :=
  if isNegative x then "-" ++ l.magnitude x else l.magnitude x

end FlowGraph.Decimal
