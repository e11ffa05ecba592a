/-
The fewest decimal digits that identify a binary64 value.

A finite value stands for an interval of reals, those that round to it.  A decimal
identifies the value exactly when it lies in that interval, so the shortest text of
a value is a question about naturals: which is the coarsest decimal grid with a
point in the interval, and which of its points is nearest.

Everything here is exact.  A value is decoded into `m * 2^q`, and decimals are
compared with the ends of its interval by cross-multiplying naturals.
-/

namespace FlowGraph.Decimal

/-- A finite non-negative binary64 value, `m * 2^q`. -/
structure Binary where
  m : Nat
  q : Int
  /-- The gap to the value below is half the gap to the value above. -/
  narrowBelow : Bool
  deriving Repr, DecidableEq

/-- The magnitude held by the bits of a finite value.  The sign is dropped. -/
def Binary.ofBits (bits : UInt64) : Binary :=
  let exponent := ((bits >>> 52) &&& 0x7FF).toNat
  let fraction := (bits &&& 0xFFFFFFFFFFFFF).toNat
  if exponent = 0 then ⟨fraction, -1074, false⟩
  else ⟨0x10000000000000 + fraction, (exponent : Int) - 1075, fraction == 0 && 1 < exponent⟩

/-- The value is a natural number. -/
def Binary.natural? (x : Binary) : Option Nat :=
  if 0 ≤ x.q then some (x.m <<< x.q.toNat)
  else if (x.m >>> x.q.natAbs) <<< x.q.natAbs = x.m then some (x.m >>> x.q.natAbs)
  else none

/-- A decimal, `digits * 10^exp`. -/
structure Digits where
  digits : Nat
  exp : Int
  deriving Repr, DecidableEq

/-- Which of two equally near candidates is written. -/
inductive Tie where
  | toEven
  | upward
  deriving Repr, DecidableEq

/-- Compare `a * 10^i` with `n * 2^j`, exactly. -/
def cmpScaled (a : Nat) (i : Int) (n : Nat) (j : Int) : Ordering :=
  compare ((a * Nat.pow 10 i.toNat) <<< (-j).toNat) ((n * Nat.pow 10 (-i).toNat) <<< j.toNat)

/-- The decimal lies among the reals that round to `x`: to nearest, ends included
exactly when `m` is even. -/
def Binary.readsBack (x : Binary) (d : Digits) : Bool :=
  let lo := if x.narrowBelow then 4 * x.m - 1 else 4 * x.m - 2
  let hi := 4 * x.m + 2
  let closed := x.m % 2 == 0
  let below := cmpScaled d.digits d.exp lo (x.q - 2)
  let above := cmpScaled d.digits d.exp hi (x.q - 2)
  (below == .gt || (closed && below == .eq)) && (above == .lt || (closed && above == .eq))

/-- `x` is below `10^k`. -/
def Binary.belowPower (x : Binary) (k : Int) : Bool :=
  cmpScaled 1 k x.m x.q == .gt

/-- The least `k` with `x < 10^k`, for `x` not zero.  The binary logarithm gives an
estimate that is never too large and at most two too small. -/
def Binary.scale (x : Binary) : Int :=
  let log2 : Int := (x.m.log2 : Int) + x.q
  let k := Int.fdiv (log2 * 30103) 100000
  if x.belowPower k then k
  else if x.belowPower (k + 1) then k + 1
  else if x.belowPower (k + 2) then k + 2
  else k + 3

/-- The integer part of `x / 10^e`. -/
def Binary.floorOnGrid (x : Binary) (e : Int) : Nat :=
  ((x.m * Nat.pow 10 (-e).toNat) <<< x.q.toNat) / (Nat.pow 10 e.toNat <<< (-x.q).toNat)

/-- The candidates for `x` on the grid `10^e`: of its two neighbours there, the one
that reads back, or the nearer if both do. -/
def Binary.onGrid (x : Binary) (tie : Tie) (e : Int) : Option Digits :=
  let low : Digits := ⟨x.floorOnGrid e, e⟩
  let high : Digits := ⟨low.digits + 1, e⟩
  match x.readsBack low, x.readsBack high with
  | true, false => some low
  | false, true => some high
  | false, false => none
  | true, true =>
    match cmpScaled (low.digits + high.digits) e (2 * x.m) x.q with
    | .gt => some low
    | .lt => some high
    | .eq =>
      match tie with
      | .upward => some high
      | .toEven => if low.digits % 2 == 0 then some low else some high

/-- Try grids of `n`, `n + 1`, ... digits, `fuel` of them. -/
def Binary.search (x : Binary) (tie : Tie) (k : Int) : Nat → Nat → Option Digits
  | 0, _ => none
  | fuel + 1, n =>
    match x.onGrid tie (k - n) with
    | some d => some d
    | none => x.search tie k fuel (n + 1)

/-- Move trailing zeros of the digits into the exponent. -/
def Digits.stripZeros (d : Digits) : Nat → Digits
  | 0 => d
  | fuel + 1 =>
    if d.digits ≠ 0 ∧ d.digits % 10 = 0 then Digits.stripZeros ⟨d.digits / 10, d.exp + 1⟩ fuel else d

/-- The exact decimal value of `x`. -/
def Binary.exact (x : Binary) : Digits :=
  ⟨(x.m * Nat.pow 5 (-x.q).toNat) <<< x.q.toNat, min x.q 0⟩

/-- The fewest digits that identify `x`, and of those the nearest. -/
def Binary.shortest (x : Binary) (tie : Tie) : Digits :=
  if x.m = 0 then ⟨0, 0⟩
  else ((x.search tie x.scale 17 1).getD x.exact).stripZeros 400

end FlowGraph.Decimal
