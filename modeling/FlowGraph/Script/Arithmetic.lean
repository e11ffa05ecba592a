/-
Operators.

Integers have sixty-four bits, and a result that does not fit is a fault.  An integer
meets a float as a float.  Values of different types are never equal and never in order,
numbers and single characters apart; adding a string to anything joins their texts.
-/
import FlowGraph.Script.Fault

namespace FlowGraph.Script

/-- An integer that has to fit. -/
def checked (operation : String) (a : Int) (op : String) (b : Int) (result : Int) :
    Except Fault Val :=
  if fits result then .ok (.int result) else .error (.overflow operation a op b)

/-- An integer power.  A base of magnitude two or more overflows from the 64th power on. -/
def intPower (a b : Int) : Except Fault Val :=
  if b < 0 then .error (.negativePower a b)
  else if 4294967295 < b then .error (.hugePower a b)
  else if a = 0 then .ok (.int (if b = 0 then 1 else 0))
  else if a = 1 then .ok (.int 1)
  else if a = -1 then .ok (.int (if b % 2 = 0 then 1 else -1))
  else if 64 < b then .error (.overflow "Exponential" a "**" b)
  else checked "Exponential" a "**" b (Int.pow a b.toNat)

/-- The integer as sixty-four bits. -/
def toBits64 (i : Int) : BitVec 64 := BitVec.ofInt 64 i

/-- An integer moved to the left, or to the right by a negative count. -/
def shift (a : Int) (count : Int) : Int :=
  if count < 0 then
    let n := count.natAbs
    if 64 ≤ n then (if a < 0 then -1 else 0) else a >>> n
  else if 64 ≤ count then 0
  else (toBits64 a <<< count.toNat).toInt

/-- Operations on two integers. -/
def intBinary (op : String) (a b : Int) : Option (Except Fault Val) :=
  match op with
  | "+" => some (checked "Addition" a "+" b (a + b))
  | "-" => some (checked "Subtraction" a "-" b (a - b))
  | "*" => some (checked "Multiplication" a "*" b (a * b))
  | "/" => some (if b = 0 then .error (.divisionByZero a b) else checked "Division" a "/" b (a.tdiv b))
  | "%" =>
    some (if b = 0 ∨ (b = -1 ∧ !fits (-a)) then .error (.moduloFault a b) else .ok (.int (a.tmod b)))
  | "**" => some (intPower a b)
  | "<<" => some (.ok (.int (shift a b)))
  | ">>" => some (.ok (.int (shift a (-b))))
  | "&" => some (.ok (.int (toBits64 a &&& toBits64 b).toInt))
  | "|" => some (.ok (.int (toBits64 a ||| toBits64 b).toInt))
  | "^" => some (.ok (.int (toBits64 a ^^^ toBits64 b).toInt))
  | "==" => some (.ok (.bool (a == b)))
  | "!=" => some (.ok (.bool (a != b)))
  | "<" => some (.ok (.bool (a < b)))
  | "<=" => some (.ok (.bool (a ≤ b)))
  | ">" => some (.ok (.bool (b < a)))
  | ">=" => some (.ok (.bool (b ≤ a)))
  | ".." => some (.ok (.range a b false))
  | "..=" => some (.ok (.range a b true))
  | _ => none

/-- What is left of `x` after taking `y` away as often as it goes, exactly. -/
def remainder (x y : Float) : Float :=
  if x.isNaN || y.isNaN || x.isInf || y == 0.0 then 0.0 / 0.0
  else if y.isInf || x == 0.0 then x
  else
    let a := Decimal.Binary.ofBits x.toBits
    let b := Decimal.Binary.ofBits y.toBits
    let q := min a.q b.q
    let r := (a.m <<< (a.q - q).toNat) % (b.m <<< (b.q - q).toNat)
    let magnitude := (Float.ofNat r).scaleB q
    if Decimal.isNegative x then -magnitude else magnitude

/-- Operations on two floats. -/
def floatBinary (op : String) (x y : Float) : Option Val :=
  match op with
  | "+" => some (.float (x + y))
  | "-" => some (.float (x - y))
  | "*" => some (.float (x * y))
  | "/" => some (.float (x / y))
  | "%" => some (.float (remainder x y))
  | "**" => some (.float (x.pow y))
  | "==" => some (.bool (x == y))
  | "!=" => some (.bool (x != y))
  | "<" => some (.bool (x < y))
  | "<=" => some (.bool (x ≤ y))
  | ">" => some (.bool (y < x))
  | ">=" => some (.bool (y ≤ x))
  | _ => none

/-- The comparisons, by what they accept of an order. -/
def orderedBy (op : String) (o : Ordering) : Option Val :=
  match op with
  | "==" => some (.bool (o == .eq))
  | "!=" => some (.bool (o != .eq))
  | "<" => some (.bool (o == .lt))
  | "<=" => some (.bool (o != .gt))
  | ">" => some (.bool (o == .gt))
  | ">=" => some (.bool (o != .lt))
  | _ => none

/-- The order of two texts by their characters. -/
def compareChars (a b : List Char) : Ordering :=
  if a < b then .lt else if a = b then .eq else .gt

/-- The text without the occurrences of another. -/
def without (s t : String) : String := if t = "" then s else s.replace t ""

/-- Operations on two strings. -/
def stringBinary (op : String) (s t : String) : Option Val :=
  match op with
  | "+" => some (.str (s ++ t))
  | "-" => some (.str (without s t))
  | op => orderedBy op (compareChars s.toList t.toList)

/-- A string of which one side is a single character is compared by its first two
characters. -/
def charBinary (op : String) (s t : List Char) : Option Val :=
  match op with
  | "+" => some (.str (String.ofList (s ++ t)))
  | op => orderedBy op (compareChars (s.take 2) (t.take 2))

/-- Operations on two truth values. -/
def boolBinary (op : String) (a b : Bool) : Option Val :=
  match op with
  | "==" => some (.bool (a == b))
  | "!=" => some (.bool (a != b))
  | "<" => some (.bool (!a && b))
  | "<=" => some (.bool (!a || b))
  | ">" => some (.bool (a && !b))
  | ">=" => some (.bool (a || !b))
  | "&" => some (.bool (a && b))
  | "|" => some (.bool (a || b))
  | "^" => some (.bool (a != b))
  | _ => none

/-- The fault of an operation that the types do not have. -/
def noOperation (op : String) (a b : Val) : Fault :=
  .functionNotFound op [a.argumentType, b.argumentType]

mutual

/-- Equality of values, if their type has one. -/
def equal : Val → Val → Except Fault Bool
  | .unit, .unit => .ok true
  | .bool a, .bool b => .ok (a == b)
  | .int a, .int b => .ok (a == b)
  | .float x, .float y => .ok (x == y)
  | .int a, .float y => .ok (Float.ofInt a == y)
  | .float x, .int b => .ok (x == Float.ofInt b)
  | .char c, .char d => .ok (c == d)
  | .str s, .str t => .ok (s == t)
  | .char c, .str s => .ok (s.toList.take 2 == [c])
  | .str s, .char c => .ok (s.toList.take 2 == [c])
  | .blob a, .blob b => .ok (a == b)
  | .range a b i, .range c d j => .ok (a == c && b == d && i == j)
  | .array as, .array bs => if as.length = bs.length then equalItems as bs else .ok false
  | .map as, .map bs => if as.length = bs.length then equalFields as bs else .ok false
  | .fn f as, .fn g bs => .error (noOperation "==" (.fn f as) (.fn g bs))
  | _, _ => .ok false

def equalItems : List Val → List Val → Except Fault Bool
  | a :: as, b :: bs =>
    match equal a b with
    | .error e => .error e
    | .ok true => equalItems as bs
    | .ok false => .ok false
  | [], _ => .ok true
  | _, [] => .ok true

def equalFields : List (String × Val) → List (String × Val) → Except Fault Bool
  | (k, a) :: as, (l, b) :: bs =>
    if k = l then
      match equal a b with
      | .error e => .error e
      | .ok true => equalFields as bs
      | .ok false => .ok false
    else .ok false
  | [], _ => .ok true
  | _, [] => .ok true

end

/-- The values are of one type. -/
def sameType (a b : Val) : Bool := a.typeName == b.typeName

/-- Comparisons of values that are neither numbers, texts nor truth values. -/
def otherBinary (op : String) (a b : Val) : Except Fault Val :=
  match op with
  | "==" => (equal a b).map .bool
  | "!=" => (equal a b).map fun e => .bool (!e)
  | _ =>
    if op = "<" ∨ op = "<=" ∨ op = ">" ∨ op = ">=" then
      match a, b with
      | .unit, .unit => .ok (.bool false)
      | a, b => if sameType a b then .error (noOperation op a b) else .ok (.bool false)
    else .error (noOperation op a b)

/-- Joining to a string. -/
def joining (a b : Val) : Option Val :=
  match a, b with
  | .str s, b => some (.str (s ++ b.display))
  | a, .str t => some (.str (a.display ++ t))
  | _, _ => none

/-- The result of an operator, or the fault of one that the values do not have. -/
def binary (op : String) (a b : Val) : Except Fault Val :=
  let orElse (r : Option Val) : Except Fault Val :=
    match r with
    | some v => .ok v
    | none => otherBinary op a b
  match a, b with
  | .int i, .int j => (intBinary op i j).getD (.error (noOperation op a b))
  | .float x, .float y => orElse (floatBinary op x y)
  | .int i, .float y => orElse (floatBinary op (Float.ofInt i) y)
  | .float x, .int j => orElse (floatBinary op x (Float.ofInt j))
  | .bool p, .bool q => orElse (boolBinary op p q)
  | .str s, .str t => orElse (stringBinary op s t)
  | .char c, .char d => orElse (charBinary op [c] [d])
  | .char c, .str t => orElse (charBinary op [c] t.toList)
  | .str s, .char d =>
    if op = "-" then .ok (.str (without s (String.ofList [d])))
    else orElse (charBinary op s.toList [d])
  | .array xs, .array ys => if op = "+" then .ok (.array (xs ++ ys)) else otherBinary op a b
  | .map xs, .map ys => if op = "+" then .ok (.map (Entries.union xs ys)) else otherBinary op a b
  | .blob xs, .blob ys => if op = "+" then .ok (.blob (xs ++ ys)) else otherBinary op a b
  | a, b =>
    if op = "+" then
      match joining a b with
      | some v => .ok v
      | none => .error (noOperation op a b)
    else otherBinary op a b

/-- The result of `target op= value`.  Lists and maps take in what is added to them. -/
def assigned (op : String) (target value : Val) : Except Fault Val :=
  match op, target, value with
  | "+", .array xs, .array ys => .ok (.array (xs ++ ys))
  | "+", .array xs, v => .ok (.array (xs ++ [v]))
  | op, target, value => binary op target value

/-- The result of an operator before its operand. -/
def signed (op : String) (a : Val) : Except Fault Val :=
  match op, a with
  | "-", .int i => if fits (-i) then .ok (.int (-i)) else .error (.negationOverflow i)
  | "-", .float x => .ok (.float (-x))
  | "+", .int i => .ok (.int i)
  | "+", .float x => .ok (.float x)
  | "!", .bool b => .ok (.bool (!b))
  | op, a => .error (.functionNotFound op [a.argumentType])

end FlowGraph.Script
