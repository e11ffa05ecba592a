/-
What a library function makes of its arguments.

A function either gives a value, or gives a value and leaves another in place of its
first argument.  Only functions of the second kind change anything, and they may not be
called on a constant.
-/
import FlowGraph.Script.Arithmetic

namespace FlowGraph.Script

/-- The outcome of a library function. -/
inductive Outcome where
  /-- There is no such function for these arguments. -/
  | absent
  | value (v : Val)
  /-- A value, and what the first argument has become. -/
  | changed (v : Val) (first : Val)
  | fault (f : Fault)

namespace Outcome

/-- The outcome of a function that may fail. -/
def ofExcept : Except Fault Val → Outcome
  | .ok v => .value v
  | .error f => .fault f

/-- The first function that there is. -/
def orElse (a : Outcome) (b : Unit → Outcome) : Outcome :=
  match a with
  | absent => b ()
  | a => a

end Outcome

/-- A position counted from the start, or from the end if it is negative, and cut to the
length. -/
def offset (length : Nat) (i : Int) : Nat :=
  if i < 0 then length - min i.natAbs length else min i.toNat length

/-- An index counted from the start, or from the end if it is negative. -/
def index? (length : Nat) (i : Int) : Option Nat :=
  if i < 0 then
    if i.natAbs ≤ length then some (length - i.natAbs) else none
  else if i < length then some i.toNat else none

/-- Where a part of a length begins and how long it is. -/
def part (length : Nat) (start count : Int) : Nat × Nat :=
  let first := offset length start
  (first, if count ≤ 0 then 0 else min count.toNat (length - first))

/-- The start and the number of elements that a range covers. -/
def covered (first last : Int) (inclusive : Bool) : Int × Int :=
  let start := max first 0
  let stop := max (if inclusive then last + 1 else last) start
  (start, stop - start)

end FlowGraph.Script
