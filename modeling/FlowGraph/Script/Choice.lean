/-
Which case of a choice is taken.

A label is a value or a range.  Cases with the value of the subject come before cases with
a range around it, whatever their order.
-/
import FlowGraph.Script.Arithmetic
import FlowGraph.Script.Expr

namespace FlowGraph.Script

/-- The subject is a value of the label. -/
def Label.isValue (l : Label) (v : Val) : Bool :=
  match l, v with
  | .value w, v => sameType v w && (equal v w).toOption.getD false
  | .among a b, .int i => a ≤ i && i < b
  | _, _ => false

/-- The range of a label holds the subject. -/
def Label.covers (l : Label) (v : Val) : Bool :=
  match l, v with
  | .between a b inclusive, .int i => a ≤ i && (i < b || (inclusive && i == b))
  | .between a b inclusive, .float x =>
    Float.ofInt a ≤ x && (x < Float.ofInt b || (inclusive && x == Float.ofInt b))
  | _, _ => false

/-- The cases that a subject may take: those with its value, or if there are none, those
with a range around it. -/
def candidates (v : Val) (cases : List Case) : List Case :=
  let exact := cases.filter fun | .mk ls _ _ => ls.any (·.isValue v)
  if exact.isEmpty then cases.filter fun | .mk ls _ _ => ls.any (·.covers v) else exact

end FlowGraph.Script
