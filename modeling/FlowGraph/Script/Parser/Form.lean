/-
What a form may stand for, and how strongly operators bind.

Some forms are refused where they stand although every part of them can be read: a
literal that is no truth value as a condition, a literal that cannot be run over as the
source of a loop, a target that cannot be assigned to.
-/
import FlowGraph.Script.Parser.Cursor

namespace FlowGraph.Script.Parser

/-! ### Checks of forms -/

/-- A form that is never a truth value. -/
def isNeverBool : Expr → Bool
  | .lit (.bool _) => false
  | .lit _ => true
  | .joined _ => true
  | .list _ => true
  | .record _ => true
  | _ => false

/-- An expression that may stand as a condition. -/
def condition (e : Expr) : P Expr := if isNeverBool e then refuse else pure e

/-- An expression that a loop may run over. -/
def iterable (e : Expr) : P Expr :=
  match e with
  | .lit (.str _) => pure e
  | .lit _ => refuse
  | .record _ => refuse
  | e => pure e

/-- The value may be looked into with the key, as far as their forms show. -/
def indexable (root : Expr) (steps : List Step) (key : Expr) : Bool :=
  match key with
  | .lit (.float _) | .lit (.char _) | .lit .unit | .lit (.bool _) => false
  | .and _ _ | .or _ _ => false
  | .lit (.int _) =>
    if steps.isEmpty then
      match root with
      | .record _ | .lit (.float _) | .lit (.char _) | .lit (.bool _) | .lit .unit => false
      | .and _ _ | .or _ _ => false
      | _ => true
    else true
  | .lit (.str _) | .joined _ =>
    if steps.isEmpty then
      match root with
      | .list _ | .joined _ | .lit _ | .and _ _ | .or _ _ => false
      | _ => true
    else true
  | _ => true

mutual

/-- A value that a form stands for without being computed. -/
def literal? : Expr → Option Val
  | .lit v => some v
  | .list items => (literals? items).map .array
  | .record fields => (literalFields? fields).map fun fs => .map (Entries.ofList fs)
  | _ => none

def literals? : List Expr → Option (List Val)
  | [] => some []
  | e :: rest =>
    match literal? e with
    | some v => (literals? rest).map (v :: ·)
    | none => none

def literalFields? : List (String × Expr) → Option (List (String × Val))
  | [] => some []
  | (k, e) :: rest =>
    match literal? e with
    | some v => (literalFields? rest).map ((k, v) :: ·)
    | none => none

end

/-- A chain, or its root alone. -/
def chainOf (root : Expr) (steps : List Step) : Expr :=
  if steps.isEmpty then root else .chain root steps

/-- The form may be assigned to. -/
def checkTarget (e : Expr) : P Unit :=
  match e with
  | .var name => do if ← isConstant name then refuse else return ()
  | .this => pure ()
  | .chain (.var _) steps | .chain .this steps =>
    match steps.getLast? with
    | some (.method _ _ _) => refuse
    | _ => pure ()
  | _ => refuse

/-! ### Operators -/

/-- How tightly an operator binds, and whether it binds to the right. -/
def strength : Token → Option (Nat × Bool)
  | .mark m =>
    match m with
    | "||" | "|" | "^" => some (30, false)
    | "&&" | "&" => some (60, false)
    | "==" | "!=" => some (90, false)
    | "<" | "<=" | ">" | ">=" => some (130, false)
    | "??" => some (135, false)
    | ".." | "..=" => some (140, false)
    | "+" | "-" => some (150, false)
    | "*" | "/" | "%" => some (180, false)
    | "**" => some (190, true)
    | "<<" | ">>" => some (210, false)
    | _ => none
  | .word "in" => some (110, false)
  | _ => none

/-- The operator that comes next: its text, strength and direction. -/
def nextOperator (p : Place) : P (Option (String × Nat × Bool)) := do
  match ← peek with
  | some (.mark "!") =>
    return if (← peekSecond) == some (.word "in") then some ("!in", 110, false) else none
  | some (.mark "|") =>
    return if p.untilBar then none else some ("|", 30, false)
  | some (.mark m) => return (strength (.mark m)).map fun (n, right) => (m, n, right)
  | some (.word w) => return (strength (.word w)).map fun (n, right) => (w, n, right)
  | _ => return none

/-- The form of an operation. -/
def operation (op : String) (a b : Expr) : P Expr :=
  match op with
  | "&&" => do return .and (← condition a) (← condition b)
  | "||" => do return .or (← condition a) (← condition b)
  | "??" => pure (.coalesce a b)
  | "in" => pure (.call "contains" [b, a])
  | "!in" => pure (.call "!" [.call "contains" [b, a]])
  | op => pure (.call op [a, b])

/-- The operators that assign. -/
def assignment? : Token → Option (Option String)
  | .mark "=" => some none
  | .mark m =>
    if ["+=", "-=", "*=", "/=", "%=", "**=", "<<=", ">>=", "&=", "|=", "^="].contains m then
      some (some (m.dropEnd 1).toString)
    else none
  | _ => none

/-- The negative of a literal, or an operation. -/
def negative : Expr → Expr
  | .lit (.int i) => if fits (-i) then .lit (.int (-i)) else .lit (.float (-(Float.ofInt i)))
  | .lit (.float x) => .lit (.float (-x))
  | e => .call "-" [e]

/-- The statement ends with its closing brace. -/
def selfTerminated : Stmt → Bool
  | .branch _ _ _ | .choose _ _ _ | .loop _ _ | .each _ _ _ _ | .scope _ | .guarded _ _ _ => true
  | _ => false

/-- Words set aside that may be called as functions. -/
def callableWords : List String :=
  ["print", "debug", "type_of", "eval", "Fn", "call", "curry", "is_def_var", "is_def_fn",
   "is_shared"]

/-- A range of at most so many integers stands for each of them. -/
def smallRange : Int := 16

/-- The label of a range.  Behind a larger range it is not taken apart. -/
def rangeLabel (seen : Bool) (first last : Int) (inclusive : Bool) : Label :=
  let stop := if inclusive then last + 1 else last
  if stop - first ≤ 0 || (!seen && stop - first ≤ smallRange) then .among first stop
  else .between first last inclusive

/-- The expression of a label of a choice, if it is one.  An integer may not come after a
range that was not taken apart. -/
def label? (seen : Bool) : Expr → Option Label
  | .call ".." [.lit (.int a), .lit (.int b)] => some (rangeLabel seen a b false)
  | .call "..=" [.lit (.int a), .lit (.int b)] => some (rangeLabel seen a b true)
  | .lit (.int i) => if seen then none else some (.value (.int i))
  | e => (literal? e).map .value

/-- There is a range among the labels that was not taken apart. -/
def hasRange (ls : List Label) : Bool :=
  ls.any fun
    | .between _ _ _ => true
    | _ => false

end FlowGraph.Script.Parser
