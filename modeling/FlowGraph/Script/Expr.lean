/-
The form of scripts.

An expression that reaches into a value, `a.b[i].f(x)`, is a root with a chain of steps.
The same form is the target of an assignment, where the root has to be a variable.

A closure is a function of its own, whose first parameters are the outer variables that
it uses.  Where the closure is made, those variables become shared.
-/
import FlowGraph.Script.Value

namespace FlowGraph.Script

/-- What a case of a choice covers. -/
inductive Label where
  | value (v : Val)
  /-- Each of the integers from the first up to and without the last. -/
  | among (first last : Int)
  /-- Every number from the first up to the last. -/
  | between (first last : Int) (inclusive : Bool)

mutual

inductive Expr where
  | lit (v : Val)
  /-- Texts and expressions joined to one string. -/
  | joined (parts : List Expr)
  | list (items : List Expr)
  | record (fields : List (String × Expr))
  | var (name : String)
  /-- The value a function was called on. -/
  | this
  | and (a b : Expr)
  | or (a b : Expr)
  /-- The first, or the second if the first is the unit. -/
  | coalesce (a b : Expr)
  /-- A function by its name, or an operator. -/
  | call (name : String) (args : List Expr)
  | chain (root : Expr) (steps : List Step)
  | block (body : List Stmt)
  | closure (name : String) (outer : List String)

/-- One step into a value.  With `safe`, a unit ends the chain. -/
inductive Step where
  | property (name : String) (safe : Bool)
  | index (key : Expr) (safe : Bool)
  | method (name : String) (args : List Expr) (safe : Bool)

inductive Stmt where
  | nothing
  | expr (e : Expr)
  | declare (name : String) (constant : Bool) (value : Expr)
  /-- Assign to a target, with the operator of `+=` and its like. -/
  | assign (target : Expr) (op : Option String) (value : Expr)
  | branch (guard : Expr) (body other : List Stmt)
  | choose (subject : Expr) (cases : List Case) (other : Option Stmt)
  /-- Loop while the guard holds, or forever. -/
  | loop (guard : Option Expr) (body : List Stmt)
  /-- Run the body, and again as long as the guard has the wanted value. -/
  | again (body : List Stmt) (guard : Expr) (wanted : Bool)
  | each (var : String) (counter : Option String) (source : Expr) (body : List Stmt)
  | scope (body : List Stmt)
  | leave (value : Option Expr)
  | skip
  | give (value : Option Expr)
  | raise (value : Option Expr)
  | guarded (body : List Stmt) (caught : Option String) (handler : List Stmt)

/-- A case of a choice: the values it covers, a condition, and what to do. -/
inductive Case where
  | mk (labels : List Label) (condition : Option Expr) (action : Stmt)

end

instance : Inhabited Expr := ⟨.lit .unit⟩
instance : Inhabited Stmt := ⟨.nothing⟩

/-- A function of a script. -/
structure Function where
  name : String
  params : List String
  body : List Stmt
  /-- Made by a closure. -/
  anonymous : Bool

/-- How deep the expressions of a script may nest, outside and inside of functions; zero
is no limit. -/
structure Depths where
  outside : Nat
  inside : Nat

/-- A script: what it does, and the functions it defines. -/
structure Program where
  body : List Stmt
  functions : List Function

end FlowGraph.Script
