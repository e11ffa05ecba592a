/-
Where the reading of a script stands.

The state of the reading is the rest of the words and the names that the function being
read has declared and used.  The place says what surrounds the words: a loop, a function,
brackets, and how deep expressions nest.  Names are kept for two reasons: a constant may
not be assigned to, and a name that a closure uses without declaring it belongs to its
surroundings.
-/
import FlowGraph.Script.Token
import FlowGraph.Script.Expr

namespace FlowGraph.Script.Parser

/-- How far the reading has come. -/
structure State where
  tokens : List Token
  /-- Functions read so far, the latest first. -/
  functions : List Function
  /-- Names declared so far in the function being read, the latest first, and whether
  they are constants. -/
  declared : List (String × Bool)
  /-- Names used in the function being read that it does not declare. -/
  outer : List String
  /-- Closures read so far. -/
  closures : Nat

/-- Where the reading stands in the form of the script. -/
structure Place where
  inLoop : Bool
  inFunction : Bool
  atTop : Bool
  /-- How deep expressions nest here. -/
  level : Nat
  /-- How deep they may nest; zero is no limit. -/
  maxLevel : Nat
  /-- How deep they may nest inside functions. -/
  maxFunctionLevel : Nat
  /-- A bar ends the expression. -/
  untilBar : Bool

abbrev P := StateT State Option

def refuse {α : Type} : P α := fun _ => none

/-- One level deeper. -/
def Place.deeper (p : Place) : P Place :=
  if p.maxLevel = 0 ∨ p.level < p.maxLevel then pure { p with level := p.level + 1 } else refuse

/-- One level deeper, between brackets. -/
def Place.enclosed (p : Place) : P Place := { p with untilBar := false }.deeper

/-- Inside the body of a block. -/
def Place.inner (p : Place) : Place := { p with atTop := false, untilBar := false }

/-- Inside the body of a loop. -/
def Place.looping (p : Place) : Place := { p.inner with inLoop := true }

/-- Inside the body of a function. -/
def Place.function (p : Place) : Place :=
  { inLoop := false, inFunction := true, atTop := false, level := 0,
    maxLevel := p.maxFunctionLevel, maxFunctionLevel := p.maxFunctionLevel, untilBar := false }

/-! ### Words -/

def peek : P (Option Token) := do return (← get).tokens.head?

/-- The word after the next. -/
def peekSecond : P (Option Token) := do return ((← get).tokens.drop 1).head?

def advance : P Unit := modify fun s => { s with tokens := s.tokens.drop 1 }

/-- The next word is the given mark. -/
def atMark (m : String) : P Bool := do return (← peek) == some (.mark m)

/-- The next word is the given word of the language. -/
def atWord (w : String) : P Bool := do return (← peek) == some (.word w)

/-- Take the given mark if it comes next. -/
def takeMark (m : String) : P Bool := do
  if ← atMark m then
    advance
    return true
  else return false

def takeWord (w : String) : P Bool := do
  if ← atWord w then
    advance
    return true
  else return false

def expectMark (m : String) : P Unit := do
  if ← takeMark m then return () else refuse

def expectWord (w : String) : P Unit := do
  if ← takeWord w then return () else refuse

/-- A name that is declared here. -/
def expectName : P String := do
  match ← peek with
  | some (.ident name) =>
    advance
    return name
  | _ => refuse

/-! ### Names -/

def declare (name : String) (constant : Bool) : P Unit :=
  modify fun s => { s with declared := (name, constant) :: s.declared }

/-- Read something, and forget the names that it declared. -/
def locally {α : Type} (p : P α) : P α := do
  let before := (← get).declared
  let a ← p
  modify fun s => { s with declared := before }
  return a

/-- Note the use of a name. -/
def useName (name : String) : P Unit := do
  let s ← get
  if (s.declared.lookup name).isSome || s.outer.contains name
      || s.functions.any (·.name = name) then return ()
  else set { s with outer := s.outer ++ [name] }

/-- The name is a constant declared here. -/
def isConstant (name : String) : P Bool := do
  return ((← get).declared.lookup name).getD false

/-- Define a function; one name and number of parameters only once. -/
def define (f : Function) : P Unit := do
  let s ← get
  if s.functions.any fun g => g.name = f.name && g.params.length = f.params.length then refuse
  else set { s with functions := f :: s.functions }

end FlowGraph.Script.Parser
