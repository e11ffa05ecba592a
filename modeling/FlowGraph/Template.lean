/-
Values that are computed.

A string that begins with `js:` stands for the value of the script behind the prefix;
every other value stands for itself.  What runs the script is left open: it is a function
into some monad, and a failure of it is a failure of the whole.

`resolve` looks at the value alone, `resolveDeep` also at everything inside.  Lists are
walked from their first item, objects in the order of their fields, so of two failing
scripts the first in that order decides.
-/
import FlowGraph.Json.Value

namespace FlowGraph.Template

/-- The script that a text holds, if the mark `js:` is in front of it. -/
def scriptText? (s : String) : Option String :=
  match s.toList with
  | 'j' :: 's' :: ':' :: code => some (String.ofList code)
  | _ => none

/-- The script that a value holds, if it does. -/
def script? : Json → Option String
  | .str s => scriptText? s
  | _ => none

/-- A script with its mark taken off, if it has one. -/
def unmarked (s : String) : String := (scriptText? s).getD s

variable {m : Type → Type} [Monad m]

/-- The value that a value stands for. -/
def resolve (run : String → m Json) (j : Json) : m Json :=
  match script? j with
  | some code => run code
  | none => pure j

mutual

/-- The value that a value stands for, and so for everything inside. -/
def resolveDeep (run : String → m Json) : Json → m Json
  | .arr items => do return .arr (← resolveItems run items)
  | .obj fields => do return .obj (← resolveFields run fields)
  | j => resolve run j

def resolveItems (run : String → m Json) : List Json → m (List Json)
  | [] => pure []
  | j :: rest => do
    let v ← resolveDeep run j
    return v :: (← resolveItems run rest)

def resolveFields (run : String → m Json) : List (String × Json) → m (List (String × Json))
  | [] => pure []
  | (k, j) :: rest => do
    let v ← resolveDeep run j
    return (k, v) :: (← resolveFields run rest)

end

end FlowGraph.Template
