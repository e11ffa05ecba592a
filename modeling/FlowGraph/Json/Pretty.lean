/-
JSON as text for a reader: every item and every field on a line of its own, two blanks
further in than what it belongs to.  Lists and objects without content stay on one line.
-/
import FlowGraph.Json.Printer

namespace FlowGraph.Json

/-- A line break, and the blanks of a line so deep inside. -/
def lineAt (depth : Nat) : String := "\n" ++ String.ofList (List.replicate (2 * depth) ' ')

mutual

/-- The text of a value that stands so deep inside. -/
def prettyAt (depth : Nat) : Json → String
  | .arr [] => "[]"
  | .obj [] => "\x7b\x7d"
  | .arr items =>
    "[" ++ ",".intercalate (prettyItems (depth + 1) items) ++ lineAt depth ++ "]"
  | .obj fields =>
    "\x7b" ++ ",".intercalate (prettyFields (depth + 1) fields) ++ lineAt depth ++ "\x7d"
  | j => j.compact

def prettyItems (depth : Nat) : List Json → List String
  | [] => []
  | j :: rest => (lineAt depth ++ prettyAt depth j) :: prettyItems depth rest

def prettyFields (depth : Nat) : List (String × Json) → List String
  | [] => []
  | (k, j) :: rest =>
    (lineAt depth ++ stringText k ++ ": " ++ prettyAt depth j) :: prettyFields depth rest

end

/-- The text of a value over several lines. -/
def pretty (j : Json) : String := prettyAt 0 j

end FlowGraph.Json
