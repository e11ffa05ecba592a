/-
The program: it reads its arguments, its environment and the files they name, carries out the
order and prints the outcome.
-/
import FlowGraph.Cli.Session
import FlowGraph.Json.Pretty

namespace FlowGraph.Cli

/-- The variables of the environment that have a meaning. -/
def variableNames : List String :=
  ["BLOCKFLOW_VALIDATE_SCHEMAS", "BLOCKFLOW_SCRIPT_MAX_OPERATIONS", "BLOCKFLOW_SCRIPT_MAX_CALL_LEVELS",
   "BLOCKFLOW_SCRIPT_MAX_EXPR_DEPTH", "BLOCKFLOW_OBSERVABILITY_ENABLED", "BLOCKFLOW_OBSERVABILITY",
   "BLOCKFLOW_LOG_LEVEL", "BLOCKFLOW_LOG_FORMAT", "BLOCKFLOW_JSON_LOG_PATH"]

/-- The environment, with what a file of assignments adds to it. -/
def environment : IO (Entries String) := do
  let mut env : Entries String := []
  for name in variableNames do
    if let some text ← IO.getEnv name then env := Entries.insert name text env
  let file ← try some <$> IO.FS.readFile ".env" catch _ => pure none
  return withAssignments file env

/-- Why a file cannot be read. -/
def reason : IO.Error → String
  | .noFileOrDirectory _ _ _ | .noSuchThing _ _ _ => "No such file or directory (os error 2)"
  | .permissionDenied _ _ _ => "Permission denied (os error 13)"
  | .inappropriateType _ _ _ => "Is a directory (os error 21)"
  | e => toString e

/-- The texts of files. -/
def readFiles (paths : List String) : IO Files := do
  let mut texts : List (String × Except String String) := []
  for path in paths do
    let text ← try Except.ok <$> IO.FS.readFile path catch e => pure (.error (reason e))
    texts := (path, text) :: texts
  let found := texts
  return fun path => (found.lookup path).getD (.error "No such file or directory (os error 2)")

/-- A random id for a run. -/
def newRunId : IO String := do
  let mut digits : List Char := []
  for b in (← IO.getRandomBytes 16).toList do
    digits := Nat.digitChar (b.toNat % 16) :: Nat.digitChar (b.toNat / 16) :: digits
  let part (first count : Nat) := String.ofList ((digits.drop first).take count)
  return "-".intercalate [part 0 8, part 8 4, "4" ++ part 13 3, "8" ++ part 17 3, part 20 12]

/-- Write the journal where the environment wants it. -/
def writeJournal (env : Entries String) (journal : Array Journal.Entry) : IO Unit := do
  let text := lines (journalLines env journal)
  match journalFile? env with
  | some path => IO.FS.writeFile path text
  | none => if journalWanted env then IO.eprint text

/-- More steps than a run can take. -/
def runBudget : Nat := 4611686018427387904

end FlowGraph.Cli

open FlowGraph Cli in
def main (words : List String) : IO UInt32 := do
  let order := Order.ofWords words
  let env ← environment
  let files ← readFiles order.paths
  match perform runBudget files env (← newRunId) order with
  | none => return 1
  | some o =>
    writeJournal env o.journal
    if let some text := o.text then IO.print text
    if let some j := o.report then IO.println j.pretty
    if let some f := o.failure then IO.eprintln f.line
    if o.exit = 2 then IO.eprint help
    return o.exit.toUInt32
