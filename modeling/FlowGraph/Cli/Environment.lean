/-
The environment of the command line.

Variables come from the environment and from a file of assignments, one a line.  The file
never overrides the environment, and of several assignments of one variable the first one
counts.  A line that cannot be read ends the file.

An assignment is `NAME=value`, perhaps after `export`.  In the value single quotes keep
everything, double quotes keep blanks, and a backslash keeps the next character.  A name after
a dollar sign, perhaps between braces, stands for the value of that variable.  A comment begins
with `#` after a blank.
-/
import FlowGraph.Settings

namespace FlowGraph.Cli

/-- How a value is read: the quotes that are open, and what was seen last. -/
inductive Quoting where
  | plain
  | single
  | double
  deriving DecidableEq

def isLineBlank (c : Char) : Bool := c = ' ' || c = '\t'

/-- The value of a variable that a text names. -/
def lookup (env : Entries String) (name : List Char) : List Char :=
  ((Entries.find? (String.ofList name.reverse) env).getD "").toList

/-- After the end of a value only a comment may follow. -/
def endsLine (cs : List Char) : Bool :=
  match cs.dropWhile isLineBlank with
  | [] => true
  | c :: _ => c = '#'

mutual

/-- Read a value; `acc` is what was read, the last character first. -/
def readValue (env : Entries String) : Nat → Quoting → List Char → List Char → Option String
  | 0, _, _, _ => none
  | _ + 1, .plain, acc, [] => some (String.ofList acc.reverse)
  | _ + 1, _, _, [] => none
  | fuel + 1, .single, acc, c :: rest =>
    if c = '\'' then readValue env fuel .plain acc rest else readValue env fuel .single (c :: acc) rest
  | fuel + 1, q, acc, '$' :: rest => readName env fuel q acc [] rest
  | fuel + 1, q, acc, '\\' :: c :: rest =>
    if ['\\', '\'', '"', '$', ' '].contains c then readValue env fuel q (c :: acc) rest
    else if c = 'n' then readValue env fuel q ('\n' :: acc) rest
    else none
  | fuel + 1, .double, acc, c :: rest =>
    if c = '"' then readValue env fuel .plain acc rest else readValue env fuel .double (c :: acc) rest
  | fuel + 1, .plain, acc, c :: rest =>
    if c = '\'' then readValue env fuel .single acc rest
    else if c = '"' then readValue env fuel .double acc rest
    else if isLineBlank c then
      if endsLine rest then some (String.ofList acc.reverse) else none
    else readValue env fuel .plain (c :: acc) rest

/-- Read the name after a dollar sign. -/
def readName (env : Entries String) : Nat → Quoting → List Char → List Char → List Char → Option String
  | 0, _, _, _, _ => none
  | fuel + 1, q, acc, [], '{' :: rest => readBraced env fuel q acc [] rest
  | fuel + 1, q, acc, name, cs =>
    match cs with
    | c :: rest =>
      if c.isAlphanum then readName env fuel q acc (c :: name) rest
      else if c = '$' then readName env fuel q ((lookup env name).reverse ++ acc) [] rest
      else readValue env fuel q (c :: ((lookup env name).reverse ++ acc)) rest
    | [] => readValue env fuel q ((lookup env name).reverse ++ acc) []

/-- Read a name up to the closing brace. -/
def readBraced (env : Entries String) : Nat → Quoting → List Char → List Char → List Char → Option String
  | 0, _, _, _, _ => none
  | _ + 1, _, _, _, [] => none
  | fuel + 1, q, acc, name, c :: rest =>
    if c = '}' then readValue env fuel q ((lookup env name).reverse ++ acc) rest
    else readBraced env fuel q acc (c :: name) rest

end

/-- The name that an assignment begins with, and what follows it. -/
def readKey (cs : List Char) : Option (String × List Char) :=
  match cs with
  | c :: _ =>
    if c.isAlpha || c = '_' then
      let (name, rest) := cs.span fun c => c.isAlphanum || c = '_' || c = '.'
      some (String.ofList name, rest.dropWhile isLineBlank)
    else none
  | [] => none

/-- A line: nothing, or an assignment.  No result means that it cannot be read. -/
def readLine (env : Entries String) (line : String) : Option (Option (String × String)) :=
  let cs := (Text.trim line).toList
  match cs with
  | [] => some none
  | '#' :: _ => some none
  | cs => do
    let (key, rest) ← readKey cs
    let (key, rest) ← match key, rest with
      | "export", '=' :: _ => some (key, rest)
      | "export", rest => readKey rest
      | _, _ => some (key, rest)
    match rest with
    | '=' :: value =>
      let text := value.dropWhile isLineBlank
      let v ← readValue env (2 * text.length + 2) .plain [] text
      return some (key, v)
    | _ => none

/-- Add the assignments of lines to an environment. -/
def addLines (env : Entries String) : List String → Entries String
  | [] => env
  | line :: rest =>
    match readLine env line with
    | none => env
    | some none => addLines env rest
    | some (some (key, value)) => addLines (Entries.insertNew key value env) rest

/-- The environment with the assignments of a file. -/
def withAssignments (file : Option String) (env : Entries String) : Entries String :=
  match file with
  | some text => addLines env (text.splitOn "\n")
  | none => env

/-! ### Where the journal goes -/

/-- The journal is wanted at all. -/
def journalWanted (env : Entries String) : Bool :=
  match Entries.find? "BLOCKFLOW_OBSERVABILITY_ENABLED" env, Entries.find? "BLOCKFLOW_OBSERVABILITY" env with
  | some text, _ | none, some text => (Settings.flag? text).getD true
  | none, none => true

/-- The path of the journal.  Where a path names no file, the journal has a name of its own. -/
def journalPath (path : String) : String :=
  let parts := (path.splitOn "/").filter fun p => !p.isEmpty && p ≠ "."
  match parts.getLast? with
  | none | some ".." => "/".intercalate (parts.dropLast ++ ["blockflow.logs.jsonl"])
  | some _ => "/".intercalate parts

/-- The file that the journal is written to. -/
def journalFile? (env : Entries String) : Option String :=
  if journalWanted env then (Entries.find? "BLOCKFLOW_JSON_LOG_PATH" env).map journalPath else none

/-- How important an event has to be for the journal, if the environment says so. -/
def journalLevel (env : Entries String) : Level :=
  let word := (Entries.find? "BLOCKFLOW_LOG_LEVEL" env).map fun s => s.toList.map Char.toLower
  (Level.all.find? fun l => word == some l.name.toList).getD .info

/-- The rank of a level, the most important one last. -/
def rank : Level → Nat
  | .debug => 0
  | .info => 1
  | .warn => 2
  | .error => 3

/-- The lines of the journal that are important enough. -/
def journalLines (env : Entries String) (journal : Array Journal.Entry) : List String :=
  ((journal.toList.filter fun e => rank (journalLevel env) ≤ rank e.event.level).map fun e => e.toJson.compact)

end FlowGraph.Cli
