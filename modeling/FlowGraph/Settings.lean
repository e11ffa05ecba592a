/-
Settings of the program.

The settings have defaults and can be overridden by variables of the environment.  An
override that cannot be read is left out, and the journal says so.
-/
import FlowGraph.Journal
import FlowGraph.Script.Evaluation

namespace FlowGraph

/-- The greatest number of 64 bits. -/
def maxNat64 : Nat := 18446744073709551615

structure Settings where
  /-- Check the settings of each block when a graph is compiled. -/
  validate : Bool := true
  limits : Script.Limits := {}

open Json Reader Record

/-- A number, or nothing. -/
def natToJson (n : Option Nat) : Json := (n.map Json.nat).getD .null

def limitsReader : Reader Script.Limits :=
  Record.reader "ScriptLimits" <|
    Script.Limits.mk <$> withDefault "maxOperations" (natural "u64" maxNat64).option (some 1000000)
      <*> withDefault "maxCallLevels" (natural "usize" maxNat64).option none
      <*> withDefault "maxExprDepth" (natural "usize" maxNat64).option none

def limitsToJson (l : Script.Limits) : Json :=
  Json.object
    [("maxOperations", natToJson l.maxOperations), ("maxCallLevels", natToJson l.maxCallLevels),
     ("maxExprDepth", natToJson l.maxExprDepth)]

namespace Settings

def reader : Reader Settings :=
  Record.reader "RuntimeConfig" <|
    Settings.mk <$> withDefault "validateSchemas" boolean true <*> withDefault "script" limitsReader {}

def toJson (s : Settings) : Json :=
  Json.object [("validateSchemas", .bool s.validate), ("script", limitsToJson s.limits)]

/-- A word for yes or no, in any case, with blanks around it. -/
def flag? (text : String) : Option Bool :=
  let word := String.ofList ((Text.trim text).toList.map Char.toLower)
  if ["1", "true", "yes", "on", "enabled"].contains word then some true
  else if ["0", "false", "no", "off", "disabled"].contains word then some false
  else none

/-- A number of 64 bits, with blanks around it. -/
def natural64? (text : String) : Option Nat :=
  (Decimal.nat? (Text.trim text)).filter fun n => n ≤ maxNat64

/-- Take a variable of the environment into account: what it sets, or that it is ignored. -/
def override {α : Type} (env : Entries String) (key : String) (read : String → Option α)
    (set : α → Settings → Settings) (s : Settings × List Event) : Settings × List Event :=
  match Entries.find? key env with
  | none => s
  | some text =>
    match read text with
    | some a => (set a s.1, s.2)
    | none => (s.1, s.2 ++ [.settingIgnored key text])

/-- The settings under an environment, and the variables that were ignored. -/
def ofEnvironment (env : Entries String) : Settings × List Event :=
  let limit (set : Nat → Script.Limits → Script.Limits) (n : Nat) (s : Settings) : Settings :=
    { s with limits := set n s.limits }
  ({}, [])
    |> override env "BLOCKFLOW_VALIDATE_SCHEMAS" flag? (fun b s => { s with validate := b })
    |> override env "BLOCKFLOW_SCRIPT_MAX_OPERATIONS" natural64?
        (limit fun n l => { l with maxOperations := some n })
    |> override env "BLOCKFLOW_SCRIPT_MAX_CALL_LEVELS" natural64?
        (limit fun n l => { l with maxCallLevels := some n })
    |> override env "BLOCKFLOW_SCRIPT_MAX_EXPR_DEPTH" natural64?
        (limit fun n l => { l with maxExprDepth := some n })

end Settings

end FlowGraph
