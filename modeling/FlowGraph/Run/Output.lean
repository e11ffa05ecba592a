/-
How blocks and runs end.

A block that did its work gives an output and names its successor.  A block may also fail:
then a run ends with it, unless the output says that it may go on.  And a block may raise an
error, which ends every run around it.
-/
import FlowGraph.Json.Reader
import FlowGraph.Script.Evaluation
import FlowGraph.Store.Query
import FlowGraph.Web.Exchange

namespace FlowGraph

/-- What a block hands on. -/
structure Output where
  successful : Bool
  continueIfFail : Bool
  next : Option String
  output : Option Json
  error : Option String

namespace Output

/-- The work is done. -/
def success (next : Option String) (output : Json) : Output := ⟨true, true, next, some output, none⟩

/-- The block failed, and the run with it. -/
def failure (error : String) : Output := ⟨false, false, none, none, some error⟩

/-- The run ends with this output. -/
def isFatal (o : Output) : Bool := !o.successful && !o.continueIfFail

open Json Reader Record

def reader : Reader Output :=
  Record.reader "BlockOutput" <|
    Output.mk <$> required "successful" boolean <*> required "continueIfFail" boolean
      <*> withDefault "next" string.option none <*> withDefault "output" json.option none
      <*> withDefault "error" string.option none

/-- A field that is left out if it is not there. -/
def optional (name : String) (v : Option Json) : List (String × Json) :=
  match v with
  | some v => [(name, v)]
  | none => []

def toJson (o : Output) : Json :=
  Json.object <|
    [("successful", Json.bool o.successful), ("continueIfFail", Json.bool o.continueIfFail)] ++
      optional "next" (o.next.map Json.str) ++ optional "output" o.output ++
      optional "error" (o.error.map Json.str)

end Output

mutual

/-- What a block raises. -/
inductive BlockError where
  | script (f : Script.Failure)
  | store (f : Store.Fault)
  | call (f : CallFault)
  /-- A run inside of the block ended with an error. -/
  | run (e : RunError)
  | other (text : String)

/-- Why a run has no output. -/
inductive RunError where
  | blockNotFound (id : String)
  | raised (id : String) (e : BlockError)
  | failed (id text : String)

end

mutual

/-- The wording of an error that a block raises. -/
def BlockError.message : BlockError → String
  | .script f => f.message
  | .store f => f.message
  | .call f => f.message
  | .run e => "nested run failed: " ++ e.message
  | .other text => "block error: " ++ text

/-- The wording of an error that ends a run. -/
def RunError.message : RunError → String
  | .blockNotFound id => "block not found: " ++ id
  | .raised id e => "block " ++ id ++ " raised an error: " ++ e.message
  | .failed id text => "block " ++ id ++ " failed: " ++ text

end

/-- The block that is to blame, the innermost one. -/
def RunError.blockId : RunError → String
  | .blockNotFound id => id
  | .raised _ (.run e) => e.blockId
  | .raised id _ => id
  | .failed id _ => id

end FlowGraph
