/-
What is asked of a database.

A database answers questions about tables of rows, and it is put into and out of
transactions.  Every answer is a JSON value: rows, one row or `null`, or the number of rows
that were touched.
-/
import FlowGraph.Condition.Basic

namespace FlowGraph.Store

/-- A row: the values of its columns. -/
abbrev Row := Entries Json

/-- Whether a transaction is open. -/
inductive Mode where
  | normal
  | transaction
  deriving DecidableEq, Repr

/-- A condition on a column. -/
structure Filter where
  column : String
  operator : Operator
  value : Json
  chain : Chain

inductive Direction where
  | ascending
  | descending
  deriving DecidableEq, Repr

/-- An order of rows by a column. -/
structure SortBy where
  column : String
  direction : Direction
  deriving DecidableEq, Repr

/-- A question to a database. -/
inductive Query where
  | getAll (table : String) (filters : List Filter) (limit offset : Option Nat) (sort : Option SortBy)
  | getSingle (table : String) (filters : List Filter)
  | insert (table : String) (row : Row)
  | insertBulk (table : String) (rows : List Row)
  | update (table : String) (filters : List Filter) (row : Row)
  | delete (table : String) (filters : List Filter)
  /-- A statement in the language of the database. -/
  | raw (statement : String)
  | setMode (mode : Mode)
  | commit
  | rollback

/-- Why a question has no answer. -/
inductive Fault where
  | tableNotFound (table : String)
  | invalidQuery (text : String)
  | transaction (text : String)
  | other (text : String)
  deriving DecidableEq, Repr

/-- The wording of a fault. -/
def Fault.message : Fault → String
  | tableNotFound table => "table not found: " ++ table
  | invalidQuery text => "invalid query: " ++ text
  | transaction text => "transaction error: " ++ text
  | other text => "database error: " ++ text

/-- A database with a state of its own. -/
class Database (δ : Type) where
  answer : Query → δ → Except Fault Json × δ

open Json Reader Record

namespace Mode

def name : Mode → String
  | normal => "NORMAL"
  | transaction => "TRANSACTION"

def reader : Reader Mode := variant [("NORMAL", normal), ("TRANSACTION", transaction)] none

end Mode

namespace Filter

def reader : Reader Filter :=
  Record.reader "DbCondition" <|
    Filter.mk <$> required "attribute" string <*> required "operator" Operator.reader
      <*> withDefault "value" json .null <*> withDefault "chain" Chain.reader .and

def toJson (f : Filter) : Json :=
  Json.object
    [("attribute", .str f.column), ("operator", .str f.operator.name), ("value", f.value),
     ("chain", .str f.chain.name)]

end Filter

namespace Direction

def name : Direction → String
  | ascending => "asc"
  | descending => "desc"

def reader : Reader Direction := variant [("asc", ascending), ("desc", descending)] none

end Direction

namespace SortBy

def reader : Reader SortBy :=
  Record.reader "DbSort" <|
    SortBy.mk <$> required "attribute" string <*> withDefault "direction" Direction.reader .ascending

def toJson (s : SortBy) : Json :=
  Json.object [("attribute", .str s.column), ("direction", .str s.direction.name)]

end SortBy

end FlowGraph.Store
