/-
The kinds of blocks.

A kind has one name, which is written in a graph and shown in messages.  Three kinds own
a body: a part of the graph that they run, entered over their `executor` slot.
-/
import FlowGraph.Json.Reader

namespace FlowGraph

/-- What a block does. -/
inductive Kind where
  | entrypoint
  | code
  | branch
  | count
  | each
  | transaction
  | setVar
  | getVar
  | transformer
  | arrayOps
  | dbGetAll
  | dbGetSingle
  | dbInsert
  | dbInsertBulk
  | dbUpdate
  | dbDelete
  | dbRaw
  | httpRequest
  | getHeader
  | setHeader
  | getCookie
  | setCookie
  | getParam
  | getBody
  | response
  | logger
  | interceptor
  deriving DecidableEq, Repr

namespace Kind

def name : Kind → String
  | entrypoint => "entrypoint"
  | code => "code"
  | branch => "if"
  | count => "for"
  | each => "forEach"
  | transaction => "transaction"
  | setVar => "setVar"
  | getVar => "getVar"
  | transformer => "transformer"
  | arrayOps => "arrayOps"
  | dbGetAll => "db.getAll"
  | dbGetSingle => "db.getSingle"
  | dbInsert => "db.insert"
  | dbInsertBulk => "db.insertBulk"
  | dbUpdate => "db.update"
  | dbDelete => "db.delete"
  | dbRaw => "db.raw"
  | httpRequest => "httpRequest"
  | getHeader => "http.getHeader"
  | setHeader => "http.setHeader"
  | getCookie => "http.getCookie"
  | setCookie => "http.setCookie"
  | getParam => "http.getParam"
  | getBody => "http.getBody"
  | response => "response"
  | logger => "consoleLogger"
  | interceptor => "interceptor"

/-- All kinds, in the order in which messages list them. -/
def all : List Kind :=
  [entrypoint, code, branch, count, each, transaction, setVar, getVar, transformer, arrayOps,
   dbGetAll, dbGetSingle, dbInsert, dbInsertBulk, dbUpdate, dbDelete, dbRaw, httpRequest,
   getHeader, setHeader, getCookie, setCookie, getParam, getBody, response, logger, interceptor]

def reader : Json.Reader Kind := Json.Reader.variant (all.map fun k => (k.name, k)) none

/-- The kind owns a body. -/
def hasBody : Kind → Bool
  | count | each | transaction => true
  | _ => false

end Kind

end FlowGraph
