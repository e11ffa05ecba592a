/-
The request that a run answers, and the answer it builds.

A header is found whatever the case of its letters; cookies and parameters are found by
their exact names.  The answer starts empty and is filled piece by piece.
-/
import FlowGraph.Json.Reader

namespace FlowGraph

/-- The route on which a graph is mounted. -/
structure Route where
  id : String := ""
  method : String := ""
  path : String := ""

/-- A request as it came in. -/
structure Request where
  headers : Entries String := []
  cookies : Entries String := []
  /-- Parameters in the path. -/
  params : Entries String := []
  query : Entries String := []
  body : Json := .null

/-- A cookie of the answer. -/
structure Cookie where
  value : String
  options : Json

/-- The answer as far as it is known. -/
structure Response where
  status : Option Nat := none
  headers : Entries String := []
  cookies : Entries Cookie := []
  body : Option Json := none

/-- A table of texts as a value. -/
def textsToJson (es : Entries String) : Json := .obj (Entries.mapValues Json.str es)

open Json Reader Record

def Route.reader : Reader Route :=
  Record.reader "RouteMeta" <|
    Route.mk <$> withDefault "id" string "" <*> withDefault "method" string ""
      <*> withDefault "path" string ""

def Route.toJson (r : Route) : Json :=
  Json.object [("id", .str r.id), ("method", .str r.method), ("path", .str r.path)]

namespace Request

def reader : Reader Request :=
  Record.reader "RequestData" <|
    Request.mk <$> withDefault "headers" (table string) [] <*> withDefault "cookies" (table string) []
      <*> withDefault "params" (table string) [] <*> withDefault "query" (table string) []
      <*> withDefault "body" json .null

def toJson (r : Request) : Json :=
  Json.object
    [("headers", textsToJson r.headers), ("cookies", textsToJson r.cookies),
     ("params", textsToJson r.params), ("query", textsToJson r.query), ("body", r.body)]

/-- Equal up to the case of ASCII letters. -/
def sameName (a b : String) : Bool := a.toList.map Char.toLower == b.toList.map Char.toLower

/-- The value of a header. -/
def header (r : Request) (name : String) : Option String :=
  (List.find? (fun e => sameName e.1 name) r.headers).map Prod.snd

end Request

def Cookie.reader : Reader Cookie :=
  Record.reader "CookieSpec" <|
    Cookie.mk <$> required "value" string <*> withDefault "options" json .null

def Cookie.toJson (c : Cookie) : Json :=
  Json.object <|
    ("value", .str c.value) :: (if c.options.isNull then [] else [("options", c.options)])

namespace Response

/-- The greatest number of a status. -/
def maxStatus : Nat := 65535

def reader : Reader Response :=
  Record.reader "ResponseState" <|
    Response.mk <$> nullable "status" (natural "u16" maxStatus) <*> required "headers" (table string)
      <*> required "cookies" (table Cookie.reader) <*> nullable "body" json

def toJson (r : Response) : Json :=
  Json.object
    [("status", (r.status.map Json.nat).getD .null), ("headers", textsToJson r.headers),
     ("cookies", .obj (Entries.mapValues Cookie.toJson r.cookies)), ("body", r.body.getD .null)]

end Response

end FlowGraph
