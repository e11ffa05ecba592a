/-
Calls to other servers.

A client answers a call with a response or with a fault.  A status is never a fault: what
it means is left to the caller.
-/
import FlowGraph.Json.Reader

namespace FlowGraph

/-- The method of a call. -/
inductive Method where
  | get
  | post
  | put
  | patch
  | delete
  deriving DecidableEq, Repr

/-- A call. -/
structure Call where
  method : Method
  url : String
  headers : Entries String
  body : Option Json

/-- What a server answered. -/
structure Reply where
  data : Json
  status : Nat

/-- Why there is no answer. -/
inductive CallFault where
  | transport (text : String)
  | decode (text : String)
  deriving DecidableEq, Repr

/-- The wording of a fault. -/
def CallFault.message : CallFault → String
  | transport text => "http transport error: " ++ text
  | decode text => "http response decode error: " ++ text

/-- A client with a state of its own. -/
class Client (χ : Type) where
  answer : Call → χ → Except CallFault Reply × χ

open Json Reader Record

namespace Method

def name : Method → String
  | get => "GET"
  | post => "POST"
  | put => "PUT"
  | patch => "PATCH"
  | delete => "DELETE"

def all : List Method := [get, post, put, patch, delete]

def reader : Reader Method := variant (all.map fun m => (m.name, m)) none

/-- A call with the method sends a body. -/
def sendsBody : Method → Bool
  | get | delete => false
  | post | put | patch => true

end Method

namespace Reply

def reader : Reader Reply :=
  Record.reader "HttpResponse" <|
    Reply.mk <$> required "data" json <*> required "status" (natural "u16" 65535)

def toJson (r : Reply) : Json := Json.object [("data", r.data), ("status", Json.nat r.status)]

end Reply

/-- A call of a method.  What the method does not send is left out. -/
def Call.ofMethod (m : Method) (url : String) (headers : Entries String) (body : Option Json) : Call :=
  ⟨m, url, headers, if m.sendsBody then body else none⟩

/-- The content of a response: nothing, or one JSON document, or else the text itself. -/
def decodeBody (text : String) : Json :=
  if text.isEmpty then .null else (Json.parse nestingLimit text).toOption.getD (.str text)

/-- The host in a text that should be an address: what stands between the scheme and the
first slash. -/
def urlHost? (url : String) : Option String :=
  let rest := match url.splitOn "://" with
    | _ :: second :: _ => second
    | _ => url
  match rest.splitOn "/" with
  | host :: _ => if (Text.trim host).isEmpty then none else some (Text.trim host)
  | [] => none

end FlowGraph
