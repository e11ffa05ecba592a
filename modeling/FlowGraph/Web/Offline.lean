/-
A client without a network.

No call is ever answered.  A call that no client could make, because its address or one of
its headers is not well formed, is told apart from one that finds nobody.
-/
import FlowGraph.Web.Exchange

namespace FlowGraph

/-- A client without a network. -/
structure Offline where

namespace Offline

/-- The scheme of an address, and what follows the colon. -/
def scheme? (url : String) : Option (String × List Char) :=
  match (Text.trim url).toList with
  | c :: cs =>
    let (name, rest) := (c :: cs).span fun c => c.isAlphanum || c = '+' || c = '-' || c = '.'
    match rest with
    | ':' :: rest => if c.isAlpha then some (String.ofList (name.map Char.toLower), rest) else none
    | _ => none
  | [] => none

/-- The address as it is shown: host in lower case, and a path. -/
def shown (scheme : String) (rest : List Char) : Option String :=
  let body := rest.dropWhile fun c => c = '/' || c = '\\'
  let (host, tail) := body.span fun c => c ≠ '/' && c ≠ '?' && c ≠ '#' && c ≠ '\\'
  if host.isEmpty then none
  else
    let path := if tail.head? = some '/' then tail else '/' :: tail
    some (scheme ++ "://" ++ String.ofList (host.map Char.toLower) ++ String.ofList path)

/-- The name of a header is well formed. -/
def isHeaderName (name : String) : Bool :=
  !name.isEmpty &&
    name.toList.all fun c => c.isAlphanum || "!#$%&'*+-.^_\x60|~".toList.contains c

/-- The value of a header is well formed. -/
def isHeaderValue (value : String) : Bool :=
  value.toList.all fun c => c = '\t' || (0x20 ≤ c.toNat && c.toNat ≠ 0x7F)

/-- Why a call is not answered. -/
def fault (c : Call) : CallFault :=
  let unfit := c.headers.any fun h => !isHeaderName h.1 || !isHeaderValue h.2
  match scheme? c.url with
  | none => .transport "builder error"
  | some (scheme, rest) =>
    if scheme = "http" || scheme = "https" then
      match shown scheme rest with
      | none => .transport "builder error"
      | some url =>
        if unfit then .transport "builder error"
        else .transport ("error sending request for url (" ++ url ++ ")")
    else if unfit then .transport "builder error"
    else .transport ("builder error for url (" ++ c.url ++ ")")

instance : Client Offline := ⟨fun c client => (.error (fault c), client)⟩

end Offline

end FlowGraph
