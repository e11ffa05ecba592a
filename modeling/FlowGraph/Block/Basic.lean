/-
Blocks that are ready to run.

A block knows its id, its settings and its successors.  Most blocks do one thing and go on
to one successor.  A choice has two successors.  A loop or a transaction has a body: blocks
of its own with one where the body starts.
-/
import FlowGraph.Block.Config

namespace FlowGraph

/-- What a block with one successor does. -/
inductive Task where
  | entrypoint
  | code (c : CodeConfig)
  | setVar (c : SetVarConfig)
  | getVar (c : GetVarConfig)
  | transformer (c : TransformerConfig)
  | list (c : ListConfig)
  | store (action : StoreAction) (c : StoreConfig)
  | call (c : CallConfig)
  | read (part : RequestPart) (c : ReadConfig)
  | setHeader (c : HeaderConfig)
  | setCookie (c : CookieConfig)
  | response (c : ResponseConfig)
  | logger (c : LoggerConfig)
  | interceptor (c : InterceptorConfig)

/-- How a body is run. -/
inductive Frame where
  | count (c : CountConfig)
  | each (c : EachConfig)
  | transaction

/-- A block. -/
inductive Block where
  | task (id : String) (next : Option String) (t : Task)
  | branch (id : String) (c : BranchConfig) (onSuccess onFailure : Option String)
  /-- A loop or a transaction; its body is an entry and blocks under their ids. -/
  | nested (id : String) (next : Option String) (frame : Frame)
      (body : Option (String × List (String × Block)))

def Task.kind : Task → Kind
  | entrypoint => .entrypoint
  | code _ => .code
  | setVar _ => .setVar
  | getVar _ => .getVar
  | transformer _ => .transformer
  | list _ => .arrayOps
  | store action _ => action.kind
  | call _ => .httpRequest
  | read part _ => part.kind
  | setHeader _ => .setHeader
  | setCookie _ => .setCookie
  | response _ => .response
  | logger _ => .logger
  | interceptor _ => .interceptor

def Frame.kind : Frame → Kind
  | count _ => .count
  | each _ => .each
  | transaction => .transaction

namespace Block

def id : Block → String
  | task id _ _ | branch id _ _ _ | nested id _ _ _ => id

def kind : Block → Kind
  | task _ _ t => t.kind
  | branch _ _ _ _ => .branch
  | nested _ _ frame _ => frame.kind

end Block

/-- Blocks under their ids. -/
abbrev BlockMap := Entries Block

end FlowGraph
