import FlowGraph.Block.Basic
import FlowGraph.Block.Config
import FlowGraph.Cli.Arguments
import FlowGraph.Cli.Environment
import FlowGraph.Cli.Session
import FlowGraph.Compile.Builder
import FlowGraph.Compile.Program
import FlowGraph.Compile.Wiring
import FlowGraph.Condition.Basic
import FlowGraph.Condition.Loose
import FlowGraph.Decimal.Layout
import FlowGraph.Decimal.Reader
import FlowGraph.Decimal.Shortest
import FlowGraph.Entries
import FlowGraph.Graph.Definition
import FlowGraph.Graph.Kind
import FlowGraph.Journal
import FlowGraph.Json.Document
import FlowGraph.Json.Pretty
import FlowGraph.Json.Printer
import FlowGraph.Json.Reader
import FlowGraph.Json.Value
import FlowGraph.Main
import FlowGraph.Proofs.Compile.Alike
import FlowGraph.Proofs.Compile.Bodies
import FlowGraph.Proofs.Compile.Builder
import FlowGraph.Proofs.Compile.Detour
import FlowGraph.Proofs.Compile.Moments
import FlowGraph.Proofs.Compile.Outcome
import FlowGraph.Proofs.Compile.Passes
import FlowGraph.Proofs.Compile.Program
import FlowGraph.Proofs.Compile.Rewriting
import FlowGraph.Proofs.Compile.Standalone
import FlowGraph.Proofs.Compile.Worklist
import FlowGraph.Proofs.Condition.Chains
import FlowGraph.Proofs.Condition.Loose
import FlowGraph.Proofs.Decimal.Bits
import FlowGraph.Proofs.Decimal.Integers
import FlowGraph.Proofs.Decimal.Numeral
import FlowGraph.Proofs.Decimal.Order
import FlowGraph.Proofs.Decimal.Rounding
import FlowGraph.Proofs.Decimal.Shortest
import FlowGraph.Proofs.Decimal.Sums
import FlowGraph.Proofs.Decimal.Values
import FlowGraph.Proofs.Entries
import FlowGraph.Proofs.Graph.Text
import FlowGraph.Proofs.Json.Legal
import FlowGraph.Proofs.Json.Makes
import FlowGraph.Proofs.Json.Places
import FlowGraph.Proofs.Json.Reads
import FlowGraph.Proofs.Json.Text
import FlowGraph.Proofs.Loading
import FlowGraph.Proofs.Outcome
import FlowGraph.Proofs.Reach
import FlowGraph.Proofs.Run.Acyclic
import FlowGraph.Proofs.Run.Atomicity
import FlowGraph.Proofs.Run.Blame
import FlowGraph.Proofs.Run.Budget
import FlowGraph.Proofs.Run.Changes
import FlowGraph.Proofs.Run.Chronicle
import FlowGraph.Proofs.Run.Composed
import FlowGraph.Proofs.Run.Count
import FlowGraph.Proofs.Run.Detour
import FlowGraph.Proofs.Run.Each
import FlowGraph.Proofs.Run.Execution
import FlowGraph.Proofs.Run.Faults
import FlowGraph.Proofs.Run.Footprint
import FlowGraph.Proofs.Run.Frames
import FlowGraph.Proofs.Run.Indices
import FlowGraph.Proofs.Run.Keeps
import FlowGraph.Proofs.Run.Lists
import FlowGraph.Proofs.Run.Messages
import FlowGraph.Proofs.Run.Missing
import FlowGraph.Proofs.Run.Preserves
import FlowGraph.Proofs.Run.Progress
import FlowGraph.Proofs.Run.Raising
import FlowGraph.Proofs.Run.Settled
import FlowGraph.Proofs.Run.Status
import FlowGraph.Proofs.Run.Steps
import FlowGraph.Proofs.Run.Tasks
import FlowGraph.Proofs.Run.Trail
import FlowGraph.Proofs.Run.Transaction
import FlowGraph.Proofs.Run.Twins
import FlowGraph.Proofs.Run.Unread
import FlowGraph.Proofs.Run.Untouched
import FlowGraph.Proofs.Run.Variables
import FlowGraph.Proofs.Run.Visits
import FlowGraph.Proofs.Script.Asks
import FlowGraph.Proofs.Script.Budgets
import FlowGraph.Proofs.Script.Constants
import FlowGraph.Proofs.Script.Cut
import FlowGraph.Proofs.Script.Points
import FlowGraph.Proofs.Script.Reading
import FlowGraph.Proofs.Script.Values
import FlowGraph.Proofs.Script.Words
import FlowGraph.Proofs.Settings
import FlowGraph.Proofs.Store.Answers
import FlowGraph.Proofs.Store.Bulk
import FlowGraph.Proofs.Store.History
import FlowGraph.Proofs.Store.Identity
import FlowGraph.Proofs.Store.Ids
import FlowGraph.Proofs.Store.Numbering
import FlowGraph.Proofs.Store.Paging
import FlowGraph.Proofs.Store.Reload
import FlowGraph.Proofs.Store.Selection
import FlowGraph.Proofs.Store.Sorting
import FlowGraph.Proofs.Store.Transaction
import FlowGraph.Proofs.Template
import FlowGraph.Proofs.Web.Headers
import FlowGraph.Proofs.Whole
import FlowGraph.Run.Context
import FlowGraph.Run.Execute
import FlowGraph.Run.Output
import FlowGraph.Run.Task
import FlowGraph.Run.Walk
import FlowGraph.Script.Access
import FlowGraph.Script.Arithmetic
import FlowGraph.Script.Choice
import FlowGraph.Script.Eval
import FlowGraph.Script.Evaluation
import FlowGraph.Script.Expr
import FlowGraph.Script.Fault
import FlowGraph.Script.Library
import FlowGraph.Script.Library.Container
import FlowGraph.Script.Library.Number
import FlowGraph.Script.Library.Outcome
import FlowGraph.Script.Library.Text
import FlowGraph.Script.Machine
import FlowGraph.Script.Parser
import FlowGraph.Script.Parser.Cursor
import FlowGraph.Script.Parser.Form
import FlowGraph.Script.Session
import FlowGraph.Script.Token
import FlowGraph.Script.Value
import FlowGraph.Settings
import FlowGraph.Store.Memory
import FlowGraph.Store.Query
import FlowGraph.Template
import FlowGraph.Text.Blank
import FlowGraph.Text.Case
import FlowGraph.Text.CaseTable
import FlowGraph.Text.Quoted
import FlowGraph.Web.Exchange
import FlowGraph.Web.Offline
import FlowGraph.Web.Request
import FlowGraph.Proofs.Run.Renaming
import FlowGraph.Proofs.Compile.Loads
