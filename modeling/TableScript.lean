import TableScript.Aggregate
import TableScript.Command.Basic
import TableScript.Command.Perform
import TableScript.Command.Task
import TableScript.Decimal
import TableScript.Document.Basic
import TableScript.Document.Merge
import TableScript.Document.Script
import TableScript.Error
import TableScript.Event
import TableScript.Execution.Context
import TableScript.Execution.Machine
import TableScript.Execution.Run
import TableScript.Files.Basic
import TableScript.Files.Snapshot
import TableScript.Grammar.Basic
import TableScript.Grammar.Statement
import TableScript.Grammar.Trace
import TableScript.Json.Reader
import TableScript.Json.Value
import TableScript.Json.Writer
import TableScript.Listing
import TableScript.Main
import TableScript.OrderedMap
import TableScript.Proofs.Document.Codec
import TableScript.Proofs.Document.Combine
import TableScript.Proofs.Document.Draft
import TableScript.Proofs.Document.Expectations
import TableScript.Proofs.Document.Faithful
import TableScript.Proofs.Document.LastWord
import TableScript.Proofs.Document.Listing
import TableScript.Proofs.Document.Lowering
import TableScript.Proofs.Document.Meaning
import TableScript.Proofs.Document.Overlay
import TableScript.Proofs.Document.Reading
import TableScript.Proofs.Document.Remaining
import TableScript.Proofs.Document.Script
import TableScript.Proofs.Document.Sections
import TableScript.Proofs.Except
import TableScript.Proofs.Execution.DataError
import TableScript.Proofs.Execution.KeyOrder
import TableScript.Proofs.Execution.Numbers
import TableScript.Proofs.Execution.Outline
import TableScript.Proofs.Execution.Partial
import TableScript.Proofs.Execution.Resolution
import TableScript.Proofs.Execution.RowOrder
import TableScript.Proofs.Grammar.Continuation
import TableScript.Proofs.Grammar.Cut
import TableScript.Proofs.Grammar.Edges
import TableScript.Proofs.Grammar.Language
import TableScript.Proofs.Grammar.Lookahead
import TableScript.Proofs.Grammar.Normal
import TableScript.Proofs.Grammar.Plain
import TableScript.Proofs.Grammar.Spelling
import TableScript.Proofs.Grammar.Statement
import TableScript.Proofs.Grammar.WellFormed
import TableScript.Proofs.Grammar.Written
import TableScript.Proofs.Json.RoundTrip
import TableScript.Proofs.Map.Sorted
import TableScript.Proofs.Registry.Session
import TableScript.Proofs.Registry.Usage
import TableScript.Proofs.Table.Accumulation
import TableScript.Proofs.Table.Exchange
import TableScript.Proofs.Table.Inclusion
import TableScript.Proofs.Table.Join
import TableScript.Proofs.Table.Select
import TableScript.Proofs.Text.Numeral
import TableScript.Proofs.Tree.Absorption
import TableScript.Proofs.Tree.Associativity
import TableScript.Proofs.Tree.Path
import TableScript.Proofs.Tree.Standing
import TableScript.Proofs.Tree.Transform
import TableScript.Registry.Directory
import TableScript.Registry.Memory
import TableScript.Rule
import TableScript.Script
import TableScript.SortedMap
import TableScript.Statement
import TableScript.Table.Basic
import TableScript.Table.Join
import TableScript.Text.Basic
import TableScript.Text.Cluster.Basic
import TableScript.Text.Cluster.Class
import TableScript.Text.Erasing
import TableScript.Text.Extending
import TableScript.Text.Quoted
import TableScript.Tree.Basic
import TableScript.Tree.Json
import TableScript.Tree.Path
import TableScript.Tree.Shape
