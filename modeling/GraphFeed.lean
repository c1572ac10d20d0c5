import GraphFeed.Batch
import GraphFeed.Command
import GraphFeed.CommandLine.Argument
import GraphFeed.CommandLine.Flag
import GraphFeed.CommandLine.Program
import GraphFeed.CommandLine.Request
import GraphFeed.Digest.Sha1
import GraphFeed.Error
import GraphFeed.FileTree
import GraphFeed.Graph.Call
import GraphFeed.Graph.Connection
import GraphFeed.Host
import GraphFeed.Instruction.Basic
import GraphFeed.Instruction.Lexeme
import GraphFeed.Instruction.Parsing
import GraphFeed.Instruction.Quotation
import GraphFeed.Instruction.Reading
import GraphFeed.Instruction.Tree
import GraphFeed.Log
import GraphFeed.Main
import GraphFeed.Number.Basic
import GraphFeed.Number.Binary64
import GraphFeed.Number.Shortest
import GraphFeed.Proofs.Acceptance
import GraphFeed.Proofs.Balance
import GraphFeed.Proofs.Batches
import GraphFeed.Proofs.CommandBackslashes
import GraphFeed.Proofs.CommandEnd
import GraphFeed.Proofs.Conclusion
import GraphFeed.Proofs.Connections
import GraphFeed.Proofs.Courses
import GraphFeed.Proofs.Cutting
import GraphFeed.Proofs.Echo
import GraphFeed.Proofs.Edits
import GraphFeed.Proofs.Effort
import GraphFeed.Proofs.EscapedCommand
import GraphFeed.Proofs.Fallback
import GraphFeed.Proofs.Fates
import GraphFeed.Proofs.Feeding
import GraphFeed.Proofs.FieldReading
import GraphFeed.Proofs.FirstFailure
import GraphFeed.Proofs.Grammar
import GraphFeed.Proofs.GrammarCompleteness
import GraphFeed.Proofs.GrammarSoundness
import GraphFeed.Proofs.Guarding
import GraphFeed.Proofs.Layering
import GraphFeed.Proofs.MissingValues
import GraphFeed.Proofs.Nesting
import GraphFeed.Proofs.NumberPattern
import GraphFeed.Proofs.Operations
import GraphFeed.Proofs.Outlines
import GraphFeed.Proofs.PhaseOrder
import GraphFeed.Proofs.PrintedAnswers
import GraphFeed.Proofs.Processors
import GraphFeed.Proofs.Protocol
import GraphFeed.Proofs.Provenance
import GraphFeed.Proofs.QueryText
import GraphFeed.Proofs.QuotedField
import GraphFeed.Proofs.Rebatching
import GraphFeed.Proofs.Rejoining
import GraphFeed.Proofs.Shielding
import GraphFeed.Proofs.Simulation
import GraphFeed.Proofs.SpellingReading
import GraphFeed.Proofs.Splicing
import GraphFeed.Proofs.Stability
import GraphFeed.Proofs.StatementReading
import GraphFeed.Proofs.Streaming
import GraphFeed.Proofs.Substitution
import GraphFeed.Proofs.Transaction
import GraphFeed.Proofs.Unquoting
import GraphFeed.Proofs.Verdict
import GraphFeed.Record
import GraphFeed.Run.Basic
import GraphFeed.Run.Plan
import GraphFeed.Run.State
import GraphFeed.Settings.Basic
import GraphFeed.Settings.Load
import GraphFeed.Shell.Arithmetic
import GraphFeed.Shell.Builtin
import GraphFeed.Shell.Evaluation
import GraphFeed.Shell.Expansion
import GraphFeed.Shell.Format
import GraphFeed.Shell.Lexeme
import GraphFeed.Shell.Pattern
import GraphFeed.Shell.Reading
import GraphFeed.Shell.Runner
import GraphFeed.Shell.Script
import GraphFeed.Shell.Session
import GraphFeed.Shell.Tool
import GraphFeed.Span
import GraphFeed.Statement.Basic
import GraphFeed.Statement.Clause
import GraphFeed.Template.Brace
import GraphFeed.Template.Buffer
import GraphFeed.Template.Calm
import GraphFeed.Template.Expansion
import GraphFeed.Template.Field
import GraphFeed.Template.Filling
import GraphFeed.Template.Happening
import GraphFeed.Template.Neighbours
import GraphFeed.Template.Search
import GraphFeed.Template.Sweep
import GraphFeed.Text.Basic
import GraphFeed.Text.Blank
import GraphFeed.Text.Digit
import GraphFeed.Text.Line
import GraphFeed.Text.Printable
import GraphFeed.Text.Quoted
import GraphFeed.Text.Upper
import GraphFeed.Text.Utf8
import GraphFeed.Value.Basic
import GraphFeed.Value.Json
import GraphFeed.Value.Literal
import GraphFeed.Yaml.Document
import GraphFeed.Yaml.Node
import GraphFeed.Yaml.Place
import GraphFeed.Yaml.Scalar
import GraphFeed.Yaml.Written
