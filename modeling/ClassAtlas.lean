import ClassAtlas.Command.Arguments
import ClassAtlas.Command.Options
import ClassAtlas.Command.Run
import ClassAtlas.Decimal.Shortest
import ClassAtlas.Diagram.Cell
import ClassAtlas.Diagram.Render
import ClassAtlas.Extraction.Cache
import ClassAtlas.Extraction.Coordinator
import ClassAtlas.Extraction.Dialect
import ClassAtlas.Extraction.Digest
import ClassAtlas.Extraction.Extract
import ClassAtlas.Files.Change
import ClassAtlas.Files.Disk
import ClassAtlas.Files.Edit
import ClassAtlas.Files.Walk
import ClassAtlas.Glob.Match
import ClassAtlas.Glob.Pattern
import ClassAtlas.Grammar.CharSet
import ClassAtlas.Grammar.JavaScript
import ClassAtlas.Grammar.Lookahead
import ClassAtlas.Grammar.Productions
import ClassAtlas.Grammar.Regex
import ClassAtlas.Grammar.Rule
import ClassAtlas.Grammar.TypeScript
import ClassAtlas.Json.Basic
import ClassAtlas.Json.Fault
import ClassAtlas.Json.Printer
import ClassAtlas.Json.Reader
import ClassAtlas.Json.Relaxed
import ClassAtlas.Json.Tagged
import ClassAtlas.Json.Typed
import ClassAtlas.Lexing.Layout
import ClassAtlas.Lexing.Nfa
import ClassAtlas.Lexing.Scanner
import ClassAtlas.Live.Call
import ClassAtlas.Live.Http
import ClassAtlas.Live.Hub
import ClassAtlas.Live.Mailbox
import ClassAtlas.Live.Message
import ClassAtlas.Live.Registry
import ClassAtlas.Live.Service
import ClassAtlas.Live.Table
import ClassAtlas.Main
import ClassAtlas.Model.Basic
import ClassAtlas.Model.Declarations
import ClassAtlas.Parsing.Automaton
import ClassAtlas.Parsing.Engine
import ClassAtlas.Parsing.Parser
import ClassAtlas.Parsing.Recovery
import ClassAtlas.Parsing.Stack
import ClassAtlas.Parsing.Subtree
import ClassAtlas.Parsing.View
import ClassAtlas.Path
import ClassAtlas.Pipeline.Basic
import ClassAtlas.Pipeline.Pass
import ClassAtlas.Pipeline.Trigger
import ClassAtlas.Project.Descriptor
import ClassAtlas.Project.Selection
import ClassAtlas.Settings
import ClassAtlas.Syntax.Classes
import ClassAtlas.Syntax.Tree
import ClassAtlas.Text.Blank
import ClassAtlas.Text.Percent
import ClassAtlas.Text.Quoted
import ClassAtlas.Text.Search
import ClassAtlas.Text.Shown
import ClassAtlas.Text.Split
import ClassAtlas.Toml.Basic
import ClassAtlas.Toml.Document
import ClassAtlas.Toml.Reader
import ClassAtlas.Version
import ClassAtlas.Watch.Filter
import ClassAtlas.Watch.Watcher
import ClassAtlas.Proofs.Extraction.Memory
import ClassAtlas.Proofs.Extraction.History
import ClassAtlas.Proofs.Project.Distinct
import ClassAtlas.Proofs.Pipeline.Convergence
import ClassAtlas.Proofs.Live.Staleness
import ClassAtlas.Proofs.Live.Operations
import ClassAtlas.Proofs.Live.Rooms
import ClassAtlas.Proofs.Live.FanOut
import ClassAtlas.Proofs.Live.Traffic
import ClassAtlas.Proofs.Live.Freshness
import ClassAtlas.Proofs.Pipeline.Coalescing
import ClassAtlas.Proofs.Live.Station
import ClassAtlas.Proofs.Files.Walk
import ClassAtlas.Proofs.Files.Lookup
import ClassAtlas.Proofs.Path
import ClassAtlas.Proofs.Project.Selection
import ClassAtlas.Proofs.Project.Spelling
import ClassAtlas.Proofs.Json.Reading
import ClassAtlas.Proofs.Json.Relaxed
import ClassAtlas.Proofs.Diagram.Lines
import ClassAtlas.Proofs.Diagram.Reading
import ClassAtlas.Proofs.Extraction.Locality
import ClassAtlas.Proofs.Extraction.Entries
import ClassAtlas.Proofs.Live.Registry
import ClassAtlas.Proofs.Live.Overlap
import ClassAtlas.Proofs.Command.Agreement
import ClassAtlas.Proofs.Syntax.Nodes
import ClassAtlas.Proofs.Syntax.Faults
import ClassAtlas.Proofs.Syntax.Attribution
import ClassAtlas.Proofs.Syntax.Returns
import ClassAtlas.Proofs.Syntax.Shapes
import ClassAtlas.Proofs.Live.Deliveries
import ClassAtlas.Proofs.Extraction.Edges
import ClassAtlas.Proofs.Syntax.Overloads
import ClassAtlas.Proofs.Syntax.Comments
import ClassAtlas.Proofs.Extraction.Dialects
import ClassAtlas.Proofs.Json.Skipping
import ClassAtlas.Proofs.Json.Tagged
import ClassAtlas.Proofs.Live.Wire
import ClassAtlas.Proofs.Files.Canonical
import ClassAtlas.Proofs.Watch.Filter
import ClassAtlas.Proofs.Glob.Directory
import ClassAtlas.Proofs.Project.Directories
import ClassAtlas.Proofs.Path.Spellings
import ClassAtlas.Proofs.Extraction.Recall
