import ContentSearch.Calendar.Date
import ContentSearch.Calendar.Reader
import ContentSearch.CommandLine.Arguments
import ContentSearch.CommandLine.Grammar
import ContentSearch.CommandLine.Options
import ContentSearch.CommandLine.Report
import ContentSearch.CommandLine.Run
import ContentSearch.Config.Basic
import ContentSearch.Config.Decode
import ContentSearch.Config.Failure
import ContentSearch.Config.FieldSpec
import ContentSearch.Content.Activity
import ContentSearch.Content.BlogPost
import ContentSearch.Content.Project
import ContentSearch.Dictionary
import ContentSearch.Engine
import ContentSearch.Failure
import ContentSearch.Fault
import ContentSearch.Field.Searchable
import ContentSearch.Field.Value
import ContentSearch.Files.Folder
import ContentSearch.Files.System
import ContentSearch.Highlight.Compiler
import ContentSearch.Highlight.Excerpt
import ContentSearch.Highlight.Folded
import ContentSearch.Highlight.Mark
import ContentSearch.Highlight.Pattern
import ContentSearch.Highlight.Segment
import ContentSearch.History.Basic
import ContentSearch.History.Entry
import ContentSearch.History.Recorder
import ContentSearch.Index.Basic
import ContentSearch.Index.Entry
import ContentSearch.Index.Json
import ContentSearch.Json.Basic
import ContentSearch.Json.Decode
import ContentSearch.Json.Number
import ContentSearch.Json.Printer
import ContentSearch.Json.Reader
import ContentSearch.Main
import ContentSearch.Match.EditDistance
import ContentSearch.Match.Fuzzy
import ContentSearch.Number.Binary
import ContentSearch.Number.Format
import ContentSearch.Number.Reading
import ContentSearch.Number.Scalar
import ContentSearch.Number.Shortest
import ContentSearch.Number.Word
import ContentSearch.Query.Basic
import ContentSearch.Query.Parser
import ContentSearch.Query.Printer
import ContentSearch.Search.FieldMatch
import ContentSearch.Search.Ranking
import ContentSearch.Search.Score
import ContentSearch.Search.Selection
import ContentSearch.Store.Basic
import ContentSearch.Store.FileName
import ContentSearch.Store.FolderStore
import ContentSearch.Store.Opening
import ContentSearch.Store.Outage
import ContentSearch.Text.AlphanumericTable
import ContentSearch.Text.Basic
import ContentSearch.Text.Case
import ContentSearch.Text.CaseTable
import ContentSearch.Text.Ranges
import ContentSearch.Text.Whitespace
import ContentSearch.Text.WordBreakTable
import ContentSearch.Text.Words
import ContentSearch.Proofs.Query.WellFormed
import ContentSearch.Proofs.Query.RoundTrip
import ContentSearch.Proofs.Query.Requests
import ContentSearch.Proofs.Text.Boundaries
import ContentSearch.Proofs.Highlight.Origins
import ContentSearch.Proofs.Highlight.Segments
import ContentSearch.Proofs.Highlight.Excerpts
import ContentSearch.Proofs.Highlight.Windows
import ContentSearch.Proofs.Search.Selection
import ContentSearch.Proofs.Config.Validation
import ContentSearch.Proofs.Search.Scoring
import ContentSearch.Proofs.Json.Numbers
import ContentSearch.Proofs.Json.RoundTrip
import ContentSearch.Proofs.Search.Ranking
import ContentSearch.Proofs.Json.Ranges
import ContentSearch.Proofs.History.Encoding
import ContentSearch.Proofs.History.Tidy
import ContentSearch.Proofs.Store.Lawful
import ContentSearch.Proofs.History.Recency
import ContentSearch.Proofs.History.Settling
import ContentSearch.Proofs.History.Tasks
import ContentSearch.Proofs.History.Protocol
import ContentSearch.Proofs.Search.Narrowing
import ContentSearch.Proofs.Search.Verbatim
import ContentSearch.Proofs.Store.FileNames
import ContentSearch.Proofs.Store.Mirroring
import ContentSearch.Proofs.Number.Laws
import ContentSearch.Proofs.Search.Itemwise
import ContentSearch.Proofs.Match.Distances
import ContentSearch.Proofs.Search.Tolerance
import ContentSearch.Proofs.Search.Perfect
import ContentSearch.Proofs.Number.Rounding
import ContentSearch.Proofs.Number.Unpacked
import ContentSearch.Proofs.Number.Operations
import ContentSearch.Proofs.Number.Single
import ContentSearch.Proofs.Number.Sums
import ContentSearch.Proofs.Engine
import ContentSearch.Proofs.Match.Alignments
import ContentSearch.Proofs.Match.Table
import ContentSearch.Proofs.Search.Completion
import ContentSearch.Proofs.Highlight.Occurrences
import ContentSearch.Proofs.Text.Words
import ContentSearch.Proofs.Match.Nearest
import ContentSearch.Proofs.Match.Symmetry
import ContentSearch.Proofs.Match.Ideal
import ContentSearch.Proofs.Search.Misspelt
import ContentSearch.Proofs.Highlight.Scan
import ContentSearch.Proofs.Highlight.Coverage
import ContentSearch.Proofs.Search.Shown
import ContentSearch.Proofs.Search.Ellipses
import ContentSearch.Proofs.Config.Names
import ContentSearch.Proofs.Search.Evidence
import ContentSearch.Proofs.Search.Overflow
import ContentSearch.Proofs.Search.Filtering
import ContentSearch.Proofs.History.Digest
import ContentSearch.Proofs.History.Removal
import ContentSearch.Proofs.Store.Durable
import ContentSearch.Proofs.History.Losses
import ContentSearch.Proofs.Query.Merging
import ContentSearch.Proofs.Highlight.Answers
import ContentSearch.Proofs.Highlight.Brackets
import ContentSearch.Proofs.Index.Structure
