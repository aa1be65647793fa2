import CodeGrade.Catalog
import CodeGrade.Category
import CodeGrade.CommandLine.Command
import CodeGrade.CommandLine.Help
import CodeGrade.CommandLine.Options
import CodeGrade.CommandLine.Suggestion
import CodeGrade.Config.Basic
import CodeGrade.Config.File
import CodeGrade.Config.Problem
import CodeGrade.Config.Resolution
import CodeGrade.Config.Validation
import CodeGrade.Decimal.Binary64
import CodeGrade.Decimal.Format
import CodeGrade.Decimal.Reader
import CodeGrade.Decimal.Shortest
import CodeGrade.Evaluation
import CodeGrade.FileTree.Basic
import CodeGrade.FileTree.Path
import CodeGrade.FileTree.Walk
import CodeGrade.Issue
import CodeGrade.Json.Basic
import CodeGrade.Json.Parser
import CodeGrade.Json.Printer
import CodeGrade.LineNumber
import CodeGrade.Log
import CodeGrade.Moment
import CodeGrade.Paint
import CodeGrade.Proofs.Building
import CodeGrade.Proofs.Blocks
import CodeGrade.Proofs.Containment
import CodeGrade.Proofs.Forest
import CodeGrade.Proofs.Lexeme
import CodeGrade.Proofs.Lines
import CodeGrade.Proofs.Masking
import CodeGrade.Proofs.OffSide
import CodeGrade.Proofs.Opacity
import CodeGrade.Proofs.Placing
import CodeGrade.Proofs.Statements
import CodeGrade.Report.Analysis
import CodeGrade.Report.Bar
import CodeGrade.Report.Basic
import CodeGrade.Report.Console
import CodeGrade.Report.Files
import CodeGrade.Report.Markdown
import CodeGrade.Rule.Basic
import CodeGrade.Rule.Builtin
import CodeGrade.Rule.Call
import CodeGrade.Rule.Documentation
import CodeGrade.Rule.Duplication
import CodeGrade.Rule.Handling
import CodeGrade.Rule.Injection
import CodeGrade.Rule.Loop
import CodeGrade.Rule.Naming
import CodeGrade.Rule.Resource
import CodeGrade.Rule.Secret
import CodeGrade.Rule.Size
import CodeGrade.Rule.Style
import CodeGrade.Scan
import CodeGrade.Score.Arithmetic
import CodeGrade.Score.Basic
import CodeGrade.Score.Verdict
import CodeGrade.Severity
import CodeGrade.Source.Fault
import CodeGrade.Source.Header
import CodeGrade.Source.Keyword
import CodeGrade.Source.Mask
import CodeGrade.Source.Metrics
import CodeGrade.Source.Outline
import CodeGrade.Source.Parameter
import CodeGrade.Source.Scope
import CodeGrade.Source.Statement
import CodeGrade.Source.Unit
import CodeGrade.Text.Blank
import CodeGrade.Text.CaseIgnorable
import CodeGrade.Text.Cased
import CodeGrade.Text.CodeRange
import CodeGrade.Text.Escape
import CodeGrade.Text.LowerCase
import CodeGrade.Text.Search
import CodeGrade.Text.Units
import CodeGrade.Text.Utf8
import CodeGrade.Text.Word
import CodeGrade.Main
import CodeGrade.Proofs.Brackets
import CodeGrade.Proofs.Reading
import CodeGrade.Proofs.SinglePass
import CodeGrade.Proofs.Faults
import CodeGrade.Proofs.MatchLines
import CodeGrade.Proofs.Shifting
import CodeGrade.Proofs.Concatenation
import CodeGrade.Proofs.Accepting
import CodeGrade.Proofs.ReportOrder
import CodeGrade.Proofs.ExactScore
import CodeGrade.Proofs.ExactValue
import CodeGrade.Proofs.Independence
import CodeGrade.Proofs.Deterioration
import CodeGrade.Proofs.Gate
import CodeGrade.Proofs.Packing
import CodeGrade.Proofs.Defined
import CodeGrade.Proofs.Consistency
import CodeGrade.Proofs.Rejection
import CodeGrade.Proofs.Revalidation
import CodeGrade.Proofs.HeaderForm
import CodeGrade.Proofs.Balance
import CodeGrade.Proofs.Offences
import CodeGrade.Proofs.ParameterLists
import CodeGrade.Proofs.Relabelling
import CodeGrade.Proofs.Reindenting
import CodeGrade.Proofs.Insertion
import CodeGrade.Proofs.ControlBlocks
import CodeGrade.Proofs.Cutting
import CodeGrade.Proofs.Signatures
import CodeGrade.Proofs.Nesting
import CodeGrade.Proofs.Splicing
import CodeGrade.Proofs.TypeParameters
import CodeGrade.Proofs.Squeezing
import CodeGrade.Proofs.Decisions
import CodeGrade.Proofs.Respacing
import CodeGrade.Proofs.Neighbours
import CodeGrade.Proofs.Tally
import CodeGrade.Proofs.Renaming
import CodeGrade.Proofs.UnitOrder
import CodeGrade.Proofs.Paths
import CodeGrade.Proofs.Collecting
import CodeGrade.Proofs.Repetition
import CodeGrade.Proofs.CommentLines
import CodeGrade.Proofs.Rounding
import CodeGrade.Proofs.Cells
import CodeGrade.Proofs.Numerals
import CodeGrade.Proofs.Rendering
import CodeGrade.Proofs.SummaryTable
import CodeGrade.Proofs.Wording
import CodeGrade.Proofs.IssueTable
import CodeGrade.Proofs.Colours
import CodeGrade.Proofs.LineEnds
import CodeGrade.Proofs.FormatLists
import CodeGrade.Proofs.TabStops
