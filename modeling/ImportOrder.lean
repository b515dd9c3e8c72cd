import ImportOrder.Check
import ImportOrder.CheckLog
import ImportOrder.Clock
import ImportOrder.Code.Collect
import ImportOrder.Code.Expression
import ImportOrder.Code.Lexeme
import ImportOrder.Code.Module
import ImportOrder.Code.Parse
import ImportOrder.Code.Pattern
import ImportOrder.Code.Reader
import ImportOrder.Code.Token
import ImportOrder.Command.Arguments
import ImportOrder.Command.Run
import ImportOrder.Command.Usage
import ImportOrder.Configuration.Error
import ImportOrder.Defaults
import ImportOrder.Edit
import ImportOrder.FileTree
import ImportOrder.Host
import ImportOrder.Json
import ImportOrder.Libraries
import ImportOrder.LineIndex
import ImportOrder.Main
import ImportOrder.Members
import ImportOrder.Number.Binary64
import ImportOrder.Number.Decimal
import ImportOrder.Order
import ImportOrder.Order.DynamicKeys
import ImportOrder.Path
import ImportOrder.Pattern
import ImportOrder.Placement
import ImportOrder.Policy
import ImportOrder.Project
import ImportOrder.Proofs.Buckets
import ImportOrder.Proofs.CheckCommand
import ImportOrder.Proofs.CleanOrder
import ImportOrder.Proofs.CollectedSpans
import ImportOrder.Proofs.DefaultsCache
import ImportOrder.Proofs.Directories
import ImportOrder.Proofs.Document
import ImportOrder.Proofs.EarlierReports
import ImportOrder.Proofs.EarliestMinimum
import ImportOrder.Proofs.EditsInTurn
import ImportOrder.Proofs.FileVisits
import ImportOrder.Proofs.Files
import ImportOrder.Proofs.FixRun
import ImportOrder.Proofs.ImportTokens
import ImportOrder.Proofs.KnownLines
import ImportOrder.Proofs.LeadingMove
import ImportOrder.Proofs.LetterImports
import ImportOrder.Proofs.LineCover
import ImportOrder.Proofs.Lines
import ImportOrder.Proofs.LogLines
import ImportOrder.Proofs.MemberOrder
import ImportOrder.Proofs.MixedBreaks
import ImportOrder.Proofs.OrderedPass
import ImportOrder.Proofs.OtherLines
import ImportOrder.Proofs.Pass
import ImportOrder.Proofs.PassLimit
import ImportOrder.Proofs.Passes
import ImportOrder.Proofs.PerStatement
import ImportOrder.Proofs.Placeholders
import ImportOrder.Proofs.Placements
import ImportOrder.Proofs.PolicySchema
import ImportOrder.Proofs.ProjectLoading
import ImportOrder.Proofs.ReaderSteps
import ImportOrder.Proofs.Rearrangement
import ImportOrder.Proofs.ReportDirection
import ImportOrder.Proofs.ReportOrder
import ImportOrder.Proofs.ReportedPositions
import ImportOrder.Proofs.Reports
import ImportOrder.Proofs.SortKey
import ImportOrder.Proofs.Sorting
import ImportOrder.Proofs.Splice
import ImportOrder.Proofs.StableSort
import ImportOrder.Proofs.StatementLines
import ImportOrder.Proofs.StrictChecks
import ImportOrder.Proofs.Targets
import ImportOrder.Proofs.Termination
import ImportOrder.Proofs.Ties
import ImportOrder.Proofs.TokenLines
import ImportOrder.Proofs.TokenPositions
import ImportOrder.Proofs.UnusedTokens
import ImportOrder.Regex
import ImportOrder.Regex.Error
import ImportOrder.Regex.Expr
import ImportOrder.Regex.Parser
import ImportOrder.Regex.Search
import ImportOrder.Report
import ImportOrder.Settings
import ImportOrder.Sha256
import ImportOrder.Statement
import ImportOrder.Template
import ImportOrder.Text
import ImportOrder.Text.Blank
import ImportOrder.Text.CharacterName
import ImportOrder.Text.Identifier
import ImportOrder.Text.LowerCase
import ImportOrder.Text.Numeral
import ImportOrder.Text.Printable
import ImportOrder.Text.Quoted
import ImportOrder.Text.Ranges
import ImportOrder.Text.Word
import ImportOrder.Value
import ImportOrder.Value.Date
import ImportOrder.Violation
import ImportOrder.Yaml
import ImportOrder.Yaml.Cursor
import ImportOrder.Yaml.Layout
import ImportOrder.Yaml.Node
import ImportOrder.Yaml.Scalar
import ImportOrder.Yaml.Token
