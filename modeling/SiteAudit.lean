import SiteAudit.Braces
import SiteAudit.Check.All
import SiteAudit.Check.Basic
import SiteAudit.Check.Contract
import SiteAudit.Check.Legacy
import SiteAudit.Check.Manifests
import SiteAudit.Check.Marker
import SiteAudit.Check.Overrides
import SiteAudit.Check.RemoteLoader
import SiteAudit.Config
import SiteAudit.Config.File
import SiteAudit.Discovery
import SiteAudit.FileTree
import SiteAudit.Finding
import SiteAudit.Glob
import SiteAudit.Json.Reader
import SiteAudit.Json.Value
import SiteAudit.Lines
import SiteAudit.Namespace
import SiteAudit.Notice
import SiteAudit.Number.Binary64
import SiteAudit.Number.Numeral
import SiteAudit.Number.Shortest
import SiteAudit.Package
import SiteAudit.Path
import SiteAudit.Regex
import SiteAudit.Replacement
import SiteAudit.Run
import SiteAudit.Text.Alphanumeric
import SiteAudit.Text.Base64
import SiteAudit.Text.Basic
import SiteAudit.Text.Digit
import SiteAudit.Text.LowerCase
import SiteAudit.Text.Printable
import SiteAudit.Text.Quoted
import SiteAudit.Text.Utf8
import SiteAudit.Yaml.Construction
import SiteAudit.Yaml.Cursor
import SiteAudit.Yaml.Document
import SiteAudit.Yaml.Error
import SiteAudit.Yaml.Event
import SiteAudit.Yaml.Graph
import SiteAudit.Yaml.Lexeme
import SiteAudit.Yaml.Mark
import SiteAudit.Yaml.Memory
import SiteAudit.Yaml.Outline
import SiteAudit.Yaml.Tag
import SiteAudit.Yaml.Timestamp
import SiteAudit.Yaml.Token
import SiteAudit.Yaml.Tokens
import SiteAudit.Codemod
import SiteAudit.Report
import SiteAudit.Result
import SiteAudit.Upgrade
import SiteAudit.Json.Shown
import SiteAudit.Json.Schema
import SiteAudit.Result.Schema
import SiteAudit.Datum
import SiteAudit.CommandLine.Option
import SiteAudit.CommandLine.Argument
import SiteAudit.CommandLine.Invocation
import SiteAudit.CommandLine.Help
import SiteAudit.CommandLine.Session
import SiteAudit.Main
import SiteAudit.Proofs.Text
import SiteAudit.Proofs.Matching
import SiteAudit.Proofs.Pass
import SiteAudit.Proofs.Seam
import SiteAudit.Proofs.Run
import SiteAudit.Proofs.Sorting
import SiteAudit.Proofs.Yaml.Memory
import SiteAudit.Proofs.Completion
import SiteAudit.Proofs.Header
import SiteAudit.Proofs.Insertion
import SiteAudit.Proofs.InsertedText
import SiteAudit.Proofs.StepwiseInsertion
import SiteAudit.Proofs.SafeReplacements
import SiteAudit.Proofs.Linewise
import SiteAudit.Proofs.Firing
import SiteAudit.Proofs.Markers
import SiteAudit.Proofs.Remains
import SiteAudit.Proofs.Transform
import SiteAudit.Proofs.LineEnds
import SiteAudit.Proofs.Utf8
import SiteAudit.Proofs.FileTree
import SiteAudit.Proofs.WellFormed
import SiteAudit.Proofs.Discovery
import SiteAudit.Proofs.Sources
import SiteAudit.Proofs.Codemod
import SiteAudit.Proofs.ToldChanges
import SiteAudit.Proofs.Catalogs
import SiteAudit.Proofs.Audit
import SiteAudit.Proofs.Preview
import SiteAudit.Proofs.SecondPass
import SiteAudit.Proofs.LineFindings
import SiteAudit.Proofs.ByteLines
import SiteAudit.Proofs.MarkedLines
import SiteAudit.Proofs.Schema
import SiteAudit.Proofs.Checks
import SiteAudit.Proofs.Reports
import SiteAudit.Proofs.Order
import SiteAudit.Proofs.CheckRuns
import SiteAudit.Proofs.RemoteLoading
import SiteAudit.Proofs.Findings
import SiteAudit.Proofs.FailedUpgrade
import SiteAudit.Proofs.Agreement
import SiteAudit.Proofs.Repetition
import SiteAudit.Proofs.Reasons
import SiteAudit.Proofs.ReportLines
import SiteAudit.Proofs.Session
import SiteAudit.Proofs.Outputs
import SiteAudit.Proofs.Acceptance
import SiteAudit.Proofs.Arguments
import SiteAudit.Proofs.DirectUse
import SiteAudit.Proofs.JsonReading
import SiteAudit.Proofs.CanonicalDocuments
import SiteAudit.Proofs.Relocation
import SiteAudit.Proofs.Candidates
import SiteAudit.Proofs.MovedSites
import SiteAudit.Proofs.Yaml.Steps
import SiteAudit.Proofs.Yaml.Parsing
import SiteAudit.Proofs.Yaml.Atoms
import SiteAudit.Proofs.Yaml.Construction
import SiteAudit.Proofs.Yaml.Reading
import SiteAudit.Proofs.Yaml.Lexing
import SiteAudit.Proofs.Contract
import SiteAudit.Proofs.ConfigTransform
import SiteAudit.Proofs.Yaml.Wholeness
import SiteAudit.Proofs.Yaml.Outline
import SiteAudit.Proofs.ContractCompletion
import SiteAudit.Proofs.RepeatedCompletion
import SiteAudit.Proofs.Braces
import SiteAudit.Proofs.RepeatedReplacement
import SiteAudit.Proofs.Languages
import SiteAudit.Proofs.AcceptedResults
import SiteAudit.Proofs.Manifests
