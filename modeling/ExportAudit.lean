import ExportAudit.Analysis
import ExportAudit.Association
import ExportAudit.ClassComponent
import ExportAudit.CommandLine
import ExportAudit.CommandLine.Arguments
import ExportAudit.Diagnostic
import ExportAudit.Edit
import ExportAudit.Export
import ExportAudit.Export.Binding
import ExportAudit.Failure
import ExportAudit.Graph
import ExportAudit.Graph.UsageIndex
import ExportAudit.Json.Binary64
import ExportAudit.Json.Reader
import ExportAudit.Json.Relaxed
import ExportAudit.Json.Relaxed.Comment
import ExportAudit.Json.Relaxed.TrailingComma
import ExportAudit.Json.Value
import ExportAudit.Label
import ExportAudit.Main
import ExportAudit.Module
import ExportAudit.Module.Load
import ExportAudit.OrderedSet
import ExportAudit.Path
import ExportAudit.Pattern.Expansion
import ExportAudit.Pattern.Wide
import ExportAudit.Pattern.Wildcard
import ExportAudit.Project
import ExportAudit.Project.Config
import ExportAudit.Reference
import ExportAudit.Reference.Classification
import ExportAudit.Reference.Namespace
import ExportAudit.Report
import ExportAudit.Report.Group
import ExportAudit.Report.Icon
import ExportAudit.Report.Markup
import ExportAudit.Report.Record
import ExportAudit.Resolver
import ExportAudit.Settings
import ExportAudit.Settings.Assignment
import ExportAudit.Settings.Environment
import ExportAudit.Settings.Interpolation
import ExportAudit.Snapshot
import ExportAudit.Store
import ExportAudit.StrictOrder
import ExportAudit.Syntax.Node
import ExportAudit.Syntax.Traversal
import ExportAudit.Text.Blank
import ExportAudit.Text.Cased
import ExportAudit.Text.Integer
import ExportAudit.Text.Letter
import ExportAudit.Text.Line
import ExportAudit.Text.Printable
import ExportAudit.Text.Quoted
import ExportAudit.Text.Run
import ExportAudit.Text.Utf8
import ExportAudit.Text.Wide
import ExportAudit.Text.Width
import ExportAudit.UnusedExport
import ExportAudit.UnusedLocal
import ExportAudit.Usage
import ExportAudit.Proofs.Graph.Building
import ExportAudit.Proofs.Graph.Settling
import ExportAudit.Proofs.Graph.Derivation
import ExportAudit.Proofs.Failure.Propagation
import ExportAudit.Proofs.Pattern.Stopping
import ExportAudit.Proofs.Pattern.Wide
import ExportAudit.Proofs.Reference.Locating
import ExportAudit.Proofs.Analysis.Sections
import ExportAudit.Proofs.Project.Reading
import ExportAudit.Proofs.Analysis.Halting
import ExportAudit.Proofs.Analysis.Usage
import ExportAudit.Proofs.Analysis.Direct
import ExportAudit.Proofs.Syntax.Walk
import ExportAudit.Proofs.Analysis.Warnings
import ExportAudit.Proofs.Analysis.StaticImport
import ExportAudit.Proofs.Analysis.CallImport
import ExportAudit.Proofs.Failure.Agreement
import ExportAudit.Proofs.Graph.Comparison
import ExportAudit.Proofs.Analysis.Additions
import ExportAudit.Proofs.Analysis.Policies
import ExportAudit.Proofs.Analysis.Versions
import ExportAudit.Proofs.Analysis.Isolation
import ExportAudit.Proofs.Graph.Rounds
import ExportAudit.Proofs.Project.Inheritance
import ExportAudit.Proofs.Json.Stripping
import ExportAudit.Proofs.Pattern.Following
import ExportAudit.Proofs.Pattern.Reaching
import ExportAudit.Proofs.Pattern.Excluding
import ExportAudit.Proofs.Edit.Replacement
import ExportAudit.Proofs.UnusedLocal.Proposal
import ExportAudit.Proofs.UnusedLocal.Removal
import ExportAudit.Proofs.Report.Listing
import ExportAudit.Proofs.Report.Fallback
import ExportAudit.Proofs.Report.Grouping
import ExportAudit.Proofs.Report.Records
import ExportAudit.Proofs.CommandLine.Checking
import ExportAudit.Proofs.Project.Circularity
import ExportAudit.Proofs.Project.AliasBase
import ExportAudit.Proofs.UnusedLocal.Stripping
import ExportAudit.Proofs.UnusedLocal.ImportClause
import ExportAudit.Proofs.Analysis.Reexport
import ExportAudit.Proofs.Export.Declaring
import ExportAudit.Proofs.Export.Contributing
import ExportAudit.Proofs.Export.Symbols
import ExportAudit.Proofs.Path.Names
import ExportAudit.Proofs.Path.Wide
import ExportAudit.Proofs.Resolver.Relative
import ExportAudit.Proofs.Resolver.Directory
import ExportAudit.Proofs.Resolver.Aliases
import ExportAudit.Proofs.Project.Searched
import ExportAudit.Proofs.Store.Walking
import ExportAudit.Proofs.Pattern.Failing
import ExportAudit.Proofs.Pattern.Directory
import ExportAudit.Proofs.Project.Discovery
import ExportAudit.Proofs.Project.Collecting
import ExportAudit.Proofs.Project.Extending
import ExportAudit.Proofs.Settings.Overriding
import ExportAudit.Proofs.Json.Commented
import ExportAudit.Proofs.Json.Faults
import ExportAudit.Proofs.Json.Lexing
import ExportAudit.Proofs.Json.Commas
import ExportAudit.Proofs.Json.Accepting
import ExportAudit.Proofs.Json.Steps
import ExportAudit.Proofs.Syntax.Position
import ExportAudit.Proofs.UnusedLocal.Candidates
import ExportAudit.Proofs.Syntax.Range
import ExportAudit.Proofs.Module.Faults
import ExportAudit.Proofs.Graph.Conservation
import ExportAudit.Proofs.Path.Display
import ExportAudit.Proofs.Export.Destructuring
