import StyleAudit.CommandLine
import StyleAudit.Main
import StyleAudit.Proofs.Table
import StyleAudit.Proofs.Value.TextKeys
import StyleAudit.Proofs.Value.MergePaths
import StyleAudit.Proofs.Config.Gathering
import StyleAudit.Proofs.Config.Precedence
import StyleAudit.Proofs.Suppression.Reading
import StyleAudit.Proofs.Suppression.Meaning
import StyleAudit.Proofs.Config.Cycles
import StyleAudit.Proofs.Document.CommentText
import StyleAudit.Proofs.Rule.Builtin
import StyleAudit.Proofs.Lint.Filter
import StyleAudit.Proofs.Dispatch.Examination
import StyleAudit.Proofs.Dispatch.Recording
import StyleAudit.Proofs.Lint.Independence
import StyleAudit.Proofs.Value.KeyOrder
import StyleAudit.Proofs.Config.Fields
import StyleAudit.Proofs.Dispatch.Turns
import StyleAudit.Proofs.Lint.RuleOrder
import StyleAudit.Proofs.Config.Plugins
import StyleAudit.Proofs.Config.SettingFaults
import StyleAudit.Proofs.Dispatch.Validation
import StyleAudit.Proofs.Plugin.Loading
import StyleAudit.Proofs.Lint.Phases
import StyleAudit.Proofs.CommandLine.Agreement
import StyleAudit.Proofs.Config.Entries
import StyleAudit.Proofs.Lint.BaseDirectory
import StyleAudit.Proofs.Config.FixedPoint
import StyleAudit.Proofs.Lint.Resolved
import StyleAudit.Proofs.CommandLine.WorkingDirectory
import StyleAudit.Proofs.Dispatch.Trace
import StyleAudit.Proofs.FileSystem.LookupFailure
import StyleAudit.Proofs.Value.Layering
import StyleAudit.Proofs.Value.MergeAlgebra
import StyleAudit.Proofs.Config.Stacking
import StyleAudit.Proofs.FileSystem.Canonical
import StyleAudit.Proofs.FileSystem.ModuleNames
import StyleAudit.Proofs.Text.Pattern
import StyleAudit.Proofs.Suppression.Grammar
import StyleAudit.Proofs.Suppression.DirectivePattern
import StyleAudit.Proofs.Document.Form
import StyleAudit.Proofs.Document.Reading
import StyleAudit.Proofs.Suppression.IgnoredEnables
import StyleAudit.Proofs.Document.Occurrences
import StyleAudit.Proofs.Rule.Reports
import StyleAudit.Proofs.Rule.BlockVisits
import StyleAudit.Proofs.Rule.NestingDepth
import StyleAudit.Proofs.Text.Search
import StyleAudit.Proofs.Rule.HexColor
import StyleAudit.Proofs.Document.Thinning
import StyleAudit.Proofs.Lint.OrdinaryComments
import StyleAudit.Proofs.Config.ShapeFaults
import StyleAudit.Proofs.Config.RoundTrip
import StyleAudit.Proofs.Plugin.Registration
import StyleAudit.Proofs.Json.Grammar
import StyleAudit.Proofs.Json.Numerals
import StyleAudit.Proofs.Json.Written
import StyleAudit.Proofs.CommandLine.JsonOutput
import StyleAudit.Proofs.Document.Preorder
import StyleAudit.Proofs.Json.StringReading
import StyleAudit.Proofs.Json.RoundTrip
import StyleAudit.Proofs.Report.Records
import StyleAudit.Proofs.Report.Counts
import StyleAudit.Proofs.CommandLine.ExitCode
