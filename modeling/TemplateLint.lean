import TemplateLint.Main
import TemplateLint.Template.Encode
import TemplateLint.Proofs.Checked
import TemplateLint.Proofs.Text.Lines
import TemplateLint.Proofs.Text.Positions
import TemplateLint.Proofs.Text.Lookup
import TemplateLint.Proofs.Text.Order
import TemplateLint.Proofs.Diagnostic.Splice
import TemplateLint.Proofs.Diagnostic.Accepted
import TemplateLint.Proofs.Diagnostic.Outcome
import TemplateLint.Proofs.Diagnostic.Single
import TemplateLint.Proofs.Diagnostic.Offsets
import TemplateLint.Proofs.Diagnostic.Choice
import TemplateLint.Proofs.Diagnostic.Clashes
import TemplateLint.Proofs.Diagnostic.Reordering
import TemplateLint.Proofs.Rule.Boxes
import TemplateLint.Proofs.Rule.Notes
import TemplateLint.Proofs.Rule.Verdict
import TemplateLint.Proofs.Rule.Faults
import TemplateLint.Proofs.Rule.Seams
import TemplateLint.Proofs.Rule.Swaps
import TemplateLint.Proofs.Lint.Events
import TemplateLint.Proofs.Lint.Detection
import TemplateLint.Proofs.Lint.Calls
import TemplateLint.Proofs.Lint.Levels
import TemplateLint.Proofs.Lint.Isolation
import TemplateLint.Proofs.Lint.Run
import TemplateLint.Proofs.Lint.Reports
import TemplateLint.Proofs.Lint.Repairs
import TemplateLint.Proofs.Lint.Settings
import TemplateLint.Proofs.Lint.FixSafety
import TemplateLint.Proofs.Lint.Attributes
import TemplateLint.Proofs.Lint.Keys
import TemplateLint.Proofs.Lint.Relint
import TemplateLint.Proofs.Lint.Rounds
import TemplateLint.Proofs.Template.NormalForm
import TemplateLint.Proofs.Template.Rewriting
import TemplateLint.Proofs.Template.Spans
import TemplateLint.Proofs.Config.RoundTrip
import TemplateLint.Proofs.Report.Positions
import TemplateLint.Proofs.Report.Order
import TemplateLint.Proofs.Report.OfferedFixes
import TemplateLint.Proofs.Files.Segments
import TemplateLint.Proofs.Files.Collected
import TemplateLint.Proofs.Files.Places
import TemplateLint.Proofs.Files.Writes
import TemplateLint.Proofs.Files.FixedTemplates
import TemplateLint.Proofs.Files.Walks
import TemplateLint.Proofs.Files.Globs
import TemplateLint.Proofs.Files.Leads
import TemplateLint.Proofs.Files.Found
import TemplateLint.Proofs.Files.Targets
import TemplateLint.Proofs.Command.Counts
import TemplateLint.Proofs.Command.Once
import TemplateLint.Proofs.Command.Fixes
import TemplateLint.Proofs.Command.Stages
import TemplateLint.Proofs.Command.Status
import TemplateLint.Proofs.Command.Saving
import TemplateLint.Proofs.Command.WrittenFixes
import TemplateLint.Proofs.Command.Repeat
import TemplateLint.Proofs.Command.JsonOutput
