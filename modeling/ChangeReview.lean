import ChangeReview.Text.Basic
import ChangeReview.Text.Case
import ChangeReview.Decimal.Digits
import ChangeReview.Decimal.Literal
import ChangeReview.Value.Display
import ChangeReview.Value.Reader
import ChangeReview.Value.Writer
import ChangeReview.Digest.Sha256
import ChangeReview.Text.Path
import ChangeReview.Text.Encoding
import ChangeReview.Change.Diff
import ChangeReview.Change.Totals
import ChangeReview.Docs.Folder
import ChangeReview.Review.Fix
import ChangeReview.Scan.Finding
import ChangeReview.Scan.Run
import ChangeReview.Docs.Context
import ChangeReview.Reply.Answers
import ChangeReview.Prompt.FileAnalysis
import ChangeReview.Prompt.Fixes
import ChangeReview.Prompt.Summary
import ChangeReview.Prompt.Recommendations
import ChangeReview.TestPlan.Suggest
import ChangeReview.Infra.Cost
import ChangeReview.Settings
import ChangeReview.Markup.Document
import ChangeReview.Coverage.Locate
import ChangeReview.Report.Reading
import ChangeReview.Main
import ChangeReview.Cache
import ChangeReview.Workflow.Stages
import ChangeReview.Workflow.Run
import ChangeReview.Provider.Standard
import ChangeReview.Service.Server
import ChangeReview.Backend.Script
import ChangeReview.Proofs.Workflow.Lockstep
import ChangeReview.Proofs.Change.GitFormat
import ChangeReview.Proofs.Change.RoundTrip
import ChangeReview.Proofs.Reply.InsideOut
import ChangeReview.Proofs.Reply.Salvage
import ChangeReview.Proofs.Reply.TruncatedFixes
import ChangeReview.Proofs.Decimal.FiniteDoubles
import ChangeReview.Proofs.Reply.ReplyFaults
import ChangeReview.Proofs.Review.DefaultAnalyses
import ChangeReview.Proofs.Usage.CostRange
import ChangeReview.Proofs.Workflow.Stages
import ChangeReview.Proofs.Workflow.Survival
import ChangeReview.Proofs.Cache.TimedMap
import ChangeReview.Proofs.Report.NormalForm
import ChangeReview.Proofs.Analysis.Transparency
import ChangeReview.Proofs.Workflow.Checkpoints
import ChangeReview.Proofs.Workflow.TokenAccount
import ChangeReview.Proofs.Workflow.CallProtocol
import ChangeReview.Proofs.Workflow.ReportLaws
import ChangeReview.Proofs.Workflow.Course
import ChangeReview.Proofs.Review.FiledAnalyses
import ChangeReview.Proofs.Review.SortedFixes
import ChangeReview.Proofs.Change.SourceLines
import ChangeReview.Proofs.Docs.Selection
import ChangeReview.Proofs.Reply.Prose
import ChangeReview.Proofs.Docs.SectionSpans
import ChangeReview.Proofs.Backend.Instances
import ChangeReview.Proofs.Provider.StreamFaults
import ChangeReview.Proofs.Provider.StreamReplies
import ChangeReview.Proofs.Scan.Commands
import ChangeReview.Proofs.Scan.SoundReports
import ChangeReview.Proofs.Workflow.ScanOutcomes
import ChangeReview.Proofs.Workflow.Budgets
import ChangeReview.Proofs.Workflow.Outage
import ChangeReview.Proofs.Cache.Advice
import ChangeReview.Proofs.Analysis.PassedOver
import ChangeReview.Proofs.Analysis.StoredEntries
import ChangeReview.Proofs.Usage.LogRoundTrip
import ChangeReview.Proofs.Decimal.QuotientRange
import ChangeReview.Proofs.Coverage.BrokenReports
import ChangeReview.Proofs.Workflow.RepositoryContents
import ChangeReview.Proofs.Analysis.SeparateEntries
import ChangeReview.Proofs.Workflow.ScanAndFixes
import ChangeReview.Proofs.Usage.Conservation
import ChangeReview.Proofs.Settings.Loading
import ChangeReview.Proofs.Workflow.ListedFixes
import ChangeReview.Proofs.Change.HunkIsolation
import ChangeReview.Proofs.Change.LineCounts
import ChangeReview.Proofs.Workflow.FileTotals
import ChangeReview.Proofs.Decimal.DigitSymbols
import ChangeReview.Proofs.Text.Blanks
import ChangeReview.Proofs.Review.ModelFixes
import ChangeReview.Proofs.Reply.ListLines
import ChangeReview.Proofs.Reply.Recommendations
import ChangeReview.Proofs.Workflow.NeatAdvice
import ChangeReview.Proofs.Reply.ListReplies
import ChangeReview.Proofs.Reply.WrappedFixes
import ChangeReview.Proofs.Text.Occurrences
import ChangeReview.Proofs.Infra.TypeNames
import ChangeReview.Proofs.Text.NormalPaths
import ChangeReview.Proofs.Scan.ChangedFiles
import ChangeReview.Proofs.TestPlan.Suggestions
import ChangeReview.Proofs.Text.FileNames
import ChangeReview.Proofs.Text.LowerCase
import ChangeReview.Proofs.TestPlan.TestNames
import ChangeReview.Proofs.TestPlan.FollowedAdvice
import ChangeReview.Proofs.Infra.Estimates
import ChangeReview.Proofs.Change.SameName
import ChangeReview.Proofs.Review.Credentials
import ChangeReview.Proofs.Coverage.Tracefiles
import ChangeReview.Proofs.Docs.Keywords
import ChangeReview.Proofs.Reply.FlatObjects
import ChangeReview.Proofs.Reply.Sightings
