import ChangeReview.Coverage.Locate
import ChangeReview.Infra.Cost
import ChangeReview.Report.Record
import ChangeReview.TestPlan.Suggest
import ChangeReview.Usage.Pricing
import ChangeReview.Workflow.State

/-!
# The report of a run

The last state of a run becomes a report: what was found, what it cost, and what the repository
itself says about tests, infrastructure and coverage. The budgets only add notices.
-/
namespace ChangeReview.Workflow

/-- Who answered in a run. -/
structure Origin where
  provider : Value
  model : Value
  deriving DecidableEq, Repr

/-- A cost is above a limit. -/
def exceeds (cost : Float) : Value.Number → Bool
  | .whole n => Binary64.compareInt? cost n == some .gt
  | .double x => x < cost

/-- A number with two decimal places. -/
def showLimit : Value.Number → Except Fault Text
  | .whole n => (Decimal.nearest n).map (Decimal.fixed 2)
  | .double x => .ok (Decimal.fixed 2 x)

/-- The notice about a run that took more tokens than its budget. -/
def tokenNotice (s : State) : List Text :=
  if s.context.tokenBudget < s.tokens then
    ["Token usage " ++ Text.ofInt s.tokens ++ " exceeded the budget of " ++
      Text.ofInt s.context.tokenBudget]
  else []

/-- The notice about a run that cost more than its limit. -/
def costNotice (s : State) (cost : Float) : Except Fault (List Text) :=
  match s.context.maxCost.number? with
  | some limit =>
    if exceeds cost limit then
      (showLimit limit).map fun shown =>
        ["Estimated cost $" ++ Decimal.fixed 4 cost ++ " exceeded the limit of $" ++ shown]
    else .ok []
  | none => .ok []

/-- The figures of the scan, if it was asked for. -/
def scanFigures (s : State) : Option Report.ScanFigures :=
  if s.context.scanEnabled.truthy then
    let summary := s.scan.getD {}
    some {
      enabled := .bool true
      total := .int summary.total
      errors := .int summary.errors
      warnings := .int summary.warnings
      critical := summary.critical.map fun f => .text f.describe }
  else none

/-- The texts without their later repetitions. -/
def distinctTexts (ts : List Text) : List Text :=
  ts.foldl (fun seen t => if seen.contains t then seen else seen ++ [t]) []

/-- What the documents contributed, if there are any. -/
def docsImpact (s : State) : Option Report.DocsImpact :=
  match s.context.docs with
  | some docs =>
    if docs.available then
      let stages := distinctTexts s.docsStages
      some {
        used := .bool (!stages.isEmpty)
        documents := .int docs.documentCount
        sections := .int docs.relevant.length
        stages := stages.map .text
        insights := s.docsInsights.map .text }
    else none
  | none => none

/-- The coverage of the repository, for changes of code or tests. -/
def coverageOf (d : Disk) (repository : Value) (files : List ChangedFile) :
    Except Fault (Option CoverageReport) := do
  if files.any fun f => TestPlan.isCodeFile f.path || TestPlan.isTestFile f.path then
    Coverage.report d (← repository.toPath)
  else return none

/-- The report that the last state of a run makes. -/
def reportOf (d : Disk) (origin : Origin) (s : State) : Except Fault Report := do
  let cost ← Usage.estimateCost origin.model s.inputTokens s.outputTokens
  let notice ← costNotice s cost
  let tests ← TestPlan.suggestFor d s.context.repository s.files
  let coverage ← coverageOf d s.context.repository s.files
  return {
    summary := .text s.summary
    files := s.analyses.map fun e => (e.1, Report.FileEntry.ofAnalysis e.2)
    fixes := s.fixes.map Report.FixEntry.ofFix
    recommendations := s.recommendations.map .text
    insights := (s.insights ++ tokenNotice s ++ notice).map .text
    reasoning := s.reasoning.map .text
    tokens := .int s.tokens
    provider := origin.provider
    model := origin.model
    mode := s.context.mode
    cost := .float cost
    docs := docsImpact s
    scan := scanFigures s
    tests := tests.map Report.TestEntry.ofSuggestion
    costs := (Infra.estimates s.files).map Report.CostEntry.ofEstimate
    coverage }

end ChangeReview.Workflow
