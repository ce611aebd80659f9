import ChangeReview.Coverage.Report
import ChangeReview.Decimal.Digits
import ChangeReview.Infra.Cost
import ChangeReview.Review.FileAnalysis
import ChangeReview.Review.Fix
import ChangeReview.TestPlan.Suggest
import ChangeReview.Value.Writer

/-!
# Reports

The outcome of a review, and its form as a JSON object. Sections without content are left out of
the object.
-/
namespace ChangeReview

/-!
## The parts of a report

What a report holds about files, fixes, documents, the scan, tests, costs and coverage. A report may
come from a store that anybody can have written, so the parts hold values; only what the reader
checks has a type of its own. Each part is written as an object whose members stand in a fixed
order.
-/

namespace Report

/-- Which parts of a review were asked for. -/
structure Mode where
  summary : Value := .bool true
  risks : Value := .bool true
  complexity : Value := .bool true
  deriving DecidableEq

/-- The analysis of a file. -/
structure FileEntry where
  path : Value
  summary : Value
  complexity : Value
  additions : Value
  deletions : Value
  risks : List Value
  recommendations : List Value
  deriving DecidableEq

/-- A fix. -/
structure FixEntry where
  file : Value
  comment : Value
  severity : Severity
  source : FixSource
  line : Value
  deriving DecidableEq

/-- What the documents of the repository contributed. -/
structure DocsImpact where
  used : Value
  documents : Value
  sections : Value
  stages : List Value
  insights : List Value
  deriving DecidableEq

/-- The figures of the scan. -/
structure ScanFigures where
  enabled : Value
  total : Value
  errors : Value
  warnings : Value
  critical : List Value
  deriving DecidableEq

/-- A suggested test. -/
structure TestEntry where
  forFile : Value
  framework : Value
  code : Value
  description : Value
  path : Value
  deriving DecidableEq

/-- The cost of a kind of resource. -/
structure CostEntry where
  resource : Value
  kind : Value
  monthly : Value
  confidence : Infra.Confidence
  details : Value
  deriving DecidableEq

/-! ### Parts from what a run found -/

def FileEntry.ofAnalysis (a : FileAnalysis) : FileEntry where
  path := a.path
  summary := a.summary
  complexity := .int a.complexity
  additions := .int a.additions
  deletions := .int a.deletions
  risks := a.risks.map .text
  recommendations := a.recommendations.map .text

def FixEntry.ofFix (f : Fix) : FixEntry := ⟨f.file, f.comment, f.severity, f.source, f.line⟩

def TestEntry.ofSuggestion (s : TestPlan.Suggestion) : TestEntry :=
  ⟨s.forFile, s.framework.name, s.code, s.description, s.path⟩

def CostEntry.ofEstimate (e : Infra.Estimate) : CostEntry :=
  ⟨e.kind, e.kind, .float e.monthly, e.confidence, e.details⟩

/-! ### Parts as values -/

def Mode.toValue (m : Mode) : Value :=
  .members [("summary", m.summary), ("risks", m.risks), ("complexity", m.complexity)]

def FileEntry.toValue (e : FileEntry) : Value :=
  .members [("path", e.path), ("summary", e.summary), ("risks", .list e.risks),
    ("complexity", e.complexity),
    ("changes", .members [("additions", e.additions), ("deletions", e.deletions)]),
    ("recommendations", .list e.recommendations)]

def FixEntry.toValue (e : FixEntry) : Value :=
  .members ([("file", e.file), ("comment", e.comment), ("severity", .text e.severity.name),
    ("source", .text e.source.name)] ++ Value.unlessNull "line" e.line)

def DocsImpact.toValue (d : DocsImpact) : Value :=
  .members [("used", d.used), ("docsAvailable", d.documents), ("sectionsUsed", d.sections),
    ("influencedStages", .list d.stages), ("keyInsights", .list d.insights)]

def ScanFigures.toValue (s : ScanFigures) : Value :=
  .members [("enabled", s.enabled), ("totalFindings", s.total), ("errorCount", s.errors),
    ("warningCount", s.warnings), ("criticalIssues", .list s.critical)]

def TestEntry.toValue (e : TestEntry) : Value :=
  .members ([("forFile", e.forFile), ("testFramework", e.framework), ("testCode", e.code),
    ("description", e.description)] ++ Value.unlessNull "testFilePath" e.path)

def CostEntry.toValue (e : CostEntry) : Value :=
  .members [("resource", e.resource), ("resourceType", e.kind), ("estimatedNewCost", e.monthly),
    ("confidence", .text e.confidence.name), ("details", e.details)]

end Report

/-! ## The whole report -/

/-- The outcome of a review. -/
structure Report where
  summary : Value
  files : List (Text × Report.FileEntry) := []
  fixes : List Report.FixEntry := []
  recommendations : List Value := []
  insights : List Value := []
  reasoning : List Value := []
  tokens : Value := .int 0
  milliseconds : Value := .int 0
  provider : Value := .text "unknown"
  model : Value := .text "unknown"
  mode : Option Report.Mode := some {}
  cost : Value := .float 0.0
  docs : Option Report.DocsImpact := none
  scan : Option Report.ScanFigures := none
  tests : List Report.TestEntry := []
  costs : List Report.CostEntry := []
  coverage : Option CoverageReport := none

namespace Report

/-- The decimal places of the cost. -/
def costPlaces : Nat := 6

/-- The cost to six places; whole numbers stay whole, and only a number can be rounded. -/
def roundCost : Value → Except Fault Value
  | .int n => .ok (.int n)
  | .bool b => .ok (.int (if b then 1 else 0))
  | .float x => .ok (.float (Decimal.roundTo costPlaces x))
  | v => .error (.mismatch (.notANumber v.kind))

/-- The section unless it is empty. -/
def present {α : Type} (key : String) (write : α → Value) (items : List α) :
    List (String × Value) :=
  if items.isEmpty then [] else [(key, .list (items.map write))]

/-- The section if there is one. -/
def optional {α : Type} (key : String) (write : α → Value) : Option α → List (String × Value)
  | some a => [(key, write a)]
  | none => []

/-- The members of a report with the given mode, whose cost has been rounded. -/
def toMembers (r : Report) (mode : Mode) (cost : Value) : List (String × Value) :=
  [("summary", r.summary),
    ("fileAnalyses", .object (r.files.map fun e => (e.1, e.2.toValue))),
    ("fixes", .list (r.fixes.map FixEntry.toValue)),
    ("recommendations", .list r.recommendations),
    ("insights", .list r.insights),
    ("reasoning", .list r.reasoning),
    ("totalTokensUsed", r.tokens),
    ("executionTime", r.milliseconds),
    ("provider", r.provider),
    ("model", r.model),
    ("mode", mode.toValue),
    ("estimatedCost", cost)] ++
  optional "archDocsImpact" DocsImpact.toValue r.docs ++
  optional "staticAnalysis" ScanFigures.toValue r.scan ++
  present "testSuggestions" TestEntry.toValue r.tests ++
  present "devOpsCostEstimates" CostEntry.toValue r.costs ++
  optional "coverageReport" CoverageReport.toValue r.coverage

/-- The mode of a report, which has to have one before it is written. -/
def writtenMode (r : Report) : Except Fault Mode :=
  match r.mode with
  | some mode => .ok mode
  | none => .error (.mismatch (.notAMapping Value.null.kind))

/-- A report as a JSON object. -/
def toValue (r : Report) : Except Fault Value := do
  let mode ← r.writtenMode
  let cost ← roundCost r.cost
  return .members (r.toMembers mode cost)

/-- The text of a report. -/
def write (layout : Value.Layout) (r : Report) : Except Fault Text :=
  r.toValue.map (Value.write layout)

/-- The number of critical fixes. -/
def criticalCount (r : Report) : Nat := r.fixes.countP fun f => f.severity == .critical

end Report

end ChangeReview
