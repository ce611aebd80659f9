import ChangeReview.Report.Record

/-!
# Reading reports

A report from its JSON object. Members that are absent get defaults, a part without the members that
name it is a fault, and so is a member of the wrong kind where its inside is needed; all else is
kept as it is.
-/
namespace ChangeReview.Report

/-- What the member under `key` yields when it is gone through; nothing when it is absent. -/
def listOf (v : Value) (key : Text) : Except Fault (List Value) :=
  v.getD key (.list []) >>= Value.elements

/-- The value is no name of the given sort. -/
def notValid {α : Type} (v : Value) (sort : Text) : Except Fault α :=
  .error (.invalid (v.quoted ++ " is not a valid " ++ sort))

/-- A name among those that `ofName?` knows. -/
def named {α : Type} (ofName? : Text → Option α) (sort : Text) (v : Value) : Except Fault α :=
  match v.text? >>= ofName? with
  | some a => .ok a
  | none => notValid v sort

/-- The members of an object; `member` is what a value of another kind is asked for in vain. -/
def membersOf (v : Value) (member : Text) : Except Fault (List (Text × Value)) :=
  match v with
  | .object members => .ok members
  | v => .error (.noMember v.kind member)

def FileEntry.ofValue (v : Value) : Except Fault FileEntry := do
  let changes ← v.getD "changes" (.object [])
  let path ← v.require "path"
  let summary ← v.getD "summary" (.text [])
  let complexity ← v.getD "complexity" (.int 1)
  let additions ← changes.getD "additions" (.int 0)
  let deletions ← changes.getD "deletions" (.int 0)
  let risks ← listOf v "risks"
  let recommendations ← listOf v "recommendations"
  return { path, summary, complexity, additions, deletions, risks, recommendations }

def FixEntry.ofValue (v : Value) : Except Fault FixEntry := do
  let file ← v.require "file"
  let comment ← v.require "comment"
  let severity ← v.getD "severity" .null
  let source ← named FixSource.ofName? "FixSource" (← v.getD "source" (.text FixSource.model.name))
  let line ← v.getD "line" .null
  return { file, comment, severity := Severity.parse severity .suggestion, source, line }

/-- The mode with one member set; there is no other member. -/
def Mode.set (m : Mode) (key : Text) (v : Value) : Except Fault Mode :=
  if key == "summary" then .ok { m with summary := v }
  else if key == "risks" then .ok { m with risks := v }
  else if key == "complexity" then .ok { m with complexity := v }
  else .error (.mismatch (.unexpectedArgument key))

def Mode.ofValue (v : Value) : Except Fault Mode :=
  match v with
  | .object members => members.foldlM (fun m e => m.set e.1 e.2) {}
  | v => .error (.mismatch (.notAMapping v.kind))

def DocsImpact.ofValue (v : Value) : Except Fault DocsImpact := do
  let used ← v.getD "used" (.bool false)
  let documents ← v.getD "docsAvailable" (.int 0)
  let sections ← v.getD "sectionsUsed" (.int 0)
  let stages ← listOf v "influencedStages"
  let insights ← listOf v "keyInsights"
  return { used, documents, sections, stages, insights }

def ScanFigures.ofValue (v : Value) : Except Fault ScanFigures := do
  let enabled ← v.getD "enabled" (.bool true)
  let total ← v.getD "totalFindings" (.int 0)
  let errors ← v.getD "errorCount" (.int 0)
  let warnings ← v.getD "warningCount" (.int 0)
  let critical ← listOf v "criticalIssues"
  return { enabled, total, errors, warnings, critical }

def TestEntry.ofValue (v : Value) : Except Fault TestEntry := do
  let forFile ← v.require "forFile"
  let framework ← v.getD "testFramework" (.text "other")
  let code ← v.getD "testCode" (.text [])
  let description ← v.getD "description" (.text [])
  let path ← v.getD "testFilePath" .null
  return { forFile, framework, code, description, path }

def CostEntry.ofValue (v : Value) : Except Fault CostEntry := do
  let resource ← v.require "resource"
  let kind ← v.getD "resourceType" resource
  let monthly ← v.getD "estimatedNewCost" (.float 0.0)
  let confidence ← named Infra.Confidence.ofName? "Confidence" (← v.getD "confidence" (.text "low"))
  let details ← v.getD "details" (.text [])
  return { resource, kind, monthly, confidence, details }

def fileCoverageOf (v : Value) : Except Fault FileCoverage := do
  let file ← v.require "file"
  let lines ← v.getD "lineCoverage" (.float 0.0)
  let branches ← v.getD "branchCoverage" .null
  return { file, lines, branches }

def coverageOf (v : Value) : Except Fault CoverageReport := do
  let available ← v.getD "available" (.bool false)
  let tool ← v.getD "coverageTool" .null
  let overall ← v.getD "overallPercentage" .null
  let lines ← v.getD "lineCoverage" .null
  let branches ← v.getD "branchCoverage" .null
  let files ← (← listOf v "fileBreakdown").mapM fileCoverageOf
  return { available, tool, overall, lines, branches, files }

/-- A section that counts as absent when it is empty, zero or false. -/
def sectionOf {α : Type} (read : Value → Except Fault α) (v : Value) : Except Fault (Option α) :=
  if v.truthy then (read v).map some else .ok none

/-- The parts in a section. -/
def partsOf {α : Type} (read : Value → Except Fault α) (v : Value) : Except Fault (List α) :=
  if v.truthy then v.elements >>= (·.mapM read) else .ok []

/-- The report that a JSON object holds. -/
def ofValue (v : Value) : Except Fault Report := do
  let docs ← v.getD "archDocsImpact" .null
  let scan ← v.getD "staticAnalysis" .null
  let tests ← v.getD "testSuggestions" .null
  let costs ← v.getD "devOpsCostEstimates" .null
  let coverage ← v.getD "coverageReport" .null
  let summary ← v.getD "summary" (.text [])
  let files ← (← membersOf (← v.getD "fileAnalyses" (.object [])) "items").mapM fun e =>
    (FileEntry.ofValue e.2).map fun entry => (e.1, entry)
  let fixes ← (← listOf v "fixes").mapM FixEntry.ofValue
  let recommendations ← listOf v "recommendations"
  let insights ← listOf v "insights"
  let reasoning ← listOf v "reasoning"
  let tokens ← v.getD "totalTokensUsed" (.int 0)
  let milliseconds ← v.getD "executionTime" (.int 0)
  let provider ← v.getD "provider" (.text "unknown")
  let model ← v.getD "model" (.text "unknown")
  let mode ← Mode.ofValue (← v.getD "mode" (.object []))
  let cost ← v.getD "estimatedCost" (.float 0.0)
  let docs ← sectionOf DocsImpact.ofValue docs
  let scan ← sectionOf ScanFigures.ofValue scan
  let tests ← partsOf TestEntry.ofValue tests
  let costs ← partsOf CostEntry.ofValue costs
  let coverage ← sectionOf coverageOf coverage
  return { summary, files, fixes, recommendations, insights, reasoning, tokens, milliseconds,
           provider, model, cost, docs, scan, tests, costs, coverage, mode := some mode }

end ChangeReview.Report
