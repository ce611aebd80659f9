import ChangeReview.Docs.Context
import ChangeReview.Prompt.FileAnalysis
import ChangeReview.Prompt.Fixes
import ChangeReview.Prompt.Recommendations
import ChangeReview.Prompt.Summary
import ChangeReview.Reply.Answers
import ChangeReview.Review.Fix
import ChangeReview.Workflow.State

/-!
# The stages

The five stages of a run, each a plan of what it asks of the outside world and how it goes on with the
answer.
-/
namespace ChangeReview.Workflow

/-!
## The first stage: files

Every file of the change, up to a limit, gets a default analysis; the model looks closer at the most
important ones. Whatever it says, the default stays where the model fails.
-/

/-- The most files that are analyzed. -/
def maxAnalyzed : Nat := 15

/-- The most files that the model looks at. -/
def maxImportant : Nat := 5

/-- A file with more changed lines than this is important. -/
def importantChanges : Int := 20

/-- Fragments of the paths of important files. -/
def importantFragments : List Text := ["config", "schema", "migration", "test"]

def isImportant (f : ChangedFile) : Bool :=
  importantChanges < f.totalChanges || importantFragments.any (Text.occurs · f.path)

/-- The files that are analyzed. -/
def analyzedFiles (c : Context) : List ChangedFile := c.changedFiles.take maxAnalyzed

/-- The files that the model looks at. -/
def importantFiles (c : Context) : List ChangedFile :=
  ((analyzedFiles c).filter isImportant).take maxImportant

/-- The output with default analyses only. -/
def defaultFiles (c : Context) (defaults : FileAnalyses) : Output where
  files := some c.changedFiles
  analyses := some defaults
  reasoning := ["Parsed " ++ Text.ofNat c.changedFiles.length ++ " changed files; analyzing " ++
    Text.ofNat defaults.length]

/-- The output with the analyses of the model put over the default ones. -/
def withAnalyses (defaults : FileAnalyses) (docs : Text) (deep : FileAnalyses) (o : Output) :
    Output :=
  let count := Text.ofNat deep.length
  let o := { o with analyses := some (defaults.update deep) }
  let o := o.reason ("Detailed analysis applied to " ++ count ++ " important files")
  if docs.isEmpty || deep.isEmpty then o
  else o.influence "file-analysis"
    ("Analyzed " ++ count ++ " files against repository architecture documentation")

/-- What becomes of the model's answer. -/
def resumeFiles (c : Context) (defaults : FileAnalyses) (docs : Text)
    (answer : Except Fault Response) : Except Fault Output :=
  let o := defaultFiles c defaults
  match answer with
  | .error fault =>
    if fault.isAbsorbed then
      .ok (o.insight ("Detailed file analysis unavailable (" ++ fault.message ++
        "); kept default analyses"))
    else .error fault
  | .ok response =>
    let o := o.addUsage response
    match Reply.fileAnalyses response.text defaults with
    | .ok deep => .ok (withAnalyses defaults docs deep o)
    | .error fault =>
      if fault.isBadValue || fault.isMismatch then
        .ok (o.insight "Detailed file analysis was malformed; kept default analyses")
      else .error fault

/-- Looks at the changed files. -/
def fileStage : Stage where
  name := "analyze_files"
  plan s :=
    let c := s.context
    match FileAnalyses.ofFiles (analyzedFiles c) with
    | .error fault => .done (.error fault)
    | .ok defaults =>
      if (importantFiles c).isEmpty then .done (.ok (defaultFiles c defaults))
      else
        let docs := Docs.promptBlock c.docs
        .ask ⟨Prompt.fileAnalysis (importantFiles c) docs, "analyze_files"⟩
          (resumeFiles c defaults docs)

/-!
## The second stage: the scanner

The scanner runs over the repository, and its findings in changed files are kept. A scanner that is
absent or fails leaves a notice and no findings.
-/

/-- The output of a scan that could not be used. -/
def failedScan (fault : Fault) : Output where
  findings := some []
  scan := some {}
  insights := ["Static analysis failed (" ++ fault.message ++ "); continuing without findings"]

/-- The message of an error that the scanner reports; nothing for a lesser notice. -/
def errorMessage? (e : Value) : Except Fault (Option Value) := do
  let level ← e.getD "level" .null
  let message ← e.getD "message" (.text "unknown error")
  return if level = .text "error" then some message else none

/-- Texts with `; ` between them; what is no text cannot be joined. -/
def joinMessages (messages : List Value) : Except Fault Text := do
  let texts ← (messages.zipIdx).mapM fun (v, i) =>
    match v with
    | .text t => .ok t
    | v => .error (.mismatch (.notJoinable i v.kind))
  return Text.join "; " texts

/-- The notices about how a scan went. -/
def scanNotices (r : Scan.Result) : Except Fault (List Text) := do
  if r.notInstalled then return ["Semgrep is not installed; static analysis skipped"]
  if r.failed then
    let messages ← r.errors.mapM errorMessage?
    let joined ← joinMessages (messages.filterMap id)
    return ["Static analysis reported errors: " ++ joined]
  return []

/-- The output of a scan. -/
def scanOutput (files : List ChangedFile) (r : Scan.Result) : Except Fault Output := do
  let insights ← scanNotices r
  let findings ← Finding.inChangedFiles r.findings (files.map (·.path))
  let summary ← FindingsSummary.ofFindings findings
  return {
    findings := some findings
    scan := some summary
    insights
    reasoning := ["Static analysis: " ++ Text.ofNat summary.total ++
      " findings in changed files (" ++ Text.ofNat summary.errors ++ " errors, " ++
      Text.ofNat summary.warnings ++ " warnings)"] }

/-- What becomes of the scanner's outcome. -/
def resumeScan (files : List ChangedFile) (command : Except Fault Scan.Command)
    (outcome : Scan.Outcome) : Except Fault Output :=
  match Scan.run command outcome with
  | .ok result => scanOutput files result
  | .error fault =>
    match fault with
    | .scan _ | .isFolder _ | .system _ => .ok (failedScan fault)
    | _ => .error fault

/-- Runs the scanner. -/
def scanStage : Stage where
  name := "run_static_analysis"
  plan s :=
    let c := s.context
    if !c.scanEnabled.truthy then
      .done (.ok { reasoning := ["Static analysis disabled for this run"] })
    else
      let command := Scan.command c.repository (c.scanOptions.getD {}) c.language c.framework
      .scan command (resumeScan s.files command)

/-!
## The third stage: fixes

The findings of the scanner become fixes. Only where there are none is the model asked, and then a
fix for credentials in the diff is added, whatever the model says.
-/

/-- The most fixes of the model that are kept. -/
def maxModelFixes : Int := 10

/-- The most characters of the diff that the model sees. -/
def sampleLength : Nat := 8000

/-- The fixes for the scanner's findings. -/
def scannerFixes (findings : List Finding) : Output :=
  let fixes := Fix.sort (findings.map Finding.toFix)
  { fixes := some fixes
    reasoning := ["Generated " ++ Text.ofNat fixes.length ++
      " fixes from static analysis findings"] }

/-- The fixes of the model with the one for credentials, if there is one. -/
def completeFixes (c : Context) (files : List ChangedFile) (fixes : List Fix) (o : Output) :
    Output :=
  let fixes := Fix.prioritize fixes (some maxModelFixes)
  let (fixes, o) := match credentialFix c.diff files with
    | some fix => (Fix.sort (fixes ++ [fix]),
        o.reason "Credential keywords found in diff; added a critical fix")
    | none => (fixes, o)
  { o with fixes := some fixes }.reason
    ("Generated " ++ Text.ofNat fixes.length ++ " fixes from model review")

/-- The fixes that a reply lists. -/
def fixesOfReply (t : Text) : Except Fault (List Fix) := do
  let entries ← Reply.fixEntries t
  Fix.ofEntries entries

/-- What becomes of the model's answer. -/
def resumeFixes (c : Context) (files : List ChangedFile) (answer : Except Fault Response) :
    Except Fault Output :=
  let o : Output := {}
  match answer with
  | .error fault =>
    if fault.isAbsorbed then
      .ok (completeFixes c files []
        (o.insight ("Model fix generation unavailable (" ++ fault.message ++ ")")))
    else .error fault
  | .ok response =>
    let o := o.addUsage response
    match fixesOfReply response.text with
    | .ok fixes =>
      let guided := !(Docs.promptBlock c.docs).isEmpty || !(Docs.securityGuidance c.docs).isEmpty
      let o := if guided then
          o.influence "risk-detection"
            "Checked changes against documented security and design guidelines"
        else o
      .ok (completeFixes c files fixes o)
    | .error fault =>
      if fault.isBadValue || fault.isMismatch then
        .ok (completeFixes c files []
          (o.insight "Model fix output was malformed; no model fixes used"))
      else .error fault

/-- The line counts of every file have no more digits than a numeral may have. -/
def checkCounts : List ChangedFile → Except Fault Unit
  | [] => .ok ()
  | f :: rest => do
    let _ ← Decimal.numeral f.additions
    let _ ← Decimal.numeral f.deletions
    checkCounts rest

/-- What the model is asked. -/
def fixCall (c : Context) (files : List ChangedFile) : Except Fault Call :=
  (checkCounts files).map fun _ =>
    { prompt := Prompt.fixes c.shownTitle files (c.diff.take sampleLength)
        (Docs.promptBlock c.docs) (Docs.securityGuidance c.docs)
      tool := "generate_fixes" }

/-- Lists the fixes. -/
def fixStage : Stage where
  name := "generate_fixes"
  plan s :=
    if !s.findings.isEmpty then .done (.ok (scannerFixes s.findings))
    else if s.files.isEmpty then
      .done (.ok { fixes := some [], reasoning := ["No changed files; no fixes generated"] })
    else
      match fixCall s.context s.files with
      | .error fault => .done (.error fault)
      | .ok call => .ask call (resumeFixes s.context s.files)

/-!
## The fourth stage: the summary

The model summarizes the change. Without its help the summary states the counts.
-/

/-- The most files that the model is told about. -/
def maxKeyFiles : Nat := 5

/-- The summary by counts. -/
def countSummary (files additions deletions fixes : Int) (title : Option Text) :
    Except Fault Text := do
  let noun : Text := if files = 1 then "file" else "files"
  let added ← Decimal.numeral additions
  let removed ← Decimal.numeral deletions
  let counts := Text.ofInt files ++ " " ++ noun ++ " changed (+" ++ added ++ "/-" ++ removed ++
    "). " ++ Text.ofInt fixes ++ " fixes identified."
  match title with
  | some (c :: r) => return counts ++ " Title: " ++ (c :: r)
  | _ => return counts

/-- The summary of a state by its counts. -/
def stateSummary (s : State) : Except Fault Text :=
  let totals := ChangeTotals.ofFiles s.files
  countSummary totals.filesChanged totals.linesAdded totals.linesRemoved s.fixes.length
    s.context.shownTitle

/-- The analyses of the files that changed most; equal ones keep their order. -/
def keyFiles (analyses : FileAnalyses) : List FileAnalysis :=
  ((analyses.map (·.2)).mergeSort fun a b =>
    b.additions + b.deletions ≤ a.additions + a.deletions).take maxKeyFiles

/-- What the model is asked. -/
def summaryCall (s : State) : Except Fault Call :=
  (Prompt.summary s.context.shownTitle (ChangeTotals.ofFiles s.files) (keyFiles s.analyses)
    s.fixes.length (Docs.patternsGuidance s.context.docs)).map (⟨·, "generate_summary"⟩)

/-- What becomes of the model's answer; `counts` is the summary by counts. -/
def resumeSummary (s : State) (counts : Text) (answer : Except Fault Response) :
    Except Fault Output :=
  let o : Output := {}
  let counted := { o with summary := some counts }
  match answer with
  | .error fault =>
    if fault.isAbsorbed then
      .ok (counted.insight ("Summary generation failed (" ++ fault.message ++
        "); used statistical summary"))
    else .error fault
  | .ok response =>
    let text := Text.trim response.text
    if text.isEmpty then
      .ok ((counted.addUsage response).insight
        "Summary generation returned no text; used statistical summary")
    else
      let o := { o.addUsage response with summary := some text }
      .ok (if (Docs.patternsGuidance s.context.docs).isEmpty then o
        else o.influence "summary-generation"
          "Summary aligned with repository architecture and established patterns")

/-- Summarizes the change. -/
def summaryStage : Stage where
  name := "generate_summary"
  plan s :=
    match stateSummary s, summaryCall s with
    | .error fault, _ | _, .error fault => .done (.error fault)
    | .ok counts, .ok call =>
      if s.files.isEmpty then
        .done (.ok { summary := some counts, reasoning := ["No changes to summarize"] })
      else .ask call (resumeSummary s counts)

/-!
## The last stage: recommendations

The model recommends what to do next. Where it has nothing to say, the default recommendations
stand.
-/

/-- The most recommendations that are kept. -/
def maxRecommendations : Nat := 5

def defaultRecommendations : List Text := [
  "Ensure comprehensive test coverage for new functionality",
  "Update relevant documentation",
  "Consider performance implications of changes"]

/-- What the model is asked. -/
def adviceCall (s : State) : Call where
  prompt := Prompt.recommendations s.summary s.fixes s.files.length
    (Docs.qualityGuidance s.context.docs)
  tool := "finalize"

/-- The recommendations of the model, or the default ones. -/
def completeAdvice (s : State) (recommendations : List Text) (o : Output) : Output :=
  if recommendations.isEmpty then
    { o with recommendations := some defaultRecommendations }.reason "Default recommendations used"
  else
    let o := { o with recommendations := some recommendations }
    if (Docs.qualityGuidance s.context.docs).isEmpty then o
    else o.influence "refinement" "Recommendations aligned with repository quality standards"

/-- What becomes of the model's answer. -/
def resumeAdvice (s : State) (answer : Except Fault Response) : Except Fault Output :=
  let o : Output := {}
  match answer with
  | .error fault =>
    if fault.isAbsorbed then
      .ok (completeAdvice s [] (o.insight
        ("Recommendation generation failed (" ++ fault.message ++ ")")))
    else .error fault
  | .ok response =>
    (Reply.recommendations response.text).map fun items =>
      completeAdvice s (items.take maxRecommendations) (o.addUsage response)

/-- Recommends what to do. -/
def adviceStage : Stage where
  name := "finalize"
  plan s :=
    if s.files.isEmpty then
      .done (.ok {
        recommendations := some defaultRecommendations
        reasoning := ["No changes; default recommendations used"] })
    else .ask (adviceCall s) (resumeAdvice s)

end ChangeReview.Workflow
