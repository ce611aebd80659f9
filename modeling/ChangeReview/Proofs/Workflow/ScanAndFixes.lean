import ChangeReview.Proofs.Scan.Tallies
import ChangeReview.Proofs.Workflow.ReportLaws

/-!
# The scan and the fixes of a report

The figures of the scan are counted in the second stage and the fixes are made in the third, both
from the findings that the second stage keeps. Where some finding is kept, the fixes are those of the
findings and the figures count the fixes; where none is, the figures count nothing and no fix comes
from the scanner.
-/
namespace ChangeReview

namespace Report

/-- The figures count these fixes. -/
structure ScanFigures.Count (figures : ScanFigures) (fixes : List FixEntry) : Prop where
  total : figures.total = .int fixes.length
  errors : figures.errors = .int (fixes.countP fun f => f.severity = .critical)
  warnings : figures.warnings = .int (fixes.countP fun f => f.severity = .warning)
  critical : figures.critical.length = fixes.countP fun f => f.severity = .critical

/-- The entry of the fix that a finding is converted to. -/
def FixEntry.ofFinding (f : Finding) : FixEntry := ofFix f.toFix

@[simp] theorem FixEntry.severity_ofFinding (f : Finding) :
    (FixEntry.ofFinding f).severity = f.level.severity := rfl

/-- The fixes are those of the findings, and fixes of one severity have the order of their
findings. -/
structure Lists (fixes : List FixEntry) (findings : List Finding) : Prop where
  perm : fixes.Perm (findings.map FixEntry.ofFinding)
  inOrder : ∀ severity : Severity, (fixes.filter fun f => f.severity = severity) =
    (findings.map FixEntry.ofFinding).filter fun f => f.severity = severity

/-- The sorted fixes of findings are those fixes. -/
theorem lists_sort (findings : List Finding) :
    Lists ((Fix.sort (findings.map Finding.toFix)).map FixEntry.ofFix) findings where
  perm := by
    have hsorted := (List.mergeSort_perm (findings.map Finding.toFix) fun a b =>
      a.severity.rank ≤ b.severity.rank).map FixEntry.ofFix
    rwa [List.map_map] at hsorted
  inOrder severity := by
    have hentries : ∀ fixes : List Fix, ((fixes.map FixEntry.ofFix).filter fun f =>
        f.severity = severity) =
          (fixes.filter fun f => f.severity = severity).map FixEntry.ofFix :=
      fun fixes => List.filter_map
    rw [hentries, Fix.filter_sort, ← hentries, List.map_map]
    rfl

/-- The counts of findings are those of their fixes. -/
theorem Lists.countP {fixes : List FixEntry} {findings : List Finding} (h : Lists fixes findings)
    (level : FindingLevel) :
    (fixes.countP fun f => f.severity = level.severity) =
      findings.countP fun f => f.level = level := by
  rw [h.perm.countP_eq, List.countP_map]
  refine List.countP_congr fun f _ => ?_
  rw [Function.comp_apply, decide_eq_true_eq, decide_eq_true_eq, FixEntry.severity_ofFinding]
  exact FindingLevel.severity_injective.eq_iff

end Report

namespace Workflow

open Report (Lists)

/-- The findings that a run keeps: those of the scanner about changed files, in its order. -/
def keptFindings (scanner : Scan.Outcome) (c : Context) : List Finding :=
  match Scan.run (scanCommand c) scanner with
  | .ok result => result.findings.filter fun f =>
      (f.concerns (Finding.normalPaths (c.changedFiles.map (·.path)))).toOption == some true
  | .error _ => []

variable {scanner : Scan.Outcome} {c : Context}

/-- A scan that was asked for leaves the findings that are kept and their counts. -/
theorem FindingsFrom.kept_of_enabled {findings : Option (List Finding)}
    {scan : Option FindingsSummary} (h : FindingsFrom c c.changedFiles scanner findings scan)
    (hon : c.scanEnabled.truthy = true) :
    findings = some (keptFindings scanner c) ∧
      ∃ s, scan = some s ∧ s.Tallies (keptFindings scanner c) := by
  unfold keptFindings
  cases h with
  | off hoff => exact absurd (hon.symm.trans hoff) (by simp)
  | failed _ hfailed =>
    rw [hfailed]
    exact ⟨rfl, _, rfl, FindingsSummary.tallies_nil⟩
  | kept _ hrun hkept hsummary =>
    rw [hrun]
    obtain rfl := Finding.keep_eq_filter hkept
    exact ⟨rfl, _, rfl, FindingsSummary.tallies_ofFindings hsummary⟩

/-- Where there are findings, the fixes are theirs. -/
theorem FixesFrom.of_findings {files : List ChangedFile} {findings : List Finding}
    {more : List Exchange} {fixes : List Fix} (h : FixesFrom c files findings more fixes)
    (hsome : findings ≠ []) : fixes = Fix.sort (findings.map Finding.toFix) := by
  cases h with
  | scanner => rfl
  | unchanged hnone => exact absurd hnone hsome
  | refused hnone => exact absurd hnone hsome
  | unread hnone => exact absurd hnone hsome
  | read hnone => exact absurd hnone hsome

variable {σ : Type} {w : World σ} {d : Disk} {origin : Origin} {run : Run σ} {report : Report}

/-- The figures of counted findings count the fixes that list these findings. -/
theorem count_of_tallies {t : State} {s : FindingsSummary} {kept : List Finding}
    {fixes : List Report.FixEntry} (hon : t.context.scanEnabled.truthy = true)
    (hscan : t.scan = some s) (htallies : s.Tallies kept) (hlists : Lists fixes kept) :
    ∃ figures, scanFigures t = some figures ∧ figures.Count fixes := by
  have hfigures : scanFigures t = some {
      enabled := .bool true
      total := .int s.total
      errors := .int s.errors
      warnings := .int s.warnings
      critical := s.critical.map fun f => .text f.describe } := by
    rw [scanFigures, if_pos hon, hscan]
    rfl
  refine ⟨_, hfigures, ?_, ?_, ?_, ?_⟩
  · rw [htallies.total, hlists.perm.length_eq, List.length_map]
  · rw [htallies.errors, ← hlists.countP .error]
    rfl
  · rw [htallies.warnings, ← hlists.countP .warning]
    rfl
  · rw [List.length_map, htallies.critical, ← List.countP_eq_length_filter,
      ← hlists.countP .error]
    rfl

/-- The figures of the scan and the fixes of a report agree: where the run keeps some finding, the
fixes are those of the findings that are kept, all from the scanner, and the figures count them;
where it keeps none, the figures count nothing and no fix comes from the scanner. -/
theorem scan_agrees_with_fixes (h : Completes w d origin c run report)
    (hon : c.scanEnabled.truthy = true) :
    ∃ figures, report.scan = some figures ∧
      (keptFindings w.scanner c ≠ [] →
        figures.Count report.fixes ∧ figures.errors = .int report.criticalCount ∧
        (∀ f ∈ report.fixes, f.source = .scanner) ∧
        Lists report.fixes (keptFindings w.scanner c)) ∧
      (keptFindings w.scanner c = [] →
        figures.Count [] ∧ ∀ f ∈ report.fixes, f.source ≠ .scanner) := by
  obtain ⟨hpasses, htells⟩ := h.passes
  obtain ⟨_, _, _, _, -, hcourse⟩ := hpasses.course
  have hcontext : run.state.context.scanEnabled.truthy = true := by
    rw [hcourse.context]
    exact hon
  obtain ⟨findings, hfrom, hfindings⟩ := hcourse.findings
  rw [hcourse.files] at hfrom
  obtain ⟨hkept, s, hscan, htallies⟩ := hfrom.kept_of_enabled hon
  have hfixes := hcourse.fixes
  rw [hfindings, hkept, Option.getD_some] at hfixes
  have hsource : ∀ f ∈ report.fixes,
      f.source = if keptFindings w.scanner c = [] then .model else .scanner := by
    rw [htells.fixes]
    exact List.forall_mem_map.mpr hfixes.allFrom
  by_cases hnone : keptFindings w.scanner c = []
  · have hlists : Lists [] [] := ⟨List.Perm.refl [], fun _ => rfl⟩
    rw [hnone] at htallies
    obtain ⟨figures, hfigures, hcount⟩ := count_of_tallies hcontext hscan htallies hlists
    refine ⟨figures, htells.scan.trans hfigures, fun hsome => absurd hnone hsome, fun _ => ⟨hcount, ?_⟩⟩
    intro f hf
    rw [hsource f hf, if_pos hnone]
    decide
  · have hlists : Lists report.fixes (keptFindings w.scanner c) := by
      rw [htells.fixes, hfixes.of_findings hnone]
      exact Report.lists_sort _
    obtain ⟨figures, hfigures, hcount⟩ := count_of_tallies hcontext hscan htallies hlists
    refine ⟨figures, htells.scan.trans hfigures, fun _ => ⟨hcount, hcount.errors, ?_, hlists⟩,
      fun hnil => absurd hnil hnone⟩
    intro f hf
    rw [hsource f hf, if_neg hnone]

/-- A world whose scanner reports three findings, two of them of one level and one about a file that
was not changed. -/
def findingWorld : World Unit where
  backend := talkative.backend
  scanner := .finished (Value.writeLine (.members [("results", .list [
    .members [("path", .text "config.py"), ("check_id", .text "first"),
      ("extra", .members [("severity", .text "warning")])],
    .members [("path", .text "other.py"), ("check_id", .text "second")],
    .members [("path", .text "/repo/config.py"), ("check_id", .text "third"),
      ("extra", .members [("severity", .text "ERROR")])],
    .members [("path", .text "config.py"), ("check_id", .text "fourth"),
      ("extra", .members [("severity", .text "WARNING")])]])])) [] 1

def findingRun : Ended Unit :=
  runQuick findingWorld () {} ⟨.text "any", .text "any"⟩ settingContext

/-- Three of four findings are kept, and the figures and fixes of the report are theirs. -/
theorem scan_agrees_with_fixes_findings : ∃ report figures,
    Completes findingWorld {} ⟨.text "any", .text "any"⟩ settingContext findingRun.run report ∧
      settingContext.scanEnabled.truthy = true ∧
      (keptFindings findingWorld.scanner settingContext).map (·.rule) =
        [.text "first", .text "third", .text "fourth"] ∧
      report.scan = some figures ∧ figures.Count report.fixes ∧
      (∀ f ∈ report.fixes, f.source = .scanner) ∧
      Lists report.fixes (keptFindings findingWorld.scanner settingContext) := by
  have hends : findingRun.report.toOption.isSome = true := by decide +kernel
  obtain ⟨report, hreport⟩ := Option.isSome_iff_exists.mp hends
  have hrun : findingRun = ⟨findingRun.run, .ok report⟩ := by
    rw [← eq_ok_of_toOption hreport]
  have hkept : (keptFindings findingWorld.scanner settingContext).map (·.rule) =
      [.text "first", .text "third", .text "fourth"] := by decide +kernel
  have hsome : keptFindings findingWorld.scanner settingContext ≠ [] := by
    intro hnone
    rw [hnone] at hkept
    exact absurd hkept (by simp)
  have hcompletes := Completes.quick hrun
  obtain ⟨figures, hscan, hagree, -⟩ := scan_agrees_with_fixes hcompletes (by decide)
  obtain ⟨hcount, -, hsource, hlists⟩ := hagree hsome
  exact ⟨report, figures, hcompletes, by decide, hkept, hscan, hcount, hsource, hlists⟩

end Workflow

end ChangeReview
