import ChangeReview.Proofs.Coverage.BrokenReports
import ChangeReview.Proofs.Workflow.Outage

/-!
# Reports beside any files

Behind the last stage a run asks the repository for its tests and its coverage. Whatever stands in
the files that are asked for, the rest of the report is the same, and a file that holds no report only
leaves the coverage out. The run is lost just where a change touches code and the manifest is beyond
reading, or a report that breaks off stands before every other one.
-/
namespace ChangeReview.Workflow

open Coverage (IsAskable IsManifestBroken IsBroken IsPassedOver IsTame reportFiles detectTool)

/-- The change has a file of code or of tests. -/
def TouchesCode (files : List ChangedFile) : Prop :=
  ∃ f ∈ files, (TestPlan.isCodeFile f.path || TestPlan.isTestFile f.path) = true

/-- The files of a repository let its tests and its coverage be found. -/
structure Serves (d : Disk) (repository : Text) : Prop where
  manifest : ¬ IsManifestBroken d repository
  reports : ∀ tool, detectTool d repository = .ok (some tool) → ¬ IsBroken d repository reportFiles

theorem Serves.of_isTame {d : Disk} {repository : Text} (h : IsTame d repository) :
    Serves d repository where
  manifest := h.not_isManifestBroken
  reports _ _ := h.not_isBroken

section Search

variable {d : Disk} {repository : Text} {files : List ChangedFile}

theorem coverageOf_eq (d : Disk) (repository : Text) :
    TouchesCode files ∧ coverageOf d (.text repository) files = Coverage.report d repository ∨
      ¬ TouchesCode files ∧ coverageOf d (.text repository) files = .ok none := by
  unfold coverageOf TouchesCode
  rw [← List.any_eq_true]
  by_cases htouches : (files.any fun f => TestPlan.isCodeFile f.path || TestPlan.isTestFile f.path) = true
  · rw [if_pos htouches]
    exact .inl ⟨htouches, rfl⟩
  · rw [if_neg htouches]
    exact .inr ⟨htouches, rfl⟩

theorem suggestFor_ok (hdetect : ∃ framework, TestPlan.Framework.detect d repository = .ok framework) :
    ∃ tests, TestPlan.suggestFor d (.text repository) files = .ok tests := by
  unfold TestPlan.suggestFor
  split
  · exact ⟨[], rfl⟩
  · exact (bind_pure_ok_iff _).mpr hdetect

/-- A change without code gets no tests. -/
theorem suggestFor_of_not_touchesCode (h : ¬ TouchesCode files) :
    TestPlan.suggestFor d (.text repository) files = .ok [] := by
  have hnone : TestPlan.codeFiles files = [] := by
    refine List.filter_eq_nil_iff.mpr fun f hf hcode => h ⟨f, hf, ?_⟩
    simp_all
  unfold TestPlan.suggestFor
  rw [hnone, List.length_nil, if_pos (Nat.zero_le _)]
  rfl

/-- Tests and coverage are found just if the change touches no code or the files serve. -/
theorem search_ok_iff (h : IsAskable d repository) :
    ((∃ tests, TestPlan.suggestFor d (.text repository) files = .ok tests) ∧
        ∃ coverage, coverageOf d (.text repository) files = .ok coverage) ↔
      (TouchesCode files → Serves d repository) := by
  rcases @coverageOf_eq files d repository with ⟨htouches, hcoverage⟩ | ⟨hquiet, hcoverage⟩
  · rw [hcoverage, h.search_ends_iff]
    constructor
    · rintro ⟨-, hmanifest, hreports⟩ -
      exact ⟨hmanifest, hreports⟩
    · intro hserves
      obtain ⟨hmanifest, hreports⟩ := hserves htouches
      exact ⟨suggestFor_ok (h.detect_ok_iff.mpr hmanifest), hmanifest, hreports⟩
  · rw [hcoverage, suggestFor_of_not_touchesCode hquiet]
    exact iff_of_true ⟨⟨[], rfl⟩, none, rfl⟩ fun htouches => absurd htouches hquiet

/-- The coverage is left out just if there is no code, no tool, or no file that holds a report. -/
theorem coverageOf_none_iff (h : IsAskable d repository) {coverage : Option CoverageReport}
    (hcoverage : coverageOf d (.text repository) files = .ok coverage) :
    coverage = none ↔ (TouchesCode files → ∀ tool, detectTool d repository = .ok (some tool) →
      ∀ file ∈ reportFiles, IsPassedOver d repository file) := by
  rcases @coverageOf_eq files d repository with ⟨htouches, heq⟩ | ⟨hquiet, heq⟩
  · rw [heq] at hcoverage
    obtain ⟨tool, htool, hcoverage⟩ := exists_of_bind_eq_ok hcoverage
    cases tool with
    | none =>
      obtain rfl := Except.ok.inj hcoverage
      exact iff_of_true rfl fun _ tool hsome => absurd (htool.symm.trans hsome) (by simp)
    | some tool =>
      have hcoverage : Coverage.firstReport d repository reportFiles = .ok coverage := hcoverage
      have hnone := (Coverage.firstReport_search h.reportTexts).2
      rw [hcoverage, Except.ok.injEq] at hnone
      exact hnone.trans ⟨fun hall _ _ _ => hall, fun hall => hall htouches tool htool⟩
  · obtain rfl := Except.ok.inj (heq.symm.trans hcoverage)
    exact iff_of_true rfl fun htouches => absurd htouches hquiet

end Search

/-! ## Reports -/

/-- The report of a state without tests and coverage, from its cost and the notice about it. -/
def bareReport (origin : Origin) (s : State) (cost : Float) (notice : List Text) : Report where
  summary := .text s.summary
  files := s.analyses.map fun e => (e.1, Report.FileEntry.ofAnalysis e.2)
  fixes := s.fixes.map Report.FixEntry.ofFix
  recommendations := s.recommendations.map .text
  insights := (s.insights ++ tokenNotice s ++ notice).map .text
  reasoning := s.reasoning.map .text
  tokens := .int s.tokens
  provider := origin.provider
  model := origin.model
  mode := s.context.mode
  cost := .float cost
  docs := docsImpact s
  scan := scanFigures s
  costs := (Infra.estimates s.files).map Report.CostEntry.ofEstimate

/-- The tokens of a state have this cost, and this notice is given about it. -/
def IsCosted (origin : Origin) (s : State) (cost : Float) (notice : List Text) : Prop :=
  Usage.estimateCost origin.model s.inputTokens s.outputTokens = .ok cost ∧
    costNotice s cost = .ok notice

/-- A report is the bare one with the tests and the coverage that were found. -/
theorem reportOf_eq_ok_iff {d : Disk} {origin : Origin} {s : State} {report : Report} :
    reportOf d origin s = .ok report ↔ ∃ cost notice tests coverage,
      IsCosted origin s cost notice ∧
        TestPlan.suggestFor d s.context.repository s.files = .ok tests ∧
        coverageOf d s.context.repository s.files = .ok coverage ∧
        report = { bareReport origin s cost notice with
          tests := tests.map Report.TestEntry.ofSuggestion, coverage } := by
  constructor
  · intro h
    obtain ⟨cost, hcost, h⟩ := exists_of_bind_eq_ok h
    obtain ⟨notice, hnotice, h⟩ := exists_of_bind_eq_ok h
    obtain ⟨tests, htests, h⟩ := exists_of_bind_eq_ok h
    obtain ⟨coverage, hcoverage, h⟩ := exists_of_bind_eq_ok h
    exact ⟨cost, notice, tests, coverage, ⟨hcost, hnotice⟩, htests, hcoverage,
      (Except.ok.inj h).symm⟩
  · rintro ⟨cost, notice, tests, coverage, ⟨hcost, hnotice⟩, htests, hcoverage, rfl⟩
    unfold reportOf
    rw [hcost, ok_bind, hnotice, ok_bind, htests, ok_bind, hcoverage]
    rfl

/-- A run whose stages are over ends with the report of its last state. -/
theorem EndsAs.report_eq {σ : Type} {w : World σ} {here : σ} {d : Disk} {origin : Origin}
    {c : Context} {e : Ended σ} {last : Run σ} (h : EndsAs w here d origin c e)
    (hall : (Run.start here c).advanceAll w stages = (last, .ok ())) :
    e.report = reportOf d origin last.state := by
  rw [h.eq_quick]
  unfold runQuick
  rw [hall]
  rfl

/-- Whatever the files of a repository hold, a run whose stages are over has a report just if its cost
can be told and, for a change that touches code, the files serve. Files with nothing extreme in them
do. On every disk it is the same report but for its tests and its coverage, which is left out just if
no file holds a report, no tool measures it, or no code is touched. -/
theorem contents_keep_report {σ : Type} {w : World σ} {here : σ} {origin : Origin} {c : Context}
    {last : Run σ} {repository : Text} (hrepository : c.repository = .text repository)
    (hall : (Run.start here c).advanceAll w stages = (last, .ok ())) :
    ∃ bare : Report, ∀ (d : Disk) (e : Ended σ), EndsAs w here d origin c e →
      IsAskable d repository →
      ((∃ report, e.report = .ok report) ↔
        (∃ cost notice, IsCosted origin last.state cost notice) ∧
          (TouchesCode c.changedFiles → Serves d repository)) ∧
      (IsTame d repository → Serves d repository) ∧
      ∀ report, e.report = .ok report →
        report = { bare with tests := report.tests, coverage := report.coverage } ∧
        (report.coverage = none ↔ (TouchesCode c.changedFiles →
          ∀ tool, detectTool d repository = .ok (some tool) →
            ∀ file ∈ reportFiles, IsPassedOver d repository file)) := by
  obtain ⟨hcontext, hfiles⟩ := Run.last_state hall
  have hreport : ∀ {d : Disk} {e : Ended σ} {report : Report}, EndsAs w here d origin c e →
      (e.report = .ok report ↔ ∃ cost notice tests coverage,
        IsCosted origin last.state cost notice ∧
          TestPlan.suggestFor d (.text repository) c.changedFiles = .ok tests ∧
          coverageOf d (.text repository) c.changedFiles = .ok coverage ∧
          report = { bareReport origin last.state cost notice with
            tests := tests.map Report.TestEntry.ofSuggestion, coverage }) := by
    intro d e report hends
    rw [hends.report_eq hall, reportOf_eq_ok_iff, hcontext, hfiles, hrepository]
  -- the cost and its notice do not depend on the disk, so that there is one bare report
  by_cases hcosted : ∃ cost notice, IsCosted origin last.state cost notice
  · obtain ⟨cost, notice, hcost⟩ := hcosted
    refine ⟨bareReport origin last.state cost notice, fun d e hends haskable => ⟨?_, .of_isTame, ?_⟩⟩
    · rw [← search_ok_iff haskable]
      constructor
      · rintro ⟨report, h⟩
        obtain ⟨cost, notice, tests, coverage, hcost, htests, hcoverage, -⟩ := (hreport hends).mp h
        exact ⟨⟨cost, notice, hcost⟩, ⟨tests, htests⟩, coverage, hcoverage⟩
      · rintro ⟨-, ⟨tests, htests⟩, coverage, hcoverage⟩
        exact ⟨_, (hreport hends).mpr ⟨cost, notice, tests, coverage, hcost, htests, hcoverage, rfl⟩⟩
    · intro report h
      obtain ⟨cost', notice', tests, coverage, hcost', -, hcoverage, rfl⟩ := (hreport hends).mp h
      obtain rfl := Except.ok.inj (hcost.1.symm.trans hcost'.1)
      obtain rfl := Except.ok.inj (hcost.2.symm.trans hcost'.2)
      exact ⟨rfl, coverageOf_none_iff haskable hcoverage⟩
  · refine ⟨bareReport origin last.state 0.0 [], fun d e hends haskable =>
      ⟨?_, .of_isTame, fun report h => ?_⟩⟩
    · refine iff_of_false ?_ fun hfits => hcosted hfits.1
      rintro ⟨report, h⟩
      obtain ⟨cost, notice, -, -, hcost, -⟩ := (hreport hends).mp h
      exact hcosted ⟨cost, notice, hcost⟩
    · obtain ⟨cost, notice, -, -, hcost, -⟩ := (hreport hends).mp h
      exact absurd ⟨cost, notice, hcost⟩ hcosted

/-! ## A change of settings beside some files -/

/-- The run over the change of the settings, without a backend, passes all stages and costs nothing. -/
theorem advanceAll_configContext : ∃ last : Run Unit,
    (Run.start () configContext).advanceAll downWorld stages = (last, .ok ()) ∧
      IsCosted ⟨.text "any", .text "any"⟩ last.state 0.0 [] := by
  obtain ⟨filed, scanned, hfiled, hscanned, hnone, -⟩ := scanned_configContext
  have hgoes := continues_filed isDown_downWorld hfiled
  obtain ⟨hcontinues, -, -⟩ := continues_scanned hgoes hscanned hnone
  rcases advanceAll_outage isDown_downWorld hfiled hscanned hcontinues with
    ⟨last, hall, hlast, -, -⟩ | ⟨last, fault, -, hunmet⟩
  · obtain ⟨-, hinput, houtput⟩ := tokens_of_isDown isDown_downWorld hall
    have hvalid : last.state.context.IsValid := by
      rw [hlast.context]
      exact ⟨configArguments, rfl⟩
    refine ⟨last, hall, ?_, (notices_unspent hvalid hinput houtput).2⟩
    rw [hinput, houtput]
    rfl
  · exact absurd ⟨countsFit_configContext.changed, countsFit_configContext.totals⟩ hunmet

theorem touchesCode_configContext : TouchesCode configContext.changedFiles :=
  ⟨configFile, List.mem_singleton_self _, by decide⟩

theorem isAskable_here (d : Disk) : IsAskable d "." := by
  refine Coverage.isAskable_of_isShort (fun name hname => ?_) d
  have hshort : ∀ name ∈ reportNames,
      (Text.toUtf8 (Text.tidyPath (Text.joinPath "." name))).size ≤ maxPathBytes ∧
        ∀ part ∈ Text.pathComponents (Text.joinPath "." name),
          (Text.toUtf8 part).size ≤ maxNameBytes := by decide +kernel
  exact ⟨(hshort name hname).1, (hshort name hname).2⟩

/-- A repository that measures its coverage, in which no file but the settings is of any use: the
manifest and a summary are cut short, a tracefile closes no record, the rates are no text, and another
summary has no total. -/
def uselessDisk : Disk where
  entries := [
    (["package.json"], .file (Text.toUtf8 "\x7b") 0),
    (["setup.cfg"], .file (Text.toUtf8 "[coverage:run]\n") 0),
    (["coverage"], .folder),
    (["coverage", "coverage-summary.json"], .file (Text.toUtf8 "[1, 2") 0),
    (["coverage", "lcov.info"], .file (Text.toUtf8 "SF:a.py\nLH:x\n") 0),
    (["coverage.xml"], .file ⟨#[0xff]⟩ 0),
    (["coverage.json"], .file (Text.toUtf8 "[]") 0)]

/-- Beside useless files the report is made, without coverage. -/
theorem contents_keep_report_useless :
    configContext.repository = .text "." ∧
      (∃ last : Run Unit, (Run.start () configContext).advanceAll downWorld stages = (last, .ok ())) ∧
      IsAskable uselessDisk "." ∧ detectTool uselessDisk "." = .ok (some "pytest-cov") ∧
      ∃ report, (downRun uselessDisk).report = .ok report ∧ report.coverage = none := by
  obtain ⟨last, hall, hcosted⟩ := advanceAll_configContext
  have hends : EndsAs downWorld () uselessDisk ⟨.text "any", .text "any"⟩ configContext
      (downRun uselessDisk) := .quick
  have haskable := isAskable_here uselessDisk
  have htool : detectTool uselessDisk "." = .ok (some "pytest-cov") :=
    eq_ok_of_toOption (by decide +kernel)
  have hmanifest : ¬ IsManifestBroken uselessDisk "." :=
    haskable.detectTool_ok_iff.mp ⟨_, htool⟩
  have hnothing : (Coverage.firstReport uselessDisk "." reportFiles).toOption.map Option.isNone =
      some true := by decide +kernel
  have hfirst : Coverage.firstReport uselessDisk "." reportFiles = .ok none := by
    generalize Coverage.firstReport uselessDisk "." reportFiles = found at hnothing ⊢
    rcases found with fault | (_ | report)
    · exact absurd hnothing (by simp [Except.toOption])
    · rfl
    · exact absurd hnothing (by simp [Except.toOption])
  obtain ⟨hends', hnone⟩ := Coverage.firstReport_search haskable.reportTexts
  obtain ⟨bare, hbare⟩ := @contents_keep_report Unit downWorld () ⟨.text "any", .text "any"⟩
    configContext last "." rfl hall
  obtain ⟨hok, -, hreport⟩ := hbare uselessDisk _ hends haskable
  obtain ⟨report, hmade⟩ := hok.mpr
    ⟨⟨_, _, hcosted⟩, fun _ => ⟨hmanifest, fun _ _ => hends'.mp ⟨none, hfirst⟩⟩⟩
  exact ⟨rfl, ⟨last, hall⟩, haskable, htool, report, hmade,
    (hreport report hmade).2.mpr fun _ _ _ => hnone.mp hfirst⟩

/-- A tracefile of one line with too many hits. -/
def overflowingTrace : Text :=
  "SF:a.py\nLH:1".toList ++ List.replicate 400 '0' ++ "\nLF:1\nend_of_record\n".toList

/-- A repository that measures its coverage, with that tracefile. -/
def overflowingDisk : Disk where
  entries := [
    (["setup.cfg"], .file (Text.toUtf8 "[coverage:run]\n") 0),
    (["coverage"], .folder),
    (["coverage", "lcov.info"], .file (Text.toUtf8 overflowingTrace) 0)]

/-- The search breaks off at the tracefile, behind a summary that is missing. -/
theorem isBroken_overflowingDisk : IsBroken overflowingDisk "." reportFiles := by
  have hreturn : Text.NoReturn overflowingTrace := by
    unfold Text.NoReturn
    decide +kernel
  have htrace : Coverage.traces overflowingTrace = [⟨"a.py", 10 ^ 400, 1⟩] := by decide +kernel
  have hmany : Coverage.Overflows (10 ^ 400) 1 := by
    unfold Coverage.Overflows
    decide +kernel
  refine ⟨[("coverage/coverage-summary.json", .summary)], ("coverage/lcov.info", .tracefile),
    reportFiles.drop 2, rfl, List.forall_mem_singleton.mpr fun t ht => ?_, overflowingTrace,
    Repository.fileText_held hreturn rfl rfl, ?_⟩
  · exact absurd ((Repository.fileText_missing rfl).symm.trans ht) (by simp)
  · have hunrated : Coverage.IsUnrated (Coverage.traces overflowingTrace) := by
      rw [htrace]
      exact .inr ⟨_, List.mem_singleton_self _, hmany⟩
    exact hunrated

/-- Beside a tracefile with too many hits, all stages pass and the report is lost. -/
theorem manyHits_lose_report :
    (∃ last : Run Unit, (Run.start () configContext).advanceAll downWorld stages = (last, .ok ())) ∧
      IsAskable overflowingDisk "." ∧ ¬ ∃ report, (downRun overflowingDisk).report = .ok report := by
  obtain ⟨last, hall, -⟩ := advanceAll_configContext
  obtain ⟨hcontext, hfiles⟩ := Run.last_state hall
  have hends : EndsAs downWorld () overflowingDisk ⟨.text "any", .text "any"⟩ configContext
      (downRun overflowingDisk) := .quick
  have haskable := isAskable_here overflowingDisk
  have htool : detectTool overflowingDisk "." = .ok (some "pytest-cov") :=
    eq_ok_of_toOption (by decide +kernel)
  refine ⟨⟨last, hall⟩, haskable, ?_⟩
  rintro ⟨report, hreport⟩
  rw [hends.report_eq hall, reportOf_eq_ok_iff, hcontext, hfiles] at hreport
  obtain ⟨-, -, tests, coverage, -, htests, hcoverage, -⟩ := hreport
  have hserves := (search_ok_iff haskable).mp ⟨⟨tests, htests⟩, coverage, hcoverage⟩
  exact (hserves touchesCode_configContext).reports _ htool isBroken_overflowingDisk

end ChangeReview.Workflow
