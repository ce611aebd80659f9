import ChangeReview.Proofs.Order.FirstSeen
import ChangeReview.Proofs.Review.FiledAnalyses
import ChangeReview.Proofs.Review.SortedFixes
import ChangeReview.Proofs.Workflow.Course

/-!
# What every report keeps to

Whatever a backend answers and however the scanner ends, a report lists its fixes by severity and
from one source, files at most fifteen analyses by their paths, says something in its summary, and
gives one to five recommendations. Each of these holds of every source that the part may come from.
The analyses stand under the paths of the files that were analyzed, with the line counts that were
measured: a reply has its say about the paths that it names, and about nothing else of an analysis
than the rest.
-/
namespace ChangeReview

namespace Workflow

variable {c : Context} {more : List Exchange}

/-! ## Analyses -/

/-- The analyses at the end are filed, and no more than are made by default. -/
theorem AnalysesFrom.isFiled {defaults analyses : FileAnalyses}
    (hdefaults : FileAnalyses.ofFiles (analyzedFiles c) = .ok defaults)
    (h : AnalysesFrom c defaults more analyses) : analyses.IsFiled ∧ analyses.length ≤ maxAnalyzed := by
  obtain ⟨hfiled, hlength⟩ := FileAnalyses.isFiled_ofFiles hdefaults
  have hmost : defaults.length ≤ maxAnalyzed := Nat.le_trans hlength (List.length_take_le _ _)
  cases h with
  | unasked => exact ⟨hfiled, hmost⟩
  | refused => exact ⟨hfiled, hmost⟩
  | unread => exact ⟨hfiled, hmost⟩
  | read _ hread =>
    obtain ⟨hupdated, hpaths⟩ := hfiled.update (Reply.isAbout_fileAnalyses hread)
    have hsame := congrArg List.length hpaths
    simp only [FileAnalyses.paths, List.length_map] at hsame
    exact ⟨hupdated, by omega⟩

/-! ## Fixes -/

theorem isSorted_listedFixes (files : List ChangedFile) (given : List Fix) :
    Fix.IsSorted (listedFixes c files given) := by
  unfold listedFixes
  split
  · exact Fix.isSorted_sort _
  · exact Fix.isSorted_prioritize _ _

/-- The fix for credentials counts as one of the model. -/
theorem allFrom_listedFixes {files : List ChangedFile} {given : List Fix}
    (h : Fix.AllFrom .model given) : Fix.AllFrom .model (listedFixes c files given) := by
  unfold listedFixes
  split
  · next fix hfix =>
    refine Fix.AllFrom.sort fun f hf => ?_
    rcases List.mem_append.mp hf with hf | hf
    · exact h.prioritize _ f hf
    · obtain rfl := List.mem_singleton.mp hf
      exact (Fix.credentialFix_kind hfix).2
  · exact h.prioritize _

theorem allFrom_fixesOfReply {t : Text} {given : List Fix} (h : fixesOfReply t = .ok given) :
    Fix.AllFrom .model given := by
  obtain ⟨entries, -, hentries⟩ := exists_of_bind_eq_ok h
  exact Fix.allFrom_ofEntries hentries

theorem FixesFrom.isSorted {files : List ChangedFile} {findings : List Finding} {fixes : List Fix}
    (h : FixesFrom c files findings more fixes) : Fix.IsSorted fixes := by
  cases h with
  | scanner => exact Fix.isSorted_sort _
  | unchanged => exact List.Pairwise.nil
  | refused => exact isSorted_listedFixes _ _
  | unread => exact isSorted_listedFixes _ _
  | read => exact isSorted_listedFixes _ _

theorem FixesFrom.allFrom {files : List ChangedFile} {findings : List Finding} {fixes : List Fix}
    (h : FixesFrom c files findings more fixes) :
    Fix.AllFrom (if findings = [] then .model else .scanner) fixes := by
  have hnone : Fix.AllFrom .model [] := by simp [Fix.AllFrom]
  cases h with
  | scanner hfindings =>
    rw [if_neg hfindings]
    exact (Fix.allFrom_findings findings).sort
  | unchanged hfindings =>
    rw [if_pos hfindings]
    exact hnone
  | refused hfindings =>
    rw [if_pos hfindings]
    exact allFrom_listedFixes hnone
  | unread hfindings =>
    rw [if_pos hfindings]
    exact allFrom_listedFixes hnone
  | read hfindings _ _ hread =>
    rw [if_pos hfindings]
    exact allFrom_listedFixes (allFrom_fixesOfReply hread)

/-! ## The summary and recommendations -/

theorem countSummary_ne_nil {files additions deletions fixes : Int} {title : Option Text} {t : Text}
    (h : countSummary files additions deletions fixes title = .ok t) : t ≠ [] := by
  unfold countSummary at h
  obtain ⟨added, -, h⟩ := exists_of_bind_eq_ok h
  obtain ⟨removed, -, h⟩ := exists_of_bind_eq_ok h
  have hend : (" fixes identified." : Text) ≠ [] := by decide
  rcases title with _ | (_ | ⟨first, rest⟩)
  · obtain rfl := Except.ok.inj h
    exact List.append_ne_nil_of_right_ne_nil _ hend
  · obtain rfl := Except.ok.inj h
    exact List.append_ne_nil_of_right_ne_nil _ hend
  · obtain rfl := Except.ok.inj h
    exact List.append_ne_nil_of_right_ne_nil _ (List.cons_ne_nil _ _)

theorem SummaryFrom.ne_nil {s : State} {files : List ChangedFile} {asked : Except Fault Call}
    {summary : Text} (h : SummaryFrom files (stateSummary s) asked more summary) : summary ≠ [] := by
  cases h with
  | unchanged _ hcounts => exact countSummary_ne_nil hcounts
  | refused _ _ hcounts => exact countSummary_ne_nil hcounts
  | blank _ _ hcounts => exact countSummary_ne_nil hcounts
  | read _ _ htext => exact htext

theorem length_standingAdvice (items : List Text) :
    1 ≤ (standingAdvice (items.take maxRecommendations)).length ∧
      (standingAdvice (items.take maxRecommendations)).length ≤ maxRecommendations := by
  unfold standingAdvice
  split
  · decide
  · next hsome =>
    rw [List.isEmpty_iff] at hsome
    exact ⟨List.length_pos_iff.mpr hsome, List.length_take_le _ _⟩

theorem AdviceFrom.length {files : List ChangedFile} {asked : Call} {items : List Text}
    (h : AdviceFrom files asked more items) : 1 ≤ items.length ∧ items.length ≤ maxRecommendations := by
  cases h with
  | unchanged => decide
  | refused => decide
  | read => exact length_standingAdvice _

/-! ## Documents -/

theorem nodup_distinctTexts (ts : List Text) : (distinctTexts ts).Nodup :=
  Order.nodup_foldl_addNew ts List.nodup_nil

theorem nodup_docsImpact {s : State} {impact : Report.DocsImpact} (h : docsImpact s = some impact) :
    impact.stages.Nodup := by
  unfold docsImpact at h
  split at h
  · split at h
    · obtain rfl := Option.some.inj h
      exact (nodup_distinctTexts s.docsStages).map fun t u heq => Value.text.inj heq
    · exact absurd h (by simp)
  · exact absurd h (by simp)

end Workflow

/-! ## Reports -/

namespace Report

/-- The sections that may be left out of a written report. -/
theorem mem_keys_optional {α : Type} (key name : String) (write : α → Value) (o : Option α) :
    name ∈ (optional key write o).map Prod.fst ↔ name = key ∧ o.isSome = true := by
  cases o <;> simp [optional]

theorem mem_keys_present {α : Type} (key name : String) (write : α → Value) (items : List α) :
    name ∈ (present key write items).map Prod.fst ↔ name = key ∧ items ≠ [] := by
  cases items <;> simp [present]

theorem mem_keys_scan (r : Report) (mode : Mode) (cost : Value) :
    "staticAnalysis" ∈ (r.toMembers mode cost).map Prod.fst ↔ r.scan.isSome = true := by
  simp [toMembers, mem_keys_optional, mem_keys_present, -List.mem_map]

/-- What every report keeps to. -/
structure IsLawful (report : Report) : Prop where
  /-- No fix stands behind one that is less urgent. -/
  sorted : report.fixes.Pairwise fun a b => a.severity.rank ≤ b.severity.rank
  oneSource : ∃ source, ∀ f ∈ report.fixes, f.source = source
  length_files : report.files.length ≤ 15
  nodup_files : (report.files.map Prod.fst).Nodup
  path_files : ∀ e ∈ report.files, e.2.path = .text e.1
  complexity_files : ∀ e ∈ report.files, ∃ n : Int, e.2.complexity = .int n ∧ 1 ≤ n ∧ n ≤ 5
  summary : ∃ t : Text, report.summary = .text t ∧ t ≠ []
  recommendations : 1 ≤ report.recommendations.length ∧ report.recommendations.length ≤ 5
  nodup_stages : ∀ impact, report.docs = some impact → impact.stages.Nodup

end Report

namespace Workflow

/-- A state that came about in a run makes a lawful report. -/
theorem Course.isLawful {scanner : Scan.Outcome} {c : Context} {filed fixed told advised : List Exchange}
    {t : State} {report : Report} (hcourse : Course scanner c filed fixed told advised t)
    (htells : Tells t report) : report.IsLawful := by
  obtain ⟨defaults, hdefaults, hanalyses⟩ := hcourse.analyses
  obtain ⟨hfiled, hlength⟩ := hanalyses.isFiled hdefaults
  have hadvice := hcourse.recommendations.length
  constructor
  · rw [htells.fixes]
    exact List.pairwise_map.mpr hcourse.fixes.isSorted
  · refine ⟨if t.findings = [] then .model else .scanner, fun f hf => ?_⟩
    rw [htells.fixes] at hf
    obtain ⟨fix, hfix, rfl⟩ := List.mem_map.mp hf
    exact hcourse.fixes.allFrom fix hfix
  · rw [htells.files, List.length_map]
    exact hlength
  · rw [htells.files, List.map_map]
    exact hfiled.nodup
  · intro e he
    rw [htells.files] at he
    obtain ⟨⟨path, a⟩, ha, rfl⟩ := List.mem_map.mp he
    exact congrArg Value.text (hfiled.isAbout _ ha).path_eq
  · intro e he
    rw [htells.files] at he
    obtain ⟨⟨path, a⟩, ha, rfl⟩ := List.mem_map.mp he
    exact ⟨a.complexity, rfl, (hfiled.isAbout _ ha).one_le, (hfiled.isAbout _ ha).le_five⟩
  · exact ⟨t.summary, htells.summary, hcourse.summary.ne_nil⟩
  · rw [htells.recommendations, List.length_map]
    exact hadvice
  · intro impact himpact
    exact nodup_docsImpact (htells.docs.symm.trans himpact)

/-- Every completed run makes a lawful report, whatever the backend answers and however the scanner
ends. Without a scan in the run there is no section about one, in the report or in its written
form. -/
theorem isLawful_of_completes {σ : Type} {w : World σ} {d : Disk} {origin : Origin} {c : Context}
    {run : Run σ} {report : Report} (h : Completes w d origin c run report) :
    report.IsLawful ∧ (c.scanEnabled.truthy = false → report.scan = none ∧
      ∀ mode cost, "staticAnalysis" ∉ (report.toMembers mode cost).map Prod.fst) := by
  obtain ⟨hpasses, htells⟩ := h.passes
  obtain ⟨filed, fixed, told, advised, -, hcourse⟩ := hpasses.course
  refine ⟨hcourse.isLawful htells, fun hoff => ?_⟩
  have hscan : report.scan = none := by
    rw [htells.scan, scanFigures, hcourse.context, hoff]
    rfl
  refine ⟨hscan, fun mode cost => ?_⟩
  rw [Report.mem_keys_scan, hscan]
  exact Bool.false_ne_true

/-- The quick run over a change that is not scanned. -/
def unscannedTalk : Ended Unit :=
  runQuick talkative () {} ⟨.text "any", .text "any"⟩ { settingContext with wantsScan := false }

/-- Its report holds the fix for credentials, and no section about a scan. -/
theorem isLawful_unscannedTalk : ∃ report, unscannedTalk.report = .ok report ∧
    report.fixes.map (·.severity) = [.critical] ∧ report.IsLawful ∧ report.scan = none := by
  have hends : (unscannedTalk.report.toOption.map fun r => r.fixes.map (·.severity)) =
      some [.critical] := by
    decide +kernel
  obtain ⟨report, hreport, hfixes⟩ := Option.map_eq_some_iff.mp hends
  have hreport := eq_ok_of_toOption hreport
  have htalk : unscannedTalk = ⟨unscannedTalk.run, .ok report⟩ := by rw [← hreport]
  obtain ⟨hlawful, hscan⟩ := isLawful_of_completes (.quick htalk)
  exact ⟨report, hreport, hfixes, hlawful, (hscan rfl).1⟩

end Workflow

/-! ## Measured facts -/

namespace Workflow

/-- A reply to the first stage is an object with a member for this path. -/
def Names (calls : List Exchange) (path : Text) : Prop :=
  ∃ e ∈ calls, e.call.tool = fileStage.name ∧ ∃ r members, e.answer = .ok r ∧
    Reply.extractObject r.text = .ok members ∧ path ∈ members.map Prod.fst

theorem Names.append {calls later : List Exchange} {path : Text} (h : Names calls path) :
    Names (calls ++ later) path := by
  obtain ⟨e, he, hnames⟩ := h
  exact ⟨e, List.mem_append_left later he, hnames⟩

/-- Analyses agree with what was measured of some files. -/
structure Measured (files : List ChangedFile) (calls : List Exchange) (analyses : FileAnalyses) :
    Prop where
  paths : analyses.paths = (files.map (·.path)).eraseDups
  entries : ∀ e ∈ analyses, ∃ f base, ChangedFile.lastAt e.1 files = some f ∧
    FileAnalysis.ofFile f = .ok base ∧ e.2.path = e.1 ∧ e.2.additions = f.additions ∧
    e.2.deletions = f.deletions ∧ (¬ Names calls e.1 → e.2 = base)

section Analyses

variable {c : Context} {defaults analyses : FileAnalyses} {more : List Exchange}

/-- The default analysis of a file states its counts. -/
theorem counts_ofFile {f : ChangedFile} {a : FileAnalysis} (h : FileAnalysis.ofFile f = .ok a) :
    a.additions = f.additions ∧ a.deletions = f.deletions := by
  unfold FileAnalysis.ofFile at h
  obtain ⟨summary, -, h⟩ := exists_of_bind_eq_ok h
  obtain ⟨complexity, -, h⟩ := exists_of_bind_eq_ok h
  obtain rfl := Except.ok.inj h
  exact ⟨rfl, rfl⟩

theorem measured_defaults {files : List ChangedFile} (h : FileAnalyses.ofFiles files = .ok defaults)
    (calls : List Exchange) : Measured files calls defaults where
  paths := FileAnalyses.paths_ofFiles h
  entries := by
    rintro ⟨path, a⟩ he
    obtain ⟨hfiled, -⟩ := FileAnalyses.isFiled_ofFiles h
    obtain ⟨f, hlast, hfile⟩ := FileAnalyses.lookup_ofFiles_eq h (hfiled.lookup he)
    obtain ⟨hadditions, hdeletions⟩ := counts_ofFile hfile
    exact ⟨f, a, hlast, hfile, (hfiled.isAbout _ he).path_eq, hadditions, hdeletions, fun _ => rfl⟩

theorem AnalysesFrom.measured (hdefaults : FileAnalyses.ofFiles (analyzedFiles c) = .ok defaults)
    (h : AnalysesFrom c defaults more analyses) : Measured (analyzedFiles c) more analyses := by
  cases h with
  | unasked => exact measured_defaults hdefaults _
  | refused => exact measured_defaults hdefaults _
  | unread => exact measured_defaults hdefaults _
  | @read r deep hasked hread =>
    obtain ⟨hfiled, -⟩ := FileAnalyses.isFiled_ofFiles hdefaults
    have habout := Reply.isAbout_fileAnalyses hread
    refine ⟨(hfiled.update habout).2.trans (FileAnalyses.paths_ofFiles hdefaults), ?_⟩
    rintro ⟨path, a⟩ he
    rcases FileAnalyses.mem_update he with hdefault | hdeep
    · exact (measured_defaults hdefaults _).entries _ hdefault
    · unfold Reply.fileAnalyses at hread
      split at hread
      · next members hmembers =>
        obtain ⟨base, entry, hbase, hmember, hentry⟩ := Reply.mem_analysesOf hread hdeep
        obtain ⟨f, hlast, hfile⟩ := FileAnalyses.lookup_ofFiles_eq hdefaults hbase
        obtain ⟨hadditions, hdeletions⟩ := Reply.counts_analysisOf hentry
        obtain ⟨hadditions', hdeletions'⟩ := counts_ofFile hfile
        refine ⟨f, base, hlast, hfile, (habout _ hdeep).1.path_eq, hadditions.trans hadditions',
          hdeletions.trans hdeletions', fun hunnamed => absurd ?_ hunnamed⟩
        exact ⟨_, List.mem_singleton.mpr rfl, rfl, r, members, rfl, hmembers,
          List.mem_map_of_mem hmember⟩
      · exact absurd hread (by simp)

end Analyses

/-- The entries of a report agree with what was measured of some files: there is one for each
distinct path in the order of the first files, it has the line counts of the last file with its path,
and it is the default one unless a reply named the path. -/
structure StatesMeasured (files : List ChangedFile) (calls : List Exchange)
    (entries : List (Text × Report.FileEntry)) : Prop where
  paths : entries.map Prod.fst = (files.map (·.path)).eraseDups
  entries : ∀ e ∈ entries, ∃ f base, ChangedFile.lastAt e.1 files = some f ∧
    FileAnalysis.ofFile f = .ok base ∧ e.2.path = .text e.1 ∧ e.2.additions = .int f.additions ∧
    e.2.deletions = .int f.deletions ∧ (¬ Names calls e.1 → e.2 = Report.FileEntry.ofAnalysis base)

theorem Measured.stated {files : List ChangedFile} {calls later : List Exchange}
    {analyses : FileAnalyses} (h : Measured files calls analyses) :
    StatesMeasured files (calls ++ later)
      (analyses.map fun e => (e.1, Report.FileEntry.ofAnalysis e.2)) where
  paths := by
    rw [List.map_map]
    exact h.paths
  entries := by
    intro e he
    obtain ⟨⟨path, a⟩, ha, rfl⟩ := List.mem_map.mp he
    obtain ⟨f, base, hlast, hfile, hpath, hadditions, hdeletions, hdefault⟩ := h.entries _ ha
    refine ⟨f, base, hlast, hfile, congrArg Value.text hpath, congrArg Value.int hadditions,
      congrArg Value.int hdeletions, fun hunnamed => ?_⟩
    exact congrArg Report.FileEntry.ofAnalysis (hdefault fun hnames => hunnamed hnames.append)

/-- The path that an entry stands under, and what it says of measured things. -/
def factsOf (e : Text × Report.FileEntry) : Text × Value × Value × Value :=
  (e.1, e.2.path, e.2.additions, e.2.deletions)

/-- What was measured of a path. -/
def measuredFacts (files : List ChangedFile) (path : Text) : Text × Value × Value × Value :=
  match ChangedFile.lastAt path files with
  | some f => (path, .text path, .int f.additions, .int f.deletions)
  | none => (path, .null, .null, .null)

theorem StatesMeasured.facts {files : List ChangedFile} {calls : List Exchange}
    {entries : List (Text × Report.FileEntry)} (h : StatesMeasured files calls entries) :
    entries.map factsOf = ((files.map (·.path)).eraseDups).map (measuredFacts files) := by
  rw [← h.paths, List.map_map]
  refine List.map_congr_left fun e he => ?_
  obtain ⟨f, base, hlast, -, hpath, hadditions, hdeletions, -⟩ := h.entries e he
  simp only [factsOf, measuredFacts, Function.comp_apply, hlast, hpath, hadditions, hdeletions]

section Completed

variable {σ σ' : Type} {w : World σ} {w' : World σ'} {d d' : Disk} {origin origin' : Origin}
  {c : Context} {run : Run σ} {run' : Run σ'} {report report' : Report}

theorem Completes.statesMeasured (h : Completes w d origin c run report) :
    StatesMeasured (analyzedFiles c) run.trace.exchanges report.files := by
  obtain ⟨hpasses, htells⟩ := h.passes
  obtain ⟨filed, fixed, told, advised, hcalls, hcourse⟩ := hpasses.course
  obtain ⟨defaults, hdefaults, hanalyses⟩ := hcourse.analyses
  rw [htells.files, hcalls]
  exact (hanalyses.measured hdefaults).stated

/-- The model cannot alter measured facts. Whatever two backends answer in completed runs over a
context, each report states what was measured of the analyzed files, so both have the same paths in
the same order with the same line counts. -/
theorem measured_facts_agree (h : Completes w d origin c run report)
    (h' : Completes w' d' origin' c run' report') :
    StatesMeasured (analyzedFiles c) run.trace.exchanges report.files ∧
      StatesMeasured (analyzedFiles c) run'.trace.exchanges report'.files ∧
      report'.files.map factsOf = report.files.map factsOf :=
  ⟨h.statesMeasured, h'.statesMeasured, h'.statesMeasured.facts.trans h.statesMeasured.facts.symm⟩

end Completed

/-- A world whose backend forges the counts of the changed file and invents another one. -/
def forgingWorld : World Unit where
  backend := {
    provider := .text "any"
    model := .text "any"
    invoke := fun here _ => (here, .ok
      ⟨"\x7b\"config.py\": \x7b\"additions\": 99\x7d, \"other.py\": \x7b\x7d\x7d", none⟩) }
  scanner := .notInstalled

/-- The run over the change of the settings in this world. -/
def forged : Ended Unit :=
  runQuick forgingWorld () {} ⟨.text "any", .text "any"⟩ settingContext

theorem exists_completes_forged : ∃ report,
    Completes forgingWorld {} ⟨.text "any", .text "any"⟩ settingContext forged.run report := by
  have hends : forged.report.toOption.isSome = true := by decide +kernel
  obtain ⟨report, hreport⟩ := Option.isSome_iff_exists.mp hends
  have hforged : forged = ⟨forged.run, .ok report⟩ := by rw [← eq_ok_of_toOption hreport]
  exact ⟨report, .quick hforged⟩

/-- The forged counts do not come through. -/
theorem measured_facts_agree_forged : ∃ report,
    Completes forgingWorld {} ⟨.text "any", .text "any"⟩ settingContext forged.run report ∧
      report.files.map factsOf =
        [(("config.py" : Text), Value.text "config.py", Value.int 30, Value.int 0)] := by
  obtain ⟨report, hforged⟩ := exists_completes_forged
  obtain ⟨told, htold⟩ := exists_completes_talk
  obtain ⟨-, hstates, -⟩ := measured_facts_agree htold hforged
  exact ⟨report, hforged, hstates.facts⟩

end Workflow

end ChangeReview
