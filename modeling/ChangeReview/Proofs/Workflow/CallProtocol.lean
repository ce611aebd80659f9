import ChangeReview.Proofs.Workflow.Course

/-!
# The calls of a run

Four stages may call the backend, each of them at most once and for the sake of its own tool. Which
of them do is settled by the changed files and the scanner alone: nothing that the backend answers
makes a run call it once more or once less.
-/
namespace ChangeReview

/-! ## Findings that are kept -/

theorem Finding.mem_keep {changed : List Text} {findings kept : List Finding}
    (h : keep changed findings = .ok kept) (f : Finding) :
    f ∈ kept ↔ f ∈ findings ∧ f.concerns changed = .ok true := by
  induction findings generalizing kept with
  | nil =>
    obtain rfl := Except.ok.inj h
    simp
  | cons g rest ih =>
    unfold keep at h
    rcases hg : concerns changed g with fault | concerned
    · simp [hg] at h
    · rcases hrest : keep changed rest with fault | more
      · simp [hg, hrest] at h
      · simp only [hg, hrest, Except.ok.injEq] at h
        subst h
        by_cases hfg : f = g
        · subst hfg
          cases concerned <;> simp [hg, ih hrest]
        · cases concerned <;> simp [hfg, ih hrest]

namespace Workflow

/-- The scanner is asked for, and something that it reports concerns a changed file. -/
def FindsInChange (scanner : Scan.Outcome) (c : Context) : Prop :=
  c.scanEnabled.truthy = true ∧ ∃ result, Scan.run (scanCommand c) scanner = .ok result ∧
    ∃ f ∈ result.findings,
      f.concerns (Finding.normalPaths (c.changedFiles.map (·.path))) = .ok true

variable {scanner : Scan.Outcome} {c : Context}

/-- No finding is kept just if the scanner finds nothing in the change. -/
theorem FindingsFrom.eq_nil_iff {findings : Option (List Finding)} {scan : Option FindingsSummary}
    (h : FindingsFrom c c.changedFiles scanner findings scan) :
    findings.getD [] = [] ↔ ¬FindsInChange scanner c := by
  cases h with
  | off hoff => simp [FindsInChange, hoff]
  | failed hon hfailed => simp [FindsInChange, hfailed]
  | @kept result kept summary hon hrun hkept hsummary =>
    have hmem := Finding.mem_keep hkept
    rw [Option.getD_some, List.eq_nil_iff_forall_not_mem]
    constructor
    · rintro hnone ⟨-, reported, hreported, f, hfound, hconcerns⟩
      obtain rfl : result = reported := Except.ok.inj (hrun.symm.trans hreported)
      exact hnone f ((hmem f).mpr ⟨hfound, hconcerns⟩)
    · intro hnone f hf
      obtain ⟨hfound, hconcerns⟩ := (hmem f).mp hf
      exact hnone ⟨hon, result, hrun, f, hfound, hconcerns⟩

theorem importantFiles_ne_nil_iff :
    importantFiles c ≠ [] ↔ ∃ f ∈ c.changedFiles.take 15, isImportant f = true := by
  simp [importantFiles, analyzedFiles, maxImportant, maxAnalyzed, List.filter_eq_nil_iff]

/-! ## One stage -/

/-- A stage makes one call for the sake of a tool if a condition holds, and none otherwise. -/
inductive AsksIf (tool : Text) (p : Prop) : List Exchange → Prop where
  | asked {e : Exchange} : p → e.call.tool = tool → AsksIf tool p [e]
  | silent : ¬p → AsksIf tool p []

section AsksIf

variable {tool : Text} {p : Prop} {more : List Exchange}

theorem AsksIf.sublist (h : AsksIf tool p more) : (more.map (·.call.tool)).Sublist [tool] := by
  cases h with
  | asked _ htool => simp [htool]
  | silent => exact List.nil_sublist _

theorem AsksIf.tools_of (h : AsksIf tool p more) (hp : p) : more.map (·.call.tool) = [tool] := by
  cases h with
  | asked _ htool => simp [htool]
  | silent hnot => exact absurd hp hnot

theorem AsksIf.tools_of_not (h : AsksIf tool p more) (hnot : ¬p) : more.map (·.call.tool) = [] := by
  cases h with
  | asked hp => exact absurd hp hnot
  | silent => rfl

theorem AsksIf.mem_iff (h : AsksIf tool p more) (t : Text) :
    t ∈ more.map (·.call.tool) ↔ t = tool ∧ p := by
  cases h with
  | asked hp htool => simp [hp, htool]
  | silent hp => simp [hp]

end AsksIf

variable {more : List Exchange}

theorem AnalysesFrom.asksIf {defaults analyses : FileAnalyses}
    (h : AnalysesFrom c defaults more analyses) : AsksIf "analyze_files" (importantFiles c ≠ []) more := by
  cases h with
  | unasked hnone => exact .silent (not_not_intro hnone)
  | refused hasked => exact .asked hasked rfl
  | unread hasked => exact .asked hasked rfl
  | read hasked => exact .asked hasked rfl

theorem fixCall_tool {files : List ChangedFile} {call : Call} (h : fixCall c files = .ok call) :
    call.tool = "generate_fixes" := by
  obtain ⟨_, _, rfl⟩ := exists_of_map_eq_ok h
  rfl

theorem summaryCall_tool {s : State} {call : Call} (h : summaryCall s = .ok call) :
    call.tool = "generate_summary" := by
  obtain ⟨_, _, rfl⟩ := exists_of_map_eq_ok h
  rfl

theorem FixesFrom.asksIf {files : List ChangedFile} {findings : List Finding} {fixes : List Fix}
    (h : FixesFrom c files findings more fixes) :
    AsksIf "generate_fixes" (files ≠ [] ∧ findings = []) more := by
  cases h with
  | scanner hsome => exact .silent fun hasked => hsome hasked.2
  | unchanged _ hfiles => exact .silent fun hasked => hasked.1 hfiles
  | refused hnone hfiles hcall => exact .asked ⟨hfiles, hnone⟩ (fixCall_tool hcall)
  | unread hnone hfiles hcall => exact .asked ⟨hfiles, hnone⟩ (fixCall_tool hcall)
  | read hnone hfiles hcall => exact .asked ⟨hfiles, hnone⟩ (fixCall_tool hcall)

theorem SummaryFrom.asksIf {s : State} {files : List ChangedFile} {counted : Except Fault Text}
    {summary : Text} (h : SummaryFrom files counted (summaryCall s) more summary) :
    AsksIf "generate_summary" (files ≠ []) more := by
  cases h with
  | unchanged hfiles => exact .silent (not_not_intro hfiles)
  | refused hfiles hcall => exact .asked hfiles (summaryCall_tool hcall)
  | blank hfiles hcall => exact .asked hfiles (summaryCall_tool hcall)
  | read hfiles hcall => exact .asked hfiles (summaryCall_tool hcall)

theorem AdviceFrom.asksIf {s : State} {files : List ChangedFile} {items : List Text}
    (h : AdviceFrom files (adviceCall s) more items) : AsksIf "finalize" (files ≠ []) more := by
  cases h with
  | unchanged hfiles => exact .silent (not_not_intro hfiles)
  | refused hfiles => exact .asked hfiles rfl
  | read hfiles => exact .asked hfiles rfl

/-! ## A whole run -/

namespace Run

variable {σ : Type} (run : Run σ)

/-- The tools for whose sake a run called the backend, in order. -/
def tools : List Text := run.trace.calls.map (·.tool)

/-- A run called the backend for the sake of a tool. -/
def Asked (tool : Text) : Prop := tool ∈ run.tools

end Run

/-- The tools in the order of the stages that call the backend for their sake. -/
def toolOrder : List Text := ["analyze_files", "generate_fixes", "generate_summary", "finalize"]

/-- A completed run calls the backend at most once for each tool and in the order of the stages: for
the analyses just if one of the first fifteen changed files is important, for fixes just if there
are changed files and the scanner found nothing in them, for the summary and for recommendations
just if there are changed files. Without changed files it calls nothing, whatever the scanner
reports. -/
theorem tools_of_completes {σ : Type} {w : World σ} {d : Disk} {origin : Origin} {run : Run σ}
    {report : Report} (h : Completes w d origin c run report) :
    run.tools.Sublist toolOrder ∧
    (run.Asked "analyze_files" ↔ ∃ f ∈ c.changedFiles.take 15, isImportant f = true) ∧
    (run.Asked "generate_fixes" ↔ c.changedFiles ≠ [] ∧ ¬FindsInChange w.scanner c) ∧
    (run.Asked "generate_summary" ↔ c.changedFiles ≠ []) ∧
    (run.Asked "finalize" ↔ c.changedFiles ≠ []) ∧
    (c.changedFiles = [] → run.trace.calls = []) := by
  obtain ⟨filed, fixed, told, advised, hcalls, hcourse⟩ := h.passes.1.course
  obtain ⟨defaults, -, hanalyses⟩ := hcourse.analyses
  obtain ⟨findings, hfindings, hkept⟩ := hcourse.findings
  have hfixes := hcourse.fixes.asksIf
  have hsummary := hcourse.summary.asksIf
  have hadvice := hcourse.recommendations.asksIf
  rw [hcourse.files] at hfindings hfixes hsummary hadvice
  rw [hkept, hfindings.eq_nil_iff] at hfixes
  have hfiled := hanalyses.asksIf
  rw [importantFiles_ne_nil_iff] at hfiled
  have htools : run.tools = filed.map (·.call.tool) ++ (fixed.map (·.call.tool) ++
      (told.map (·.call.tool) ++ advised.map (·.call.tool))) := by
    simp only [Run.tools, Trace.calls, hcalls, List.map_append, List.map_map]
    rfl
  have hasked (tool : Text) : run.Asked tool ↔
      (tool = "analyze_files" ∧ ∃ f ∈ c.changedFiles.take 15, isImportant f = true) ∨
      (tool = "generate_fixes" ∧ c.changedFiles ≠ [] ∧ ¬FindsInChange w.scanner c) ∨
      (tool = "generate_summary" ∧ c.changedFiles ≠ []) ∨
      (tool = "finalize" ∧ c.changedFiles ≠ []) := by
    simp only [Run.Asked, htools, List.mem_append, hfiled.mem_iff, hfixes.mem_iff, hsummary.mem_iff,
      hadvice.mem_iff]
  refine ⟨?_, by simp [hasked], by simp [hasked], by simp [hasked], by simp [hasked], ?_⟩
  · rw [htools]
    exact hfiled.sublist.append (hfixes.sublist.append (hsummary.sublist.append hadvice.sublist))
  · intro hnone
    have hcalled : ∀ tool, ¬run.Asked tool := by simp [hasked, hnone]
    exact List.map_eq_nil_iff.mp (List.eq_nil_iff_forall_not_mem.mpr hcalled)

/-- The quick run over no change, where the scanner finds something in the repository. -/
def idleTalk : Ended Unit :=
  runQuick { talkative with scanner := .finished "\x7b\"results\": [\x7b\"path\": \"a.py\"\x7d]\x7d" [] 1 }
    () {} ⟨.text "any", .text "any"⟩ { diff := [] }

/-- A run with a finding in no changed file calls for the sake of every tool, one over no change for
the sake of none. -/
theorem tools_of_completes_talk :
    (talk.recording.run.tools = toolOrder ∧ ¬FindsInChange talkative.scanner settingContext) ∧
      ∃ report, idleTalk.report = .ok report ∧ idleTalk.run.trace.calls = [] := by
  constructor
  · obtain ⟨report, h⟩ := exists_completes_talk
    have htools : talk.recording.run.tools = toolOrder := by decide +kernel
    have hasked : talk.recording.run.Asked "generate_fixes" := by
      simp [Run.Asked, htools, toolOrder]
    exact ⟨htools, ((tools_of_completes h).2.2.1.mp hasked).2⟩
  · have hends : idleTalk.report.toOption.isSome = true := by decide +kernel
    obtain ⟨report, hreport⟩ := Option.isSome_iff_exists.mp hends
    have hreport := eq_ok_of_toOption hreport
    have hidle : idleTalk = ⟨idleTalk.run, .ok report⟩ := by rw [← hreport]
    exact ⟨report, hreport, (tools_of_completes (.quick hidle)).2.2.2.2.2 rfl⟩

end Workflow

end ChangeReview
