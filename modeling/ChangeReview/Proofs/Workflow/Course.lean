import ChangeReview.Proofs.Workflow.Sources

/-!
# The course of a completed run

A part that a stage has given stays until the end, as no later stage gives it again. So the last
state of a completed run tells by itself where each of its parts came from, and the exchanges of the
run are those of its stages one behind the other.
-/
namespace ChangeReview

/-- The parts of a state are those of an output, and those of an earlier state where the output has
none. -/
structure State.Takes (t s : State) (parts : Output) : Prop where
  context : t.context = s.context
  files : t.files = parts.files.getD s.files
  analyses : t.analyses = parts.analyses.getD s.analyses
  findings : t.findings = parts.findings.getD s.findings
  scan : t.scan = parts.scan.or s.scan
  fixes : t.fixes = parts.fixes.getD s.fixes
  summary : t.summary = parts.summary.getD s.summary
  recommendations : t.recommendations = parts.recommendations.getD s.recommendations

theorem State.takes_apply {s : State} {o parts : Output} {more : List Exchange}
    (ho : o.withoutNotes = parts.counting more) : (s.apply o).Takes s parts := by
  have hparts : (s.apply o.withoutNotes).Takes s parts := by
    rw [ho]
    constructor <;> rfl
  exact ⟨rfl, hparts.files, hparts.analyses, hparts.findings, hparts.scan, hparts.fixes,
    hparts.summary, hparts.recommendations⟩

namespace Workflow

theorem Passes.cons_inv {scanner : Scan.Outcome} {s t : State} {stage : Stage} {row : List Stage}
    {calls : List Exchange} (h : Passes scanner s (stage :: row) calls t) :
    ∃ more later o, calls = more ++ later ∧ (stage.plan s).Yields scanner more o ∧
      Passes scanner (s.apply o) row later t := by
  cases h with
  | cons hyields hlater => exact ⟨_, _, _, rfl, hyields, hlater⟩

/-- What the first two stages of a run over a context leave in a state, by their exchanges. -/
structure Examined (scanner : Scan.Outcome) (c : Context) (filed : List Exchange) (s : State) :
    Prop where
  context : s.context = c
  files : s.files = c.changedFiles
  analyses : ∃ defaults, FileAnalyses.ofFiles (analyzedFiles c) = .ok defaults ∧
    AnalysesFrom c defaults filed s.analyses
  findings : ∃ findings, FindingsFrom c s.files scanner findings s.scan ∧ s.findings = findings.getD []

/-- How a state came about in which a run over a context ended, by the exchanges of the four stages
that may ask the backend. -/
structure Course (scanner : Scan.Outcome) (c : Context) (filed fixed told advised : List Exchange)
    (t : State) : Prop extends Examined scanner c filed t where
  fixes : FixesFrom c t.files t.findings fixed t.fixes
  summary : SummaryFrom t.files (stateSummary t) (summaryCall t) told t.summary
  recommendations : AdviceFrom t.files (adviceCall t) advised t.recommendations

section Course

variable {scanner : Scan.Outcome} {c : Context} {s t : State} {calls : List Exchange}

/-- A stage that leaves the four parts of the first two stages alone leaves a state as examined as it
was. -/
theorem Examined.takes {filed : List Exchange} {parts : Output} (h : Examined scanner c filed s)
    (take : t.Takes s parts) (hfiles : parts.files = none) (hanalyses : parts.analyses = none)
    (hfindings : parts.findings = none) (hscan : parts.scan = none) : Examined scanner c filed t := by
  have hfiles : t.files = s.files := by rw [take.files, hfiles, Option.getD_none]
  have hanalyses : t.analyses = s.analyses := by rw [take.analyses, hanalyses, Option.getD_none]
  have hfindings : t.findings = s.findings := by rw [take.findings, hfindings, Option.getD_none]
  have hscan : t.scan = s.scan := by rw [take.scan, hscan, Option.none_or]
  constructor
  · exact take.context.trans h.context
  · rw [hfiles, h.files]
  · rw [hanalyses]
    exact h.analyses
  · rw [hfiles, hfindings, hscan]
    exact h.findings

/-- The first two stages leave an examined state behind them. -/
theorem Passes.examined {row : List Stage}
    (h : Passes scanner { context := c } (fileStage :: scanStage :: row) calls t) :
    ∃ filed later s, calls = filed ++ later ∧ Examined scanner c filed s ∧
      Passes scanner s row later t := by
  obtain ⟨filed, _, o₁, rfl, hfile, h₁⟩ := h.cons_inv
  obtain ⟨defaults, analyses, hdefaults, hanalyses, ho₁⟩ := fileStage_yields hfile
  have take₁ := State.takes_apply (s := { context := c }) ho₁
  generalize State.apply _ o₁ = s₁ at h₁ take₁
  obtain ⟨scanned, later, o₂, rfl, hscan, h₂⟩ := h₁.cons_inv
  obtain ⟨findings, scan, hfindings, rfl, ho₂⟩ := scanStage_yields hscan
  have take₂ := State.takes_apply (s := s₁) ho₂
  generalize State.apply _ o₂ = s₂ at h₂ take₂
  have hcontext₁ : s₁.context = c := take₁.context
  have hfiles₂ : s₂.files = s₁.files := take₂.files
  have hanalyses₂ : s₂.analyses = s₁.analyses := take₂.analyses
  refine ⟨filed, later, s₂, rfl, ?_, h₂⟩
  constructor
  · exact take₂.context.trans hcontext₁
  · exact hfiles₂.trans take₁.files
  · refine ⟨defaults, hdefaults, ?_⟩
    rw [hanalyses₂, take₁.analyses]
    exact hanalyses
  · refine ⟨findings, ?_, ?_⟩
    · rw [hfiles₂, take₂.scan, take₁.scan, ← hcontext₁]
      simpa using hfindings
    · rw [take₂.findings, take₁.findings]
      rfl

/-- Whatever a stage looked at of the state in front of it is still there at the end. -/
theorem Passes.course (h : Passes scanner { context := c } stages calls t) :
    ∃ filed fixed told advised, calls = filed ++ (fixed ++ (told ++ advised)) ∧
      Course scanner c filed fixed told advised t := by
  unfold stages at h
  obtain ⟨filed, _, s₂, rfl, hexamined₂, h₂⟩ := h.examined
  obtain ⟨fixed, _, o₃, rfl, hfix, h₃⟩ := h₂.cons_inv
  obtain ⟨fixes, hfixes, ho₃⟩ := fixStage_yields hfix
  have take₃ := State.takes_apply (s := s₂) ho₃
  generalize State.apply _ o₃ = s₃ at h₃ take₃
  have hexamined₃ := hexamined₂.takes take₃ rfl rfl rfl rfl
  obtain ⟨told, _, o₄, rfl, htell, h₄⟩ := h₃.cons_inv
  obtain ⟨summary, hsummary, ho₄⟩ := summaryStage_yields htell
  have take₄ := State.takes_apply (s := s₃) ho₄
  generalize State.apply _ o₄ = s₄ at h₄ take₄
  have hexamined₄ := hexamined₃.takes take₄ rfl rfl rfl rfl
  obtain ⟨advised, _, o₅, rfl, hadvise, h₅⟩ := h₄.cons_inv
  obtain ⟨items, hitems, ho₅⟩ := adviceStage_yields hadvise
  have take₅ := State.takes_apply (s := s₄) ho₅
  generalize State.apply _ o₅ = s₅ at h₅ take₅
  have hexamined := hexamined₄.takes take₅ rfl rfl rfl rfl
  obtain _ | _ := h₅
  have hfixes₄ : t.fixes = s₄.fixes := take₅.fixes
  have hfixes₃ : t.fixes = s₃.fixes := hfixes₄.trans take₄.fixes
  have hsummary₄ : t.summary = s₄.summary := take₅.summary
  have hanalyses₃ : t.analyses = s₃.analyses := take₅.analyses.trans take₄.analyses
  have hfindings₂ : t.findings = s₂.findings :=
    take₅.findings.trans (take₄.findings.trans take₃.findings)
  refine ⟨filed, fixed, told, advised, by simp, hexamined, ?_, ?_, ?_⟩
  · rw [hexamined.files, ← hexamined₂.files, hfindings₂, hfixes₃, take₃.fixes, ← hexamined₂.context]
    exact hfixes
  · have hcounts : stateSummary t = stateSummary s₃ := by
      simp only [stateSummary, hexamined.context, hexamined₃.context, hexamined.files,
        hexamined₃.files, hfixes₃]
    have hcall : summaryCall t = summaryCall s₃ := by
      simp only [summaryCall, hexamined.context, hexamined₃.context, hexamined.files,
        hexamined₃.files, hanalyses₃, hfixes₃]
    rw [hexamined.files, ← hexamined₃.files, hcounts, hcall, hsummary₄, take₄.summary]
    exact hsummary
  · have hcall : adviceCall t = adviceCall s₄ := by
      simp only [adviceCall, hexamined.context, hexamined₄.context, hexamined.files,
        hexamined₄.files, hfixes₄, hsummary₄]
    rw [hexamined.files, ← hexamined₄.files, hcall, take₅.recommendations]
    exact hitems

end Course

/-- The stages keep the context and find the files of the change. -/
theorem Run.last_state {σ : Type} {w : World σ} {here : σ} {c : Context} {last : Run σ}
    (hall : (Run.start here c).advanceAll w stages = (last, .ok ())) :
    last.state.context = c ∧ last.state.files = c.changedFiles := by
  obtain ⟨calls, hpasses, -⟩ := Run.advanceAll_ok hall
  obtain ⟨_, _, _, _, -, hcourse⟩ := Passes.course hpasses
  exact ⟨hcourse.context, hcourse.files⟩

end Workflow

end ChangeReview
