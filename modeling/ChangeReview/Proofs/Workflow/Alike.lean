import ChangeReview.Proofs.Repository.SameFiles
import ChangeReview.Proofs.Workflow.Lockstep

/-!
# Runs of like contexts

A run without a scan does not see the options of the scanner, nor the language and the framework, nor
documents that are not available. Two contexts that agree in all else make the same plans. Where two
backends answer the same calls with the same words, whatever they remember, the two runs end with
the same report.
-/
namespace ChangeReview

namespace Docs

/-- Some documents are there to go by. -/
def IsAvailable (docs : Option Context) : Prop := ∃ c, docs = some c ∧ c.available = true

/-- The two are the same, or neither has documents to go by. -/
def Alike (docs docs' : Option Context) : Prop :=
  docs' = docs ∨ ¬ IsAvailable docs ∧ ¬ IsAvailable docs'

variable {docs docs' : Option Context}

theorem promptBlock_unavailable (h : ¬ IsAvailable docs) : promptBlock docs = [] := by
  cases docs with
  | none => rfl
  | some c =>
    have hoff : c.available = false := Bool.eq_false_iff.mpr fun hon => h ⟨c, rfl, hon⟩
    unfold promptBlock
    dsimp only
    rw [hoff]
    rfl

theorem excerpt_unavailable (h : ¬ IsAvailable docs) (filename : Text) (limit : Int) :
    excerpt docs filename limit = [] := by
  cases docs with
  | none => rfl
  | some c =>
    have hoff : c.available = false := Bool.eq_false_iff.mpr fun hon => h ⟨c, rfl, hon⟩
    unfold excerpt
    dsimp only
    rw [hoff]
    rfl

theorem Alike.promptBlock (h : Alike docs docs') : promptBlock docs' = promptBlock docs := by
  rcases h with rfl | ⟨h, h'⟩
  · rfl
  · rw [promptBlock_unavailable h, promptBlock_unavailable h']

theorem Alike.excerpt (h : Alike docs docs') (filename : Text) (limit : Int) :
    excerpt docs' filename limit = excerpt docs filename limit := by
  rcases h with rfl | ⟨h, h'⟩
  · rfl
  · rw [excerpt_unavailable h, excerpt_unavailable h']

theorem Alike.securityGuidance (h : Alike docs docs') :
    securityGuidance docs' = securityGuidance docs := h.excerpt _ _

theorem Alike.patternsGuidance (h : Alike docs docs') :
    patternsGuidance docs' = patternsGuidance docs := h.excerpt _ _

theorem Alike.qualityGuidance (h : Alike docs docs') :
    qualityGuidance docs' = qualityGuidance docs := by
  unfold Docs.qualityGuidance
  rw [h.excerpt, h.excerpt]

end Docs

/-- Two contexts without a scan agree in what a run sees of them. -/
structure Context.Alike (c c' : Context) : Prop where
  diff : c'.diff = c.diff
  title : c'.title = c.title
  files : c'.files = c.files
  budget : c'.tokenBudget = c.tokenBudget
  limit : c'.maxCost = c.maxCost
  mode : c'.mode = c.mode
  repository : c'.repository = c.repository
  docs : Docs.Alike c.docs c'.docs
  unscanned : c.scanEnabled.truthy = false
  unscanned' : c'.scanEnabled.truthy = false

theorem Context.Alike.changedFiles {c c' : Context} (h : c.Alike c') :
    c'.changedFiles = c.changedFiles := by
  unfold Context.changedFiles
  rw [h.files, h.diff]

theorem Context.Alike.shownTitle {c c' : Context} (h : c.Alike c') :
    c'.shownTitle = c.shownTitle := by
  unfold Context.shownTitle
  rw [h.title]

namespace Workflow

/-! ## Plans -/

section Plans

variable {s : State} {c : Context} (h : s.context.Alike c)

include h

theorem fileStage_under : fileStage.plan (s.under c) = fileStage.plan s := by
  have analyzed : analyzedFiles c = analyzedFiles s.context := by
    rw [analyzedFiles, h.changedFiles, ← analyzedFiles]
  have important : importantFiles c = importantFiles s.context := by
    rw [importantFiles, analyzed, ← importantFiles]
  have defaults : defaultFiles c = defaultFiles s.context := by
    funext ds
    rw [defaultFiles, h.changedFiles, ← defaultFiles]
  have resume : resumeFiles c = resumeFiles s.context := by
    funext ds docs answer
    unfold resumeFiles
    rw [defaults]
  show fileStage.plan { s with context := c } = _
  unfold fileStage
  dsimp only
  rw [analyzed, important, defaults, resume, h.docs.promptBlock]

theorem scanStage_under : scanStage.plan (s.under c) = scanStage.plan s := by
  show scanStage.plan { s with context := c } = _
  unfold scanStage
  dsimp only
  rw [h.unscanned, h.unscanned']
  rfl

theorem fixStage_under : fixStage.plan (s.under c) = fixStage.plan s := by
  have complete : completeFixes c = completeFixes s.context := by
    funext files fixes o
    unfold completeFixes
    rw [h.diff]
  have resume : resumeFixes c = resumeFixes s.context := by
    funext files answer
    unfold resumeFixes
    rw [complete, h.docs.promptBlock, h.docs.securityGuidance]
  have call : fixCall c = fixCall s.context := by
    funext files
    unfold fixCall
    rw [h.shownTitle, h.diff, h.docs.promptBlock, h.docs.securityGuidance]
  show fixStage.plan { s with context := c } = _
  unfold fixStage
  dsimp only
  rw [resume, call]

theorem summaryStage_under : summaryStage.plan (s.under c) = summaryStage.plan s := by
  have context : (s.under c).context = c := rfl
  have files : (s.under c).files = s.files := rfl
  have counts : stateSummary (s.under c) = stateSummary s := by
    unfold stateSummary
    rw [files, context, h.shownTitle]
    rfl
  have call : summaryCall (s.under c) = summaryCall s := by
    unfold summaryCall
    rw [files, context, h.shownTitle, h.docs.patternsGuidance]
    rfl
  have resume : resumeSummary (s.under c) = resumeSummary s := by
    funext counts answer
    unfold resumeSummary
    rw [context, h.docs.patternsGuidance]
  unfold summaryStage
  dsimp only
  rw [counts, call, resume, files]

theorem adviceStage_under : adviceStage.plan (s.under c) = adviceStage.plan s := by
  have call : adviceCall { s with context := c } = adviceCall s := by
    unfold adviceCall
    dsimp only
    rw [h.docs.qualityGuidance]
  have complete : completeAdvice { s with context := c } = completeAdvice s := by
    funext recommendations o
    unfold completeAdvice
    dsimp only
    rw [h.docs.qualityGuidance]
  have resume : resumeAdvice { s with context := c } = resumeAdvice s := by
    funext answer
    unfold resumeAdvice
    rw [complete]
  show adviceStage.plan { s with context := c } = _
  unfold adviceStage
  dsimp only
  rw [call, resume]

theorem plan_under {stage : Stage} (hs : stage ∈ stages) :
    stage.plan (s.under c) = stage.plan s := by
  simp only [stages, List.mem_cons, List.not_mem_nil, or_false] at hs
  rcases hs with rfl | rfl | rfl | rfl | rfl
  · exact fileStage_under h
  · exact scanStage_under h
  · exact fixStage_under h
  · exact summaryStage_under h
  · exact adviceStage_under h

end Plans

/-! ## Runs -/

/-- The step does not run the scanner. -/
def IsQuiet : Step → Prop
  | .scan .. => False
  | _ => True

/-- Without a scan no stage runs the scanner. -/
theorem isQuiet_plan {stage : Stage} (hs : stage ∈ stages) {s : State}
    (hoff : s.context.scanEnabled.truthy = false) : IsQuiet (stage.plan s) := by
  simp only [stages, List.mem_cons, List.not_mem_nil, or_false] at hs
  rcases hs with rfl | rfl | rfl | rfl | rfl
  · unfold fileStage
    dsimp only
    split
    · trivial
    · split <;> trivial
  · unfold scanStage
    dsimp only
    rw [hoff]
    trivial
  · unfold fixStage
    dsimp only
    split
    · trivial
    · split
      · trivial
      · split <;> trivial
  · unfold summaryStage
    dsimp only
    split
    · trivial
    · trivial
    · split <;> trivial
  · unfold adviceStage
    dsimp only
    split <;> trivial

section Runs

variable {σ : Type} {w w' : World σ} {c : Context}

/-- Two backends answer every call alike, whatever they remember. -/
def SameAnswers (b b' : Backend σ) : Prop :=
  ∀ here here' call, (b'.invoke here' call).2 = (b.invoke here call).2

theorem perform_sameAnswers (h : SameAnswers w.backend w'.backend) {step : Step}
    (hquiet : IsQuiet step) (here here' : σ) :
    (step.perform w' here').2 = (step.perform w here).2 := by
  cases step with
  | done result => rfl
  | ask call resume =>
    unfold Step.perform
    dsimp only
    rw [h here here' call]
  | scan command resume => exact absurd hquiet id

/-- The second run did what the first one did, in another context. -/
structure Follows (c : Context) (r r' : Run σ) : Prop where
  state : r'.state = r.state.under c
  trace : r'.trace = r.trace

/-- One stage keeps the runs together. -/
theorem Follows.advance {r r' : Run σ} (hr : Follows c r r') (hanswers : SameAnswers w.backend w'.backend)
    {stage : Stage} (hs : stage ∈ stages) (h : r.state.context.Alike c) :
    Follows c (r.advance w stage).1 (r'.advance w' stage).1 ∧
      (r'.advance w' stage).2 = (r.advance w stage).2 := by
  have hplan : stage.plan r'.state = stage.plan r.state := by
    rw [hr.state]
    exact plan_under h hs
  have hdone := perform_sameAnswers hanswers (isQuiet_plan hs h.unscanned) r.backend r'.backend
  unfold Run.advance
  rw [hplan]
  generalize (stage.plan r.state).perform w r.backend = done at hdone ⊢
  generalize (stage.plan r.state).perform w' r'.backend = done' at hdone ⊢
  obtain ⟨next, trace, result⟩ := done
  obtain ⟨next', trace', result'⟩ := done'
  obtain ⟨rfl, rfl⟩ := Prod.mk.inj hdone
  have htrace : r'.trace ++ trace' = r.trace ++ trace' := congrArg (· ++ trace') hr.trace
  cases result' with
  | error fault => exact ⟨⟨hr.state, htrace⟩, rfl⟩
  | ok o =>
    refine ⟨⟨?_, htrace⟩, rfl⟩
    dsimp only
    rw [hr.state]
    rfl

/-- Any stages in a row keep the runs together. -/
theorem Follows.advanceAll {r r' : Run σ} (hr : Follows c r r')
    (hanswers : SameAnswers w.backend w'.backend) (row : List Stage)
    (hrow : ∀ stage ∈ row, stage ∈ stages) (h : r.state.context.Alike c) :
    Follows c (r.advanceAll w row).1 (r'.advanceAll w' row).1 ∧
      (r'.advanceAll w' row).2 = (r.advanceAll w row).2 := by
  induction row generalizing r r' with
  | nil => exact ⟨hr, rfl⟩
  | cons stage rest ih =>
    obtain ⟨hnext, hsame⟩ := hr.advance hanswers (hrow stage List.mem_cons_self) h
    have hcontext := Run.advance_context w r stage
    unfold Run.advanceAll
    generalize r.advance w stage = done at hnext hsame hcontext ⊢
    generalize r'.advance w' stage = done' at hnext hsame ⊢
    obtain ⟨next, result⟩ := done
    obtain ⟨next', result'⟩ := done'
    obtain rfl : result' = result := hsame
    cases result' with
    | error fault => exact ⟨hnext, rfl⟩
    | ok done =>
      refine ih hnext (fun other hother => hrow other (List.mem_cons_of_mem stage hother)) ?_
      rw [hcontext]
      exact h

/-! ## Reports -/

theorem docsImpact_under {s : State} (h : s.context.Alike c) :
    docsImpact (s.under c) = docsImpact s := by
  have hnone : ∀ s : State, ¬ Docs.IsAvailable s.context.docs → docsImpact s = none := by
    intro s hoff
    unfold docsImpact
    split
    · next docs hdocs => exact if_neg fun hon => hoff ⟨docs, hdocs, hon⟩
    · rfl
  rcases h.docs with hsame | ⟨hoff, hoff'⟩
  · have hcontext : (s.under c).context.docs = s.context.docs := hsame
    unfold docsImpact
    rw [hcontext]
    rfl
  · rw [hnone s hoff, hnone (s.under c) hoff']

/-- The reports of two states that differ in their contexts, about repositories with the same
files. -/
theorem reportOf_under {s : State} {d d' : Disk} (origin : Origin) (h : s.context.Alike c)
    (hfiles : ∀ path, s.context.repository = .text path → d.SameFiles d' path) :
    reportOf d' origin (s.under c) = reportOf d origin s := by
  have hcost : ∀ cost, costNotice (s.under c) cost = costNotice s cost := by
    intro cost
    show costNotice { s with context := c } cost = _
    unfold costNotice
    dsimp only
    rw [h.limit]
  have htokens : tokenNotice (s.under c) = tokenNotice s := by
    show tokenNotice { s with context := c } = _
    unfold tokenNotice
    dsimp only
    rw [h.budget]
    rfl
  have hscan : scanFigures (s.under c) = scanFigures s := by
    show scanFigures { s with context := c } = _
    unfold scanFigures
    dsimp only
    rw [h.unscanned, h.unscanned']
  have htests : TestPlan.suggestFor d' (s.under c).context.repository (s.under c).files =
      TestPlan.suggestFor d s.context.repository s.files := by
    show TestPlan.suggestFor d' c.repository s.files = _
    rw [h.repository, suggestFor_sameFiles hfiles]
  have hcoverage : coverageOf d' (s.under c).context.repository (s.under c).files =
      coverageOf d s.context.repository s.files := by
    show coverageOf d' c.repository s.files = _
    rw [h.repository, coverageOf_sameFiles hfiles]
  have hmode : (s.under c).context.mode = s.context.mode := h.mode
  unfold reportOf
  simp only [hcost, htokens, hscan, htests, hcoverage, hmode, docsImpact_under h]
  rfl

/-- Two runs of like contexts over backends that answer alike, about repositories with the same
files, end with the same report or the same fault. -/
theorem runQuick_alike {c' : Context} (hanswers : SameAnswers w.backend w'.backend)
    (h : c.Alike c') {d d' : Disk} (hfiles : ∀ path, c.repository = .text path → d.SameFiles d' path)
    (here here' : σ) (origin : Origin) :
    (runQuick w' here' d' origin c').report = (runQuick w here d origin c).report := by
  have hstart : Follows c' (Run.start here c) (Run.start here' c') := ⟨rfl, rfl⟩
  obtain ⟨hend, hsame⟩ := hstart.advanceAll hanswers stages (fun _ hs => hs) h
  have hcontext : ((Run.start here c).advanceAll w stages).1.state.context = c :=
    Run.advanceAll_context w (Run.start here c) stages
  unfold runQuick
  generalize (Run.start here c).advanceAll w stages = done at hend hsame hcontext ⊢
  generalize (Run.start here' c').advanceAll w' stages = done' at hend hsame ⊢
  obtain ⟨r, result⟩ := done
  obtain ⟨r', result'⟩ := done'
  obtain rfl : result' = result := hsame
  cases result' with
  | error fault => rfl
  | ok done =>
    show reportOf d' origin r'.state = reportOf d origin r.state
    rw [hend.state]
    exact reportOf_under origin (by rw [hcontext]; exact h) (by rw [hcontext]; exact hfiles)

end Runs

end Workflow

end ChangeReview
