import ChangeReview.Proofs.Workflow.Passage
import Mathlib.Algebra.Ring.Int.Defs

/-!
# Where the parts of a state come from

Each stage gives the state its own parts and no others. A part comes from the scanner, from a reply
of the model, or from what stands in for a reply that failed, could not be used or was not asked
for; one relation for each stage lists these sources with what each of them takes. Behind every exit
the output counts the tokens of the responses that the stage got, whatever became of their texts.
-/
namespace ChangeReview

/-! ## Tokens -/

namespace Response

/-- The input tokens that a response adds to a run. -/
def input (r : Response) : Int :=
  match r.usage with
  | some u => max 0 u.input
  | none => 0

/-- The output tokens that a response adds to a run. -/
def output (r : Response) : Int :=
  match r.usage with
  | some u => max 0 u.output
  | none => 0

theorem tokens_eq (r : Response) : r.tokens = r.input + r.output := by
  unfold tokens input output
  cases r.usage <;> simp

theorem input_nonneg (r : Response) : 0 ≤ r.input := by
  unfold input
  split <;> omega

theorem output_nonneg (r : Response) : 0 ≤ r.output := by
  unfold output
  split <;> omega

end Response

namespace Exchange

/-- The responses among the answers of some exchanges, in order. -/
def responses (calls : List Exchange) : List Response := calls.filterMap fun e => e.answer.toOption

/-- The input tokens of all responses. -/
def input (calls : List Exchange) : Int := ((responses calls).map Response.input).sum

/-- The output tokens of all responses. -/
def output (calls : List Exchange) : Int := ((responses calls).map Response.output).sum

theorem responses_append (calls more : List Exchange) :
    responses (calls ++ more) = responses calls ++ responses more := List.filterMap_append

theorem input_append (calls more : List Exchange) : input (calls ++ more) = input calls + input more := by
  simp [input, responses_append]

theorem output_append (calls more : List Exchange) :
    output (calls ++ more) = output calls + output more := by
  simp [output, responses_append]

end Exchange

namespace Output

/-- The parts of an output with the tokens of some exchanges and without notes. -/
def counting (parts : Output) (calls : List Exchange) : Output where
  files := parts.files
  analyses := parts.analyses
  findings := parts.findings
  scan := parts.scan
  fixes := parts.fixes
  summary := parts.summary
  recommendations := parts.recommendations
  inputTokens := Exchange.input calls
  outputTokens := Exchange.output calls

/-- An output without its notes: the parts that it gives and the tokens that it counts. -/
def withoutNotes (o : Output) : Output :=
  { o with insights := [], reasoning := [], docsStages := [], docsInsights := [] }

@[simp] theorem withoutNotes_insight (o : Output) (t : Text) :
    (o.insight t).withoutNotes = o.withoutNotes := rfl

@[simp] theorem withoutNotes_reason (o : Output) (t : Text) :
    (o.reason t).withoutNotes = o.withoutNotes := rfl

@[simp] theorem withoutNotes_influence (o : Output) (stage how : Text) :
    (o.influence stage how).withoutNotes = o.withoutNotes := rfl

/-- The usage of the only response is what an output counts behind it. -/
theorem withoutNotes_addUsage {o : Output} (hinput : o.inputTokens = 0) (houtput : o.outputTokens = 0)
    (call : Call) (r : Response) : (o.addUsage r).withoutNotes = o.counting [⟨call, .ok r⟩] := by
  have hin : Exchange.input [⟨call, .ok r⟩] = r.input := by
    simp [Exchange.input, Exchange.responses, Except.toOption]
  have hout : Exchange.output [⟨call, .ok r⟩] = r.output := by
    simp [Exchange.output, Exchange.responses, Except.toOption]
  rw [counting, hin, hout]
  unfold addUsage withoutNotes Response.input Response.output
  cases r.usage with
  | none => simp [hinput, houtput]
  | some u => simp [hinput, houtput]

end Output

namespace Workflow

variable {scanner : Scan.Outcome} {s : State} {c : Context} {more : List Exchange} {o : Output}

/-! ## Analyses -/

/-- What the first stage asks, if it asks. -/
def fileCall (c : Context) : Call where
  prompt := Prompt.fileAnalysis (importantFiles c) (Docs.promptBlock c.docs)
  tool := "analyze_files"

/-- Where the analyses come from: they are the default ones, and a reply that can be read puts its
own over them. -/
inductive AnalysesFrom (c : Context) (defaults : FileAnalyses) :
    List Exchange → FileAnalyses → Prop where
  | unasked : importantFiles c = [] → AnalysesFrom c defaults [] defaults
  | refused {fault : Fault} : importantFiles c ≠ [] → fault.isAbsorbed = true →
      AnalysesFrom c defaults [⟨fileCall c, .error fault⟩] defaults
  | unread {r : Response} {fault : Fault} : importantFiles c ≠ [] →
      Reply.fileAnalyses r.text defaults = .error fault →
      AnalysesFrom c defaults [⟨fileCall c, .ok r⟩] defaults
  | read {r : Response} {deep : FileAnalyses} : importantFiles c ≠ [] →
      Reply.fileAnalyses r.text defaults = .ok deep →
      AnalysesFrom c defaults [⟨fileCall c, .ok r⟩] (defaults.update deep)

theorem withoutNotes_withAnalyses (defaults : FileAnalyses) (docs : Text) (deep : FileAnalyses)
    (o : Output) : (withAnalyses defaults docs deep o).withoutNotes =
      { o.withoutNotes with analyses := some (defaults.update deep) } := by
  unfold withAnalyses
  dsimp only
  split <;> rfl

/-- The answer to the first stage's call decides which analyses stand. -/
theorem resumeFiles_ok {defaults : FileAnalyses} {answer : Except Fault Response}
    (hasked : importantFiles c ≠ [])
    (h : resumeFiles c defaults (Docs.promptBlock c.docs) answer = .ok o) :
    ∃ analyses, AnalysesFrom c defaults [⟨fileCall c, answer⟩] analyses ∧
      o.withoutNotes = ({ files := some c.changedFiles, analyses := some analyses } : Output).counting
        [⟨fileCall c, answer⟩] := by
  unfold resumeFiles at h
  dsimp only at h
  cases answer with
  | error fault =>
    dsimp only at h
    split at h
    · next habsorbed =>
      obtain rfl := Except.ok.inj h
      exact ⟨defaults, .refused hasked habsorbed, rfl⟩
    · exact absurd h (by simp)
  | ok r =>
    have hused := Output.withoutNotes_addUsage (o := defaultFiles c defaults) rfl rfl (fileCall c) r
    dsimp only at h
    split at h
    · next deep hread =>
      obtain rfl := Except.ok.inj h
      refine ⟨defaults.update deep, .read hasked hread, ?_⟩
      rw [withoutNotes_withAnalyses, hused]
      rfl
    · next fault hunread =>
      split at h
      · obtain rfl := Except.ok.inj h
        exact ⟨defaults, .unread hasked hunread, hused⟩
      · exact absurd h (by simp)

/-- The first stage gives the changed files and their analyses. -/
theorem fileStage_yields (h : (fileStage.plan s).Yields scanner more o) :
    ∃ defaults analyses, FileAnalyses.ofFiles (analyzedFiles s.context) = .ok defaults ∧
      AnalysesFrom s.context defaults more analyses ∧ o.withoutNotes =
        ({ files := some s.context.changedFiles, analyses := some analyses } : Output).counting more := by
  unfold fileStage at h
  dsimp only at h
  split at h
  · cases h
  · next defaults hdefaults =>
    split at h
    · next hnone =>
      cases h
      exact ⟨defaults, defaults, hdefaults, .unasked (List.isEmpty_iff.mp hnone), rfl⟩
    · next hsome =>
      cases h with
      | ask hresume =>
        have hasked : importantFiles s.context ≠ [] := fun hnone => hsome (List.isEmpty_iff.mpr hnone)
        obtain ⟨analyses, hfrom, ho⟩ := resumeFiles_ok hasked hresume
        exact ⟨defaults, analyses, hdefaults, hfrom, ho⟩

/-! ## Findings -/

/-- The process that a run over a context starts when it asks for the scanner. -/
def scanCommand (c : Context) : Except Fault Scan.Command :=
  Scan.command c.repository (c.scanOptions.getD {}) c.language c.framework

/-- Where the findings come from: a scan that was asked for and gave a report. A scan that failed
leaves none, and one that was not asked for leaves the state as it is. -/
inductive FindingsFrom (c : Context) (files : List ChangedFile) (scanner : Scan.Outcome) :
    Option (List Finding) → Option FindingsSummary → Prop where
  | off : c.scanEnabled.truthy = false → FindingsFrom c files scanner none none
  | failed {fault : Fault} : c.scanEnabled.truthy = true →
      Scan.run (scanCommand c) scanner = .error fault →
      FindingsFrom c files scanner (some []) (some {})
  | kept {result : Scan.Result} {kept : List Finding} {summary : FindingsSummary} :
      c.scanEnabled.truthy = true → Scan.run (scanCommand c) scanner = .ok result →
      Finding.inChangedFiles result.findings (files.map (·.path)) = .ok kept →
      FindingsSummary.ofFindings kept = .ok summary →
      FindingsFrom c files scanner (some kept) (some summary)

/-- The second stage gives the findings and their summary, and asks the backend nothing. -/
theorem scanStage_yields (h : (scanStage.plan s).Yields scanner more o) :
    ∃ findings scan, FindingsFrom s.context s.files scanner findings scan ∧ more = [] ∧
      o.withoutNotes = ({ findings, scan } : Output).counting more := by
  unfold scanStage at h
  dsimp only at h
  split at h
  · next hoff =>
    cases h
    exact ⟨none, none, .off (by simpa using hoff), rfl, rfl⟩
  · next hon =>
    cases h with
    | scan hresume =>
      have hon : s.context.scanEnabled.truthy = true := by simpa using hon
      unfold resumeScan at hresume
      split at hresume
      · next result hrun =>
        obtain ⟨insights, -, hresume⟩ := exists_of_bind_eq_ok hresume
        obtain ⟨kept, hkept, hresume⟩ := exists_of_bind_eq_ok hresume
        obtain ⟨summary, hsummary, hresume⟩ := exists_of_bind_eq_ok hresume
        obtain rfl := Except.ok.inj hresume
        exact ⟨some kept, some summary, .kept hon hrun hkept hsummary, rfl, rfl⟩
      · next fault hrun =>
        have hfailed : o = failedScan fault := by
          split at hresume
          · exact (Except.ok.inj hresume).symm
          · exact (Except.ok.inj hresume).symm
          · exact (Except.ok.inj hresume).symm
          · exact absurd hresume (by simp)
        subst hfailed
        exact ⟨some [], some {}, .failed hon hrun, rfl, rfl⟩

/-! ## Fixes -/

/-- The fixes that are listed where the model gave these: the most urgent of them, and the one for
credentials. -/
def listedFixes (c : Context) (files : List ChangedFile) (given : List Fix) : List Fix :=
  match credentialFix c.diff files with
  | some fix => Fix.sort (Fix.prioritize given (some maxModelFixes) ++ [fix])
  | none => Fix.prioritize given (some maxModelFixes)

/-- Where the fixes come from: the findings of the scanner where there are any, otherwise a reply
of the model, which counts as giving none where it failed or could not be read. -/
inductive FixesFrom (c : Context) (files : List ChangedFile) (findings : List Finding) :
    List Exchange → List Fix → Prop where
  | scanner : findings ≠ [] → FixesFrom c files findings [] (Fix.sort (findings.map Finding.toFix))
  | unchanged : findings = [] → files = [] → FixesFrom c files findings [] []
  | refused {call : Call} {fault : Fault} : findings = [] → files ≠ [] →
      fixCall c files = .ok call → fault.isAbsorbed = true →
      FixesFrom c files findings [⟨call, .error fault⟩] (listedFixes c files [])
  | unread {call : Call} {r : Response} {fault : Fault} : findings = [] → files ≠ [] →
      fixCall c files = .ok call → fixesOfReply r.text = .error fault →
      FixesFrom c files findings [⟨call, .ok r⟩] (listedFixes c files [])
  | read {call : Call} {r : Response} {given : List Fix} : findings = [] → files ≠ [] →
      fixCall c files = .ok call → fixesOfReply r.text = .ok given →
      FixesFrom c files findings [⟨call, .ok r⟩] (listedFixes c files given)

theorem withoutNotes_completeFixes (files : List ChangedFile) (given : List Fix) (o : Output) :
    (completeFixes c files given o).withoutNotes =
      { o.withoutNotes with fixes := some (listedFixes c files given) } := by
  unfold completeFixes listedFixes
  cases credentialFix c.diff files <;> rfl

/-- The answer to the third stage's call decides which fixes are listed. -/
theorem resumeFixes_ok {call : Call} {answer : Except Fault Response} (hfindings : s.findings = [])
    (hfiles : s.files ≠ []) (hcall : fixCall s.context s.files = .ok call)
    (h : resumeFixes s.context s.files answer = .ok o) :
    ∃ fixes, FixesFrom s.context s.files s.findings [⟨call, answer⟩] fixes ∧
      o.withoutNotes = ({ fixes := some fixes } : Output).counting [⟨call, answer⟩] := by
  unfold resumeFixes at h
  dsimp only at h
  cases answer with
  | error fault =>
    dsimp only at h
    split at h
    · next habsorbed =>
      obtain rfl := Except.ok.inj h
      refine ⟨_, .refused hfindings hfiles hcall habsorbed, ?_⟩
      rw [withoutNotes_completeFixes]
      rfl
    · exact absurd h (by simp)
  | ok r =>
    have hused := Output.withoutNotes_addUsage (o := {}) rfl rfl call r
    dsimp only at h
    split at h
    · next given hread =>
      obtain rfl := Except.ok.inj h
      refine ⟨_, .read hfindings hfiles hcall hread, ?_⟩
      rw [withoutNotes_completeFixes]
      split
      · rw [Output.withoutNotes_influence, hused]
        rfl
      · rw [hused]
        rfl
    · next fault hunread =>
      split at h
      · obtain rfl := Except.ok.inj h
        refine ⟨_, .unread hfindings hfiles hcall hunread, ?_⟩
        rw [withoutNotes_completeFixes, Output.withoutNotes_insight, hused]
        rfl
      · exact absurd h (by simp)

/-- The third stage gives the fixes. -/
theorem fixStage_yields (h : (fixStage.plan s).Yields scanner more o) :
    ∃ fixes, FixesFrom s.context s.files s.findings more fixes ∧
      o.withoutNotes = ({ fixes := some fixes } : Output).counting more := by
  unfold fixStage at h
  dsimp only at h
  split at h
  · next hfindings =>
    cases h
    exact ⟨_, .scanner (by simpa using hfindings), rfl⟩
  · next hfindings =>
    have hfindings : s.findings = [] := by simpa using hfindings
    split at h
    · next hfiles =>
      cases h
      exact ⟨[], .unchanged hfindings (List.isEmpty_iff.mp hfiles), rfl⟩
    · next hfiles =>
      have hfiles : s.files ≠ [] := fun hnone => hfiles (List.isEmpty_iff.mpr hnone)
      split at h
      · cases h
      · next call hcall =>
        cases h with
        | ask hresume => exact resumeFixes_ok hfindings hfiles hcall hresume

/-! ## The summary -/

/-- Where the summary comes from: a reply of the model that is not blank, otherwise the counts. -/
inductive SummaryFrom (files : List ChangedFile) (counted : Except Fault Text)
    (asked : Except Fault Call) : List Exchange → Text → Prop where
  | unchanged {counts : Text} : files = [] → counted = .ok counts →
      SummaryFrom files counted asked [] counts
  | refused {call : Call} {fault : Fault} {counts : Text} : files ≠ [] → asked = .ok call →
      counted = .ok counts → fault.isAbsorbed = true →
      SummaryFrom files counted asked [⟨call, .error fault⟩] counts
  | blank {call : Call} {r : Response} {counts : Text} : files ≠ [] → asked = .ok call →
      counted = .ok counts → Text.trim r.text = [] →
      SummaryFrom files counted asked [⟨call, .ok r⟩] counts
  | read {call : Call} {r : Response} : files ≠ [] → asked = .ok call → Text.trim r.text ≠ [] →
      SummaryFrom files counted asked [⟨call, .ok r⟩] (Text.trim r.text)

/-- The answer to the fourth stage's call decides which summary stands. -/
theorem resumeSummary_ok {call : Call} {counts : Text} {answer : Except Fault Response}
    (hfiles : s.files ≠ []) (hcall : summaryCall s = .ok call) (hcounts : stateSummary s = .ok counts)
    (h : resumeSummary s counts answer = .ok o) :
    ∃ summary, SummaryFrom s.files (stateSummary s) (summaryCall s) [⟨call, answer⟩] summary ∧
      o.withoutNotes = ({ summary := some summary } : Output).counting [⟨call, answer⟩] := by
  unfold resumeSummary at h
  dsimp only at h
  cases answer with
  | error fault =>
    dsimp only at h
    split at h
    · next habsorbed =>
      obtain rfl := Except.ok.inj h
      exact ⟨counts, .refused hfiles hcall hcounts habsorbed, rfl⟩
    · exact absurd h (by simp)
  | ok r =>
    dsimp only at h
    split at h
    · next hblank =>
      obtain rfl := Except.ok.inj h
      exact ⟨counts, .blank hfiles hcall hcounts (List.isEmpty_iff.mp hblank),
        Output.withoutNotes_addUsage (o := { summary := some counts }) rfl rfl call r⟩
    · next htext =>
      have hused := Output.withoutNotes_addUsage (o := {}) rfl rfl call r
      have hwritten : { ({} : Output).addUsage r with summary := some (Text.trim r.text) }.withoutNotes =
          ({ summary := some (Text.trim r.text) } : Output).counting [⟨call, .ok r⟩] :=
        congrArg (fun o => { o with summary := some (Text.trim r.text) : Output }) hused
      obtain rfl := Except.ok.inj h
      refine ⟨_, .read hfiles hcall fun hblank => htext (List.isEmpty_iff.mpr hblank), ?_⟩
      split
      · exact hwritten
      · exact hwritten

/-- The fourth stage gives the summary. -/
theorem summaryStage_yields (h : (summaryStage.plan s).Yields scanner more o) :
    ∃ summary, SummaryFrom s.files (stateSummary s) (summaryCall s) more summary ∧
      o.withoutNotes = ({ summary := some summary } : Output).counting more := by
  unfold summaryStage at h
  dsimp only at h
  split at h
  · cases h
  · cases h
  · next counts call hcounts hcall =>
    split at h
    · next hfiles =>
      cases h
      exact ⟨counts, .unchanged (List.isEmpty_iff.mp hfiles) hcounts, rfl⟩
    · next hfiles =>
      cases h with
      | ask hresume =>
        exact resumeSummary_ok (fun hnone => hfiles (List.isEmpty_iff.mpr hnone)) hcall hcounts hresume

/-! ## Recommendations -/

/-- The recommendations that stand where the model gave these. -/
def standingAdvice (given : List Text) : List Text :=
  if given.isEmpty then defaultRecommendations else given

/-- Where the recommendations come from: a reply of the model, which counts as giving none where it
failed. -/
inductive AdviceFrom (files : List ChangedFile) (asked : Call) :
    List Exchange → List Text → Prop where
  | unchanged : files = [] → AdviceFrom files asked [] defaultRecommendations
  | refused {fault : Fault} : files ≠ [] → fault.isAbsorbed = true →
      AdviceFrom files asked [⟨asked, .error fault⟩] defaultRecommendations
  | read {r : Response} {items : List Text} : files ≠ [] → Reply.recommendations r.text = .ok items →
      AdviceFrom files asked [⟨asked, .ok r⟩] (standingAdvice (items.take maxRecommendations))

theorem withoutNotes_completeAdvice (given : List Text) (o : Output) :
    (completeAdvice s given o).withoutNotes =
      { o.withoutNotes with recommendations := some (standingAdvice given) } := by
  unfold completeAdvice standingAdvice
  split
  · rfl
  · dsimp only
    split <;> rfl

/-- The answer to the last stage's call decides which recommendations stand. -/
theorem resumeAdvice_ok {answer : Except Fault Response} (hfiles : s.files ≠ [])
    (h : resumeAdvice s answer = .ok o) :
    ∃ items, AdviceFrom s.files (adviceCall s) [⟨adviceCall s, answer⟩] items ∧
      o.withoutNotes = ({ recommendations := some items } : Output).counting
        [⟨adviceCall s, answer⟩] := by
  unfold resumeAdvice at h
  dsimp only at h
  cases answer with
  | error fault =>
    dsimp only at h
    split at h
    · next habsorbed =>
      obtain rfl := Except.ok.inj h
      exact ⟨_, .refused hfiles habsorbed, rfl⟩
    · exact absurd h (by simp)
  | ok r =>
    have hused := Output.withoutNotes_addUsage (o := {}) rfl rfl (adviceCall s) r
    obtain ⟨items, hitems, rfl⟩ := exists_of_map_eq_ok h
    refine ⟨_, .read hfiles hitems, ?_⟩
    rw [withoutNotes_completeAdvice, hused]
    rfl

/-- The last stage gives the recommendations. -/
theorem adviceStage_yields (h : (adviceStage.plan s).Yields scanner more o) :
    ∃ items, AdviceFrom s.files (adviceCall s) more items ∧
      o.withoutNotes = ({ recommendations := some items } : Output).counting more := by
  unfold adviceStage at h
  dsimp only at h
  split at h
  · next hfiles =>
    cases h
    exact ⟨_, .unchanged (List.isEmpty_iff.mp hfiles), rfl⟩
  · next hfiles =>
    cases h with
    | ask hresume => exact resumeAdvice_ok (fun hnone => hfiles (List.isEmpty_iff.mpr hnone)) hresume

/-! ## Every stage -/

/-- The parts of a state that a stage replaces. -/
inductive Part where
  | files
  | analyses
  | findings
  | scan
  | fixes
  | summary
  | recommendations
  deriving DecidableEq, Repr

namespace Part

/-- The name of the stage that a part belongs to. -/
def owner : Part → Text
  | files | analyses => "analyze_files"
  | findings | scan => "run_static_analysis"
  | fixes => "generate_fixes"
  | summary => "generate_summary"
  | recommendations => "finalize"

/-- Two states have the same part. -/
def Same (s t : State) : Part → Prop
  | files => t.files = s.files
  | analyses => t.analyses = s.analyses
  | findings => t.findings = s.findings
  | scan => t.scan = s.scan
  | fixes => t.fixes = s.fixes
  | summary => t.summary = s.summary
  | recommendations => t.recommendations = s.recommendations

/-- An output does not give a part. -/
def Absent (o : Output) : Part → Prop
  | files => o.files = none
  | analyses => o.analyses = none
  | findings => o.findings = none
  | scan => o.scan = none
  | fixes => o.fixes = none
  | summary => o.summary = none
  | recommendations => o.recommendations = none

variable {p : Part}

/-- What an output does not give stays as it was. -/
theorem same_apply (h : p.Absent o) : p.Same s (s.apply o) := by
  cases p <;> simp_all [Absent, Same, State.apply]

/-- Which parts an output gives can be seen without its notes and its tokens. -/
theorem absent_of_withoutNotes {parts : Output} (ho : o.withoutNotes = parts.counting more)
    (h : p.Absent parts) : p.Absent o := by
  have hsame : p.Absent o.withoutNotes := by
    rw [ho]
    cases p <;> exact h
  cases p <;> exact hsame

end Part

/-- A stage counts the responses that it got, and gives no part that belongs to another stage. -/
theorem stage_yields {stage : Stage} (hstage : stage ∈ stages)
    (h : (stage.plan s).Yields scanner more o) : ∃ parts : Output,
      o.withoutNotes = parts.counting more ∧ ∀ p : Part, p.owner ≠ stage.name → p.Absent parts := by
  simp only [stages, List.mem_cons, List.not_mem_nil, or_false] at hstage
  rcases hstage with rfl | rfl | rfl | rfl | rfl
  · obtain ⟨_, _, -, -, ho⟩ := fileStage_yields h
    refine ⟨_, ho, fun p hp => ?_⟩
    cases p <;> first | rfl | exact absurd rfl hp
  · obtain ⟨_, _, -, -, ho⟩ := scanStage_yields h
    refine ⟨_, ho, fun p hp => ?_⟩
    cases p <;> first | rfl | exact absurd rfl hp
  · obtain ⟨_, -, ho⟩ := fixStage_yields h
    refine ⟨_, ho, fun p hp => ?_⟩
    cases p <;> first | rfl | exact absurd rfl hp
  · obtain ⟨_, -, ho⟩ := summaryStage_yields h
    refine ⟨_, ho, fun p hp => ?_⟩
    cases p <;> first | rfl | exact absurd rfl hp
  · obtain ⟨_, -, ho⟩ := adviceStage_yields h
    refine ⟨_, ho, fun p hp => ?_⟩
    cases p <;> first | rfl | exact absurd rfl hp

end Workflow

end ChangeReview
