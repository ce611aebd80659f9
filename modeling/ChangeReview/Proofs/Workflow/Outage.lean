import ChangeReview.Proofs.Reply.Prose
import ChangeReview.Proofs.Value.LineEnds
import ChangeReview.Proofs.Workflow.Budgets
import ChangeReview.Proofs.Workflow.CallProtocol
import ChangeReview.Proofs.Workflow.TokenAccount

/-!
# Reviews without a backend

Where every call fails, each stage that asks takes its fallback and leaves one notice. Behind a scan
that left no findings, the rest of the run depends on nothing but the change: the report has the
default analyses, the fix for credentials if the diff calls for one, the summary by counts, and the
default recommendations. It is lost only where a count cannot be written, or where the repository
cannot be searched for its tests and its coverage. A manifest with too long a number is enough.
-/
namespace ChangeReview

/-- Every call fails, in a way that stages expect. -/
def World.IsDown {σ : Type} (w : World σ) : Prop :=
  ∀ here call, ∃ fault, (w.backend.invoke here call).2 = .error fault ∧ fault.isAbsorbed = true

/-- A call that failed. -/
def Exchange.IsFailed (x : Exchange) : Prop := ∃ fault, x.answer = .error fault

namespace Exchange

variable {calls : List Exchange}

theorem not_isFailed_ok {call : Call} {r : Response} : ¬ IsFailed ⟨call, .ok r⟩ := by
  rintro ⟨fault, h⟩
  exact absurd h (by simp)

/-- Failed calls use no tokens. -/
theorem tokens_of_isFailed (h : ∀ x ∈ calls, x.IsFailed) : input calls = 0 ∧ output calls = 0 := by
  have hnone : responses calls = [] := by
    refine List.filterMap_eq_nil_iff.mpr fun x hx => ?_
    obtain ⟨fault, hfault⟩ := h x hx
    rw [hfault]
    rfl
  constructor
  · rw [input, hnone]
    rfl
  · rw [output, hnone]
    rfl

end Exchange

namespace Workflow

/-- Each failed call has its one notice. -/
theorem length_notices {calls : List Exchange} (h : ∀ x ∈ calls, x.IsFailed) :
    (calls.flatMap notices).length = calls.length := by
  induction calls with
  | nil => rfl
  | cons x calls ih =>
    obtain ⟨⟨fault, hfault⟩, hcalls⟩ := List.forall_mem_cons.mp h
    have hone : (notices x).length = 1 := by
      unfold notices
      rw [hfault]
      rfl
    rw [List.flatMap_cons, List.length_append, ih hcalls, hone, List.length_cons, Nat.add_comm]

/-! ## Stages -/

/-- A run over a context that goes on from an earlier one, has found nothing and has noted each of
its later calls. -/
structure Continues {σ : Type} (c : Context) (base r : Run σ) : Prop where
  context : r.state.context = c
  files : r.state.files = c.changedFiles
  findings : r.state.findings = []
  later : ∃ later, r.trace.exchanges = base.trace.exchanges ++ later ∧
    r.state.insights = base.state.insights ++ later.flatMap notices

section Runs

variable {σ : Type} {w : World σ} {c : Context} {base r r' : Run σ} {stage : Stage}

theorem Continues.trans (h : Continues c base r) (h' : Continues c r r') : Continues c base r' := by
  obtain ⟨first, hcalls, hnotices⟩ := h.later
  obtain ⟨second, hcalls', hnotices'⟩ := h'.later
  refine ⟨h'.context, h'.files, h'.findings, first ++ second, ?_, ?_⟩
  · rw [hcalls', hcalls, List.append_assoc]
  · rw [hnotices', hnotices, List.flatMap_append, List.append_assoc]

/-- Without a backend, a stage that goes on passes. -/
theorem continues_of_goes (hdown : w.IsDown) (hcontext : r.state.context = c)
    (hfindings : r.state.findings = []) (hgoes : Goes c r.state (stage.plan r.state)) :
    ∃ r', r.advance w stage = (r', .ok ()) ∧ Continues c r r' := by
  unfold Run.advance
  generalize stage.plan r.state = step at hgoes
  cases hgoes with
  | @done o hadds =>
    refine ⟨_, rfl, hcontext, hadds.files, ?_, [], rfl, ?_⟩
    · rw [State.apply, hadds.findings]
      exact hfindings
    · rw [State.apply, hadds.insights]
      rfl
  | @ask call resume hask =>
    obtain ⟨fault, hanswer, habsorbed⟩ := hdown r.backend call
    have hbenign : IsBenign (.error fault) := habsorbed
    have hperform : (Step.ask call resume).perform w r.backend =
        ((w.backend.invoke r.backend call).1, { exchanges := [⟨call, .error fault⟩] },
          resume (.error fault)) := by
      rw [← hanswer]
      rfl
    rw [hperform]
    -- a failed call is benign and never fatal, so the stage resumes
    rcases hask (.error fault) hbenign with ⟨-, o, hresume, hadds⟩ | ⟨hfatal, -⟩
    · rw [hresume]
      rw [← List.flatMap_singleton notices] at hadds
      refine ⟨_, rfl, hcontext, hadds.files, ?_, [⟨call, .error fault⟩], rfl, ?_⟩
      · rw [State.apply, hadds.findings]
        exact hfindings
      · rw [State.apply, hadds.insights]
    · exact absurd hfatal not_isFatal_error

/-- A stage goes on just where the context meets its need, behind a scan that left no findings. -/
def Depends (c : Context) (stage : Stage) (need : Prop) : Prop :=
  ∀ s : State, s.context = c → s.files = c.changedFiles → s.findings = [] →
    (need ∧ Goes c s (stage.plan s)) ∨
      (¬ need ∧ ∃ fault, stage.plan s = .done (.error fault))

/-- A row of stages goes on just where the context meets all their needs. -/
theorem Continues.advanceAll (hdown : w.IsDown) (row : List (Stage × Prop))
    (hrow : ∀ p ∈ row, Depends c p.1 p.2) (h : Continues c base r) :
    (∃ last, r.advanceAll w (row.map Prod.fst) = (last, .ok ()) ∧ Continues c base last ∧
      ∀ p ∈ row, p.2) ∨
    ∃ last fault, r.advanceAll w (row.map Prod.fst) = (last, .error fault) ∧ ¬ ∀ p ∈ row, p.2 := by
  induction row generalizing r with
  | nil => exact .inl ⟨r, rfl, h, by simp⟩
  | cons p row ih =>
    obtain ⟨hfirst, hrest⟩ := List.forall_mem_cons.mp hrow
    rw [List.map_cons, Run.advanceAll]
    simp only [List.forall_mem_cons]
    rcases hfirst r.state h.context h.files h.findings with
      ⟨hneed, hgoes⟩ | ⟨hunmet, fault, hplan⟩
    · obtain ⟨next, hadvance, hnext⟩ := continues_of_goes hdown h.context h.findings hgoes
      rw [hadvance]
      rcases ih hrest (h.trans hnext) with
        ⟨last, hlast, hcontinues, hmet⟩ | ⟨last, fault, hlast, hunmet⟩
      · exact .inl ⟨last, hlast, hcontinues, hneed, hmet⟩
      · exact .inr ⟨last, fault, hlast, fun hmet => hunmet hmet.2⟩
    · obtain ⟨next, hadvance⟩ := Run.advance_fault (w := w) hplan
      rw [hadvance]
      exact .inr ⟨next, fault, rfl, fun hmet => hunmet hmet.1⟩

/-- The stages behind the scan, with what they need. -/
def restRow (c : Context) : List (Stage × Prop) := [
  (fixStage, ∀ f ∈ c.changedFiles, f.HasNumerals),
  (summaryStage, TotalsFit c.changedFiles),
  (adviceStage, True)]

theorem depends_restRow (c : Context) : ∀ p ∈ restRow c, Depends c p.1 p.2 := by
  simp only [restRow, List.forall_mem_cons]
  refine ⟨?_, ?_, ?_, fun p hp => absurd hp List.not_mem_nil⟩
  · exact fun s hcontext hfiles hfindings => fixStage_goes hcontext hfiles hfindings
  · exact fun s _ hfiles _ => summaryStage_goes hfiles
  · exact fun s _ hfiles _ => .inl ⟨trivial, adviceStage_goes hfiles⟩

/-- A first stage that passes goes on. -/
theorem continues_filed (hdown : w.IsDown) {here : σ} {filed : Run σ}
    (hfiled : (Run.start here c).advance w fileStage = (filed, .ok ())) :
    Continues c (Run.start here c) filed := by
  rcases fileStage_goes (s := (Run.start here c).state) (c := c) rfl with
    ⟨-, hgoes⟩ | ⟨-, fault, hplan⟩
  · obtain ⟨next, hadvance, hnext⟩ := continues_of_goes (c := c) hdown rfl rfl hgoes
    obtain ⟨rfl, -⟩ := Prod.mk.inj (hadvance.symm.trans hfiled)
    exact hnext
  · obtain ⟨next, hadvance⟩ := Run.advance_fault (w := w) hplan
    exact absurd (Prod.mk.inj (hadvance.symm.trans hfiled)).2 (by simp)

/-- A scan asks the backend nothing. If nothing is found, the run behind it goes on from itself. -/
theorem continues_scanned (h : Continues c base r) (hscanned : r.advance w scanStage = (r', .ok ()))
    (hnone : r'.state.findings = []) :
    Continues c r' r' ∧ r'.trace.exchanges = r.trace.exchanges ∧
      ∃ noted, r'.state.insights = r.state.insights ++ noted := by
  obtain ⟨more, o, hyields, hstate, hmore⟩ := Run.advance_ok hscanned
  obtain ⟨findings, scan, -, rfl, ho⟩ := scanStage_yields hyields
  have take := State.takes_apply (s := r.state) ho
  rw [← hstate] at take
  refine ⟨⟨take.context.trans h.context, take.files.trans h.files, hnone, [], ?_, ?_⟩, ?_, ?_⟩
  · exact (List.append_nil _).symm
  · exact (List.append_nil _).symm
  · rw [hmore, List.append_nil]
  · exact ⟨o.insights, by rw [hstate]; rfl⟩

/-- A scan that is off passes and leaves nothing. -/
theorem advance_scan_off (hoff : r.state.context.scanEnabled.truthy = false) :
    ∃ r', r.advance w scanStage = (r', .ok ()) ∧ r'.state.findings = r.state.findings ∧
      r'.state.insights = r.state.insights := by
  have hplan : scanStage.plan r.state =
      .done (.ok { reasoning := ["Static analysis disabled for this run"] }) := by
    unfold scanStage
    dsimp only
    rw [hoff]
    rfl
  unfold Run.advance
  rw [hplan]
  exact ⟨_, rfl, rfl, List.append_nil _⟩

/-- The tokens of a run whose calls all failed. -/
theorem tokens_of_isDown (hdown : w.IsDown) {here : σ} {last : Run σ}
    (h : (Run.start here c).advanceAll w stages = (last, .ok ())) :
    (∀ x ∈ last.trace.exchanges, x.IsFailed) ∧
      last.state.inputTokens = 0 ∧ last.state.outputTokens = 0 := by
  have hfails : ∀ here call, ∃ fault, (w.backend.invoke here call).2 = .error fault := by
    intro here call
    obtain ⟨fault, hfault, -⟩ := hdown here call
    exact ⟨fault, hfault⟩
  have hfailed : ∀ x ∈ last.trace.exchanges, x.IsFailed := by
    have hall := answers_advanceAll (P := fun answer => ∃ fault, answer = .error fault) hfails
      stages (r := Run.start here c) fun e he => absurd he List.not_mem_nil
    rw [h] at hall
    exact hall
  obtain ⟨calls, hpasses, hcalls⟩ := Run.advanceAll_ok h
  obtain ⟨hinput, houtput⟩ := hpasses.tokens fun _ hstage => hstage
  have hcalls : last.trace.exchanges = calls := hcalls
  obtain ⟨hnone, hnone'⟩ := Exchange.tokens_of_isFailed hfailed
  refine ⟨hfailed, ?_, ?_⟩
  · rw [hinput, ← hcalls, hnone]
    rfl
  · rw [houtput, ← hcalls, hnone']
    rfl

end Runs

/-! ## Fallbacks -/

/-- The fixes of a review without a backend. -/
def fallbackFixes (c : Context) : List Fix := (credentialFix c.diff c.changedFiles).toList

/-- The summary of a review without a backend. -/
def fallbackSummary (c : Context) : Except Fault Text :=
  let totals := ChangeTotals.ofFiles c.changedFiles
  countSummary totals.filesChanged totals.linesAdded totals.linesRemoved (fallbackFixes c).length
    c.shownTitle

section Fallbacks

variable {c : Context} {more : List Exchange}

theorem AnalysesFrom.fallback {defaults analyses : FileAnalyses}
    (h : AnalysesFrom c defaults more analyses) (hfailed : ∀ x ∈ more, x.IsFailed) :
    analyses = defaults := by
  cases h with
  | unasked => rfl
  | refused => rfl
  | unread => exact absurd (hfailed _ List.mem_cons_self) Exchange.not_isFailed_ok
  | read => exact absurd (hfailed _ List.mem_cons_self) Exchange.not_isFailed_ok

theorem listedFixes_nil (files : List ChangedFile) :
    listedFixes c files [] = (credentialFix c.diff files).toList := by
  have hnone : Fix.prioritize [] (some maxModelFixes) = [] := by
    unfold Fix.prioritize Fix.sort
    rw [List.mergeSort_nil]
    rfl
  unfold listedFixes
  rw [hnone]
  cases credentialFix c.diff files with
  | none => rfl
  | some fix => exact List.mergeSort_singleton fix

theorem FixesFrom.fallback {files : List ChangedFile} {fixes : List Fix}
    (h : FixesFrom c files [] more fixes) (hfiles : files ≠ []) (hfailed : ∀ x ∈ more, x.IsFailed) :
    fixes = (credentialFix c.diff files).toList := by
  cases h with
  | scanner hfindings => exact absurd rfl hfindings
  | unchanged _ hnone => exact absurd hnone hfiles
  | refused => exact listedFixes_nil files
  | unread => exact absurd (hfailed _ List.mem_cons_self) Exchange.not_isFailed_ok
  | read => exact absurd (hfailed _ List.mem_cons_self) Exchange.not_isFailed_ok

theorem SummaryFrom.fallback {files : List ChangedFile} {counted : Except Fault Text}
    {asked : Except Fault Call} {summary : Text} (h : SummaryFrom files counted asked more summary)
    (hfailed : ∀ x ∈ more, x.IsFailed) : counted = .ok summary := by
  cases h with
  | unchanged _ hcounted => exact hcounted
  | refused _ _ hcounted => exact hcounted
  | blank => exact absurd (hfailed _ List.mem_cons_self) Exchange.not_isFailed_ok
  | read => exact absurd (hfailed _ List.mem_cons_self) Exchange.not_isFailed_ok

theorem AdviceFrom.fallback {files : List ChangedFile} {asked : Call} {items : List Text}
    (h : AdviceFrom files asked more items) (hfailed : ∀ x ∈ more, x.IsFailed) :
    items = defaultRecommendations := by
  cases h with
  | unchanged => rfl
  | refused => rfl
  | read => exact absurd (hfailed _ List.mem_cons_self) Exchange.not_isFailed_ok

/-- The tools of the calls that a review without a backend tries, in order. -/
def triedTools (c : Context) : List Text :=
  (if importantFiles c = [] then [] else ["analyze_files"]) ++
    ["generate_fixes", "generate_summary", "finalize"]

/-- What stands at the end of a run over a context whose calls all failed. -/
structure FallsBack (c : Context) (calls : List Exchange) (s : State) : Prop where
  analyses : FileAnalyses.ofFiles (analyzedFiles c) = .ok s.analyses
  fixes : s.fixes = fallbackFixes c
  summary : fallbackSummary c = .ok s.summary
  recommendations : s.recommendations = defaultRecommendations
  tools : calls.map (·.call.tool) = triedTools c

theorem Passes.fallsBack {scanner : Scan.Outcome} {calls : List Exchange} {t : State}
    (h : Passes scanner { context := c } stages calls t) (hchanged : c.changedFiles ≠ [])
    (hfindings : t.findings = []) (hfailed : ∀ x ∈ calls, x.IsFailed) : FallsBack c calls t := by
  obtain ⟨filed, fixed, told, advised, rfl, hcourse⟩ := h.course
  simp only [List.forall_mem_append] at hfailed
  obtain ⟨hfiled, hfixed, htold, hadvised⟩ := hfailed
  have hfiles : t.files ≠ [] := by
    rw [hcourse.files]
    exact hchanged
  -- of the sources of each part only those of a refused call are left
  obtain ⟨defaults, hdefaults, hanalyses⟩ := hcourse.analyses
  obtain rfl := hanalyses.fallback hfiled
  have hfixes := hcourse.fixes
  rw [hfindings] at hfixes
  have hlisted := hfixes.fallback hfiles hfixed
  rw [hcourse.files] at hlisted
  refine ⟨hdefaults, hlisted, ?_, hcourse.recommendations.fallback hadvised, ?_⟩
  · rw [← hcourse.summary.fallback htold]
    unfold fallbackSummary stateSummary
    rw [hcourse.context, hcourse.files, hlisted]
    rfl
  · unfold triedTools
    simp only [List.map_append, hfixes.asksIf.tools_of ⟨hfiles, rfl⟩,
      hcourse.summary.asksIf.tools_of hfiles, hcourse.recommendations.asksIf.tools_of hfiles]
    by_cases hnone : importantFiles c = []
    · rw [hanalyses.asksIf.tools_of_not (not_not_intro hnone), if_pos hnone]
      rfl
    · rw [hanalyses.asksIf.tools_of hnone, if_neg hnone]
      rfl

end Fallbacks

/-! ## The report -/

/-- What a review without a backend needs to come to a report: line counts and totals that can be
written, a name of the model that can be a key, and a repository that can be searched for its tests
and its coverage. -/
structure OutageFits (d : Disk) (origin : Origin) (c : Context) : Prop where
  counts : ∀ f ∈ c.changedFiles, f.HasNumerals
  totals : TotalsFit c.changedFiles
  model : origin.model.isKey = true
  tests : ∃ tests, TestPlan.suggestFor d c.repository c.changedFiles = .ok tests
  coverage : ∃ coverage, coverageOf d c.repository c.changedFiles = .ok coverage

/-- The report of a review without a backend: its parts are the fallbacks. It has the notices of the
calls, one for each, and what the scan noted; there are none about the budgets. -/
structure OutageReport {σ : Type} (c : Context) (filed scanned run : Run σ) (report : Report) :
    Prop where
  files : ∃ analyses, FileAnalyses.ofFiles (analyzedFiles c) = .ok analyses ∧
    report.files = analyses.map fun e => (e.1, Report.FileEntry.ofAnalysis e.2)
  fixes : report.fixes = (fallbackFixes c).map Report.FixEntry.ofFix
  summary : ∃ summary, fallbackSummary c = .ok summary ∧ report.summary = .text summary
  recommendations : report.recommendations = defaultRecommendations.map .text
  tokens : report.tokens = .int 0
  tools : run.tools = triedTools c
  failed : ∀ x ∈ run.trace.exchanges, x.IsFailed
  insights : ∃ noted later, scanned.state.insights = filed.state.insights ++ noted ∧
    run.trace.exchanges = filed.trace.exchanges ++ later ∧
    report.insights = (filed.trace.exchanges.flatMap notices ++ noted ++
      later.flatMap notices).map .text ∧
    report.insights.length = run.trace.exchanges.length + noted.length

section Reports

variable {d : Disk} {origin : Origin}

/-- A cost of nothing is above no limit. -/
theorem exceeds_zero {limit : Value.Number} (h : Context.isNegative limit = false) :
    exceeds 0.0 limit = false := by
  cases limit with
  | double x => exact h
  | whole n =>
    have hn : 0 ≤ n := by simpa [Context.isNegative] using h
    -- the numerator is zero, so the exponent does not matter
    obtain ⟨e, hzero⟩ : ∃ e, Binary64.ofFloat 0.0 = .finite false 0 e := ⟨_, rfl⟩
    have hnum : (Binary64.ratio 0 e).1 = 0 := by
      unfold Binary64.ratio
      split
      · exact Nat.zero_mul _
      · rfl
    have hcompare : Binary64.compareInt? 0.0 n =
        some (compare (0 : Int) (n * (Binary64.ratio 0 e).2)) := by
      unfold Binary64.compareInt?
      rw [hzero]
      dsimp only
      rw [hnum]
      rfl
    have hle : 0 ≤ n * ((Binary64.ratio 0 e).2 : Int) := Int.mul_nonneg hn (Int.natCast_nonneg _)
    change (Binary64.compareInt? 0.0 n == some .gt) = false
    rw [hcompare, beq_eq_false_iff_ne]
    intro hgt
    have hlt := Int.compare_eq_gt.mp (Option.some.inj hgt)
    omega

/-- A valid context has a budget above zero. -/
theorem tokenBudget_of_isValid {c : Context} (h : c.IsValid) : 0 < c.tokenBudget := by
  obtain ⟨a, ha⟩ := h
  obtain ⟨_, _, _, -, -, hpos, -, -, -, rfl⟩ := Context.ofArguments_eq_ok_iff.mp ha
  exact hpos

/-- A run that used no tokens gets no advice on its budgets. -/
theorem notices_unspent {s : State} (hvalid : s.context.IsValid) (hinput : s.inputTokens = 0)
    (houtput : s.outputTokens = 0) : tokenNotice s = [] ∧ costNotice s 0.0 = .ok [] := by
  have hbudget := tokenBudget_of_isValid hvalid
  obtain ⟨a, ha⟩ := hvalid
  obtain ⟨limit, hlimit, hnonneg⟩ := Context.maxCost_of_valid ha
  constructor
  · unfold tokenNotice State.tokens
    rw [hinput, houtput, if_neg (by omega)]
  · unfold costNotice
    rw [hlimit]
    dsimp only
    rw [exceeds_zero hnonneg]
    rfl

theorem restOf_ok_iff (s : State) (cost : Float) :
    (∃ report, restOf d origin s cost = .ok report) ↔
      (∃ tests, TestPlan.suggestFor d s.context.repository s.files = .ok tests) ∧
        ∃ coverage, coverageOf d s.context.repository s.files = .ok coverage :=
  bind_ok_iff Iff.rfl fun _ _ => bind_pure_ok_iff _

theorem insights_restOf {s : State} {cost : Float} {report : Report}
    (h : restOf d origin s cost = .ok report) : report.insights = s.insights.map .text := by
  obtain ⟨tests, -, h⟩ := exists_of_bind_eq_ok h
  obtain ⟨coverage, -, h⟩ := exists_of_bind_eq_ok h
  obtain rfl := Except.ok.inj h
  rfl

/-- A run that used no tokens ends with a report just where its model can be a key and its
repository can be searched; nothing stands behind the insights of its stages. -/
theorem reportOf_unspent (d : Disk) (origin : Origin) {s : State} (hvalid : s.context.IsValid)
    (hinput : s.inputTokens = 0) (houtput : s.outputTokens = 0) :
    ((∃ report, reportOf d origin s = .ok report) ↔
      origin.model.isKey = true ∧
        (∃ tests, TestPlan.suggestFor d s.context.repository s.files = .ok tests) ∧
        ∃ coverage, coverageOf d s.context.repository s.files = .ok coverage) ∧
    ∀ report, reportOf d origin s = .ok report → report.insights = s.insights.map .text := by
  rw [reportOf_eq, hinput, houtput]
  rcases Usage.estimateCost_zero_cases origin.model with
    ⟨hkey, hcost⟩ | ⟨hkey, fault, hcost⟩
  · obtain ⟨htokens, hnotice⟩ := notices_unspent hvalid hinput houtput
    rw [hcost, ok_bind, hnotice, ok_bind, htokens, List.append_nil]
    refine ⟨⟨?_, ?_⟩, fun report h => ?_⟩
    · rintro ⟨report, h⟩
      obtain ⟨rest, hrest, -⟩ := exists_of_map_eq_ok h
      exact ⟨hkey, (restOf_ok_iff s 0.0).mp ⟨rest, hrest⟩⟩
    · rintro ⟨-, hfound⟩
      obtain ⟨rest, hrest⟩ : ∃ rest, restOf d origin s 0.0 = .ok rest :=
        (restOf_ok_iff s 0.0).mpr hfound
      rw [hrest]
      exact ⟨_, rfl⟩
    · obtain ⟨rest, hrest, rfl⟩ := exists_of_map_eq_ok h
      have hlisted : (rest.advised s.context.mode []).insights = rest.insights := List.append_nil _
      rw [hlisted, insights_restOf hrest]
  · rw [hcost, error_bind]
    exact ⟨iff_of_false (by simp) (by simp [hkey]), fun report h => absurd h (by simp)⟩

end Reports

section Outage

variable {σ : Type} {w : World σ} {here : σ} {d : Disk} {origin : Origin} {c : Context}
  {filed scanned : Run σ}

/-- Behind a scan that left no findings, the stages of a run pass just where the counts of its files
and their totals can be written. -/
theorem advanceAll_outage (hdown : w.IsDown)
    (hfiled : (Run.start here c).advance w fileStage = (filed, .ok ()))
    (hscanned : filed.advance w scanStage = (scanned, .ok ()))
    (hcontinues : Continues c scanned scanned) :
    (∃ last, (Run.start here c).advanceAll w stages = (last, .ok ()) ∧ Continues c scanned last ∧
      (∀ f ∈ c.changedFiles, f.HasNumerals) ∧ TotalsFit c.changedFiles) ∨
    ∃ last fault, (Run.start here c).advanceAll w stages = (last, .error fault) ∧
      ¬ ((∀ f ∈ c.changedFiles, f.HasNumerals) ∧ TotalsFit c.changedFiles) := by
  have hstages : (Run.start here c).advanceAll w stages =
      scanned.advanceAll w ((restRow c).map Prod.fst) := by
    rw [stages, Run.advanceAll, hfiled]
    dsimp only
    rw [Run.advanceAll, hscanned]
    rfl
  have hneeds : (∀ p ∈ restRow c, p.2) ↔
      (∀ f ∈ c.changedFiles, f.HasNumerals) ∧ TotalsFit c.changedFiles := by
    simp [restRow]
  rw [hstages, ← hneeds]
  exact hcontinues.advanceAll hdown (restRow c) (depends_restRow c)

/-- The report at the end of a run whose calls all failed. -/
theorem outageReport {last : Run σ} {report : Report} (hchanged : c.changedFiles ≠ [])
    (hdown : w.IsDown) (hall : (Run.start here c).advanceAll w stages = (last, .ok ()))
    (hnoted : ∃ noted, scanned.state.insights = filed.state.insights ++ noted)
    (hcalls : scanned.trace.exchanges = filed.trace.exchanges)
    (hfiled : Continues c (Run.start here c) filed) (hlast : Continues c scanned last)
    (hreport : reportOf d origin last.state = .ok report)
    (hinsights : report.insights = last.state.insights.map .text) :
    OutageReport c filed scanned last report := by
  obtain ⟨hfailed, hinput, houtput⟩ := tokens_of_isDown hdown hall
  obtain ⟨calls, hpasses, hexchanges⟩ := Run.advanceAll_ok hall
  obtain rfl : last.trace.exchanges = calls := hexchanges
  have hfalls := hpasses.fallsBack hchanged hlast.findings hfailed
  have htells := tells_of_reportOf hreport
  obtain ⟨noted, hnoted⟩ := hnoted
  obtain ⟨later, hlater, hnotices⟩ := hlast.later
  obtain ⟨first, hfirst, hfirstNotices⟩ := hfiled.later
  have hfirst : filed.trace.exchanges = first := hfirst
  have hfirstNotices : filed.state.insights = first.flatMap notices := hfirstNotices
  rw [hcalls] at hlater
  have hlisted : last.state.insights =
      filed.trace.exchanges.flatMap notices ++ noted ++ later.flatMap notices := by
    rw [hnotices, hnoted, hfirstNotices, hfirst]
  constructor
  · exact ⟨_, hfalls.analyses, htells.files⟩
  · rw [htells.fixes, hfalls.fixes]
  · exact ⟨_, hfalls.summary, htells.summary⟩
  · rw [htells.recommendations, hfalls.recommendations]
  · rw [htells.tokens, State.tokens, hinput, houtput]
    rfl
  · rw [← hfalls.tools, Run.tools, Trace.calls, List.map_map]
    rfl
  · exact hfailed
  · refine ⟨noted, later, hnoted, hlater, by rw [hinsights, hlisted], ?_⟩
    rw [hlater] at hfailed
    obtain ⟨hearly, hlate⟩ := List.forall_mem_append.mp hfailed
    rw [hinsights, hlisted, hlater]
    simp only [List.length_map, List.length_append, length_notices hearly, length_notices hlate]
    omega

/-- A full outage. Where every call fails and the scan leaves no findings, a run whose scan stage
passes ends with a report just where the counts can be written and the repository can be searched.
That report has the fallback of every stage and one notice for each call that was tried. -/
theorem outage_report {e : Ended σ} (hvalid : c.IsValid) (hdown : w.IsDown)
    (hchanged : c.changedFiles ≠ [])
    (hfiled : (Run.start here c).advance w fileStage = (filed, .ok ()))
    (hscanned : filed.advance w scanStage = (scanned, .ok ()))
    (hnone : scanned.state.findings = []) (hends : EndsAs w here d origin c e) :
    ((∃ report, e.report = .ok report) ↔ OutageFits d origin c) ∧
      ∀ report, e.report = .ok report → OutageReport c filed scanned e.run report := by
  have hgoes := continues_filed hdown hfiled
  obtain ⟨hcontinues, hcalls, hnoted⟩ := continues_scanned hgoes hscanned hnone
  rw [hends.eq_quick]
  unfold runQuick
  rcases advanceAll_outage hdown hfiled hscanned hcontinues with
    ⟨last, hall, hlast, hcounts, htotals⟩ | ⟨last, fault, hall, hunmet⟩
  · rw [hall]
    obtain ⟨-, hinput, houtput⟩ := tokens_of_isDown hdown hall
    have hvalid : last.state.context.IsValid := by
      rw [hlast.context]
      exact hvalid
    obtain ⟨hok, hinsights⟩ := reportOf_unspent d origin hvalid hinput houtput
    rw [hlast.context, hlast.files] at hok
    constructor
    · refine hok.trans ⟨?_, fun h => ⟨h.model, h.tests, h.coverage⟩⟩
      rintro ⟨hmodel, htests, hcoverage⟩
      exact ⟨hcounts, htotals, hmodel, htests, hcoverage⟩
    · intro report hreport
      exact outageReport hchanged hdown hall hnoted hcalls hgoes hlast hreport
        (hinsights report hreport)
  · rw [hall]
    exact ⟨iff_of_false (by simp [finish]) fun h => hunmet ⟨h.counts, h.totals⟩,
      fun report h => absurd h (by simp [finish])⟩

end Outage

/-! ## A backend that is down -/

/-- A world where nobody answers. -/
def downWorld : World Unit := answering (.error (.runtime "down"))

theorem isDown_downWorld : downWorld.IsDown := fun _ _ => ⟨_, rfl, rfl⟩

/-- The first two stages pass over the change of the settings, and the second one leaves nothing. -/
theorem scanned_configContext : ∃ filed scanned : Run Unit,
    (Run.start () configContext).advance downWorld fileStage = (filed, .ok ()) ∧
      filed.advance downWorld scanStage = (scanned, .ok ()) ∧ scanned.state.findings = [] ∧
      scanned.state.insights = filed.state.insights := by
  rcases fileStage_goes (s := (Run.start () configContext).state) (c := configContext) rfl with
    ⟨-, hgoes⟩ | ⟨hunfit, -⟩
  · obtain ⟨filed, hfiled, hcontinues⟩ :=
      continues_of_goes (c := configContext) isDown_downWorld rfl rfl hgoes
    have hoff : filed.state.context.scanEnabled.truthy = false := by
      rw [hcontinues.context]
      rfl
    obtain ⟨scanned, hscanned, hfindings, hinsights⟩ := advance_scan_off (w := downWorld) hoff
    exact ⟨filed, scanned, hfiled, hscanned, hfindings.trans hcontinues.findings, hinsights⟩
  · exact absurd countsFit_configContext.analyzed hunfit

/-- The run over the change of the settings beside a disk. -/
def downRun (d : Disk) : Ended Unit :=
  runQuick downWorld () d ⟨.text "any", .text "any"⟩ configContext

/-- In an empty repository the review falls back, after four calls. -/
theorem outage_report_configContext : ∃ report, (downRun {}).report = .ok report ∧
    report.tokens = .int 0 ∧ report.insights.length = 4 := by
  have hvalid : configContext.IsValid := ⟨configArguments, rfl⟩
  have hchanged : configContext.changedFiles ≠ [] := List.cons_ne_nil _ _
  have hends : EndsAs downWorld () {} ⟨.text "any", .text "any"⟩ configContext (downRun {}) :=
    .quick
  obtain ⟨filed, scanned, hfiled, hscanned, hnone, hsame⟩ := scanned_configContext
  obtain ⟨hok, hreport⟩ :=
    outage_report hvalid isDown_downWorld hchanged hfiled hscanned hnone hends
  have hfits : OutageFits {} ⟨.text "any", .text "any"⟩ configContext :=
    ⟨countsFit_configContext.changed, countsFit_configContext.totals, rfl,
      isBare_empty.suggestFor _, _, coverageOf_bare isBare_empty _⟩
  obtain ⟨report, hended⟩ := hok.mpr hfits
  have houtage := hreport report hended
  obtain ⟨noted, later, hnoted, -, -, hlength⟩ := houtage.insights
  obtain rfl : noted = [] := List.self_eq_append_right.mp (hsame.symm.trans hnoted)
  have htools := congrArg List.length houtage.tools
  have hfour : (triedTools configContext).length = 4 := by decide
  rw [Run.tools, Trace.calls, List.length_map, List.length_map, hfour] at htools
  exact ⟨report, hended, houtage.tokens, by rw [hlength, htools]; rfl⟩

/-! ## A manifest that cannot be read -/

/-- A report lists tests that were looked for in the repository. -/
theorem suggestFor_of_report {σ : Type} {w : World σ} {here : σ} {d : Disk} {origin : Origin}
    {c : Context} {report : Report} (h : (runQuick w here d origin c).report = .ok report) :
    ∃ tests, TestPlan.suggestFor d c.repository c.changedFiles = .ok tests := by
  unfold runQuick at h
  rcases hall : (Run.start here c).advanceAll w stages with ⟨last, fault | done⟩
  · rw [hall] at h
    exact absurd h (by simp [finish])
  · rw [hall] at h
    have hreport : reportOf d origin last.state = .ok report := h
    obtain ⟨cost, -, hreport⟩ := exists_of_bind_eq_ok hreport
    obtain ⟨notice, -, hreport⟩ := exists_of_bind_eq_ok hreport
    obtain ⟨tests, htests, -⟩ := exists_of_bind_eq_ok hreport
    obtain ⟨hcontext, hfiles⟩ := Run.last_state hall
    rw [hcontext, hfiles] at htests
    exact ⟨tests, htests⟩

/-- A disk whose manifest holds this text. -/
def manifestDisk (content : Text) : Disk where
  entries := [(["package.json"], .file (Text.toUtf8 content) 0)]

theorem fileText_manifestDisk {content : Text} (hcontent : Text.NoReturn content) :
    Repository.fileText (manifestDisk content) "." Repository.manifestName =
      .ok (some content) := Repository.fileText_held hcontent rfl rfl

/-- A manifest that is neither read nor found malformed ends the search for a test framework. -/
theorem detect_manifestDisk {content : Text} {fault : Fault} (hcontent : Text.NoReturn content)
    (hparse : Value.parse content = .error fault) (hfault : fault ≠ .notJson) :
    TestPlan.Framework.detect (manifestDisk content) "." = .error fault := by
  have hmanifest : Repository.manifest (manifestDisk content) "." = .error fault := by
    unfold Repository.manifest
    rw [fileText_manifestDisk hcontent, ok_bind]
    dsimp only
    rw [hparse]
    cases fault <;> first | rfl | exact absurd rfl hfault
  have hfound : Repository.hasFile (manifestDisk content) "." [Repository.manifestName] =
      .ok true := rfl
  unfold TestPlan.Framework.detect TestPlan.Framework.ofManifest?
  rw [hfound, ok_bind, hmanifest]
  rfl

/-- The tests of the settings are not found beside a manifest that is too long a number. -/
theorem suggestFor_longNumber {ones : Text} (hones : Value.IsNumeral ones)
    (hlong : Decimal.maxDigits < ones.length) :
    ¬ ∃ tests, TestPlan.suggestFor (manifestDisk ones) configContext.repository
      configContext.changedFiles = .ok tests := by
  have hparse := Reply.parse_numeral_long hones hlong Value.apart_nil
  rw [List.append_nil] at hparse
  have hcontent : Text.NoReturn ones := fun hmem =>
    Bool.false_ne_true (hones.allDigits '\r' hmem)
  have hdetect := detect_manifestDisk hcontent hparse (by simp [Fault.tooManyDigits])
  have hmore : ¬ (TestPlan.codeFiles [configFile]).length ≤
      (TestPlan.testPaths [configFile]).length := by decide
  rintro ⟨tests, htests⟩
  have hsuggest : TestPlan.suggestFor (manifestDisk ones) configContext.repository
      configContext.changedFiles =
        TestPlan.Framework.detect (manifestDisk ones) "." >>= fun framework =>
          .ok (TestPlan.suggestions framework [configFile]) := by
    unfold TestPlan.suggestFor
    exact if_neg hmore
  rw [hsuggest, hdetect] at htests
  exact absurd htests (by simp [error_bind])

/-- Beside a manifest that is too long a number, the review without a backend is lost. -/
theorem longNumber_loses_outage :
    configContext.IsValid ∧ downWorld.IsDown ∧ configContext.changedFiles ≠ [] ∧
      (∃ filed scanned : Run Unit,
        (Run.start () configContext).advance downWorld fileStage = (filed, .ok ()) ∧
        filed.advance downWorld scanStage = (scanned, .ok ()) ∧ scanned.state.findings = []) ∧
      ¬ ∃ report, (downRun (manifestDisk (List.replicate (Decimal.maxDigits + 1) '1'))).report =
        .ok report := by
  obtain ⟨filed, scanned, hfiled, hscanned, hnone, -⟩ := scanned_configContext
  refine ⟨⟨configArguments, rfl⟩, isDown_downWorld, List.cons_ne_nil _ _,
    ⟨filed, scanned, hfiled, hscanned, hnone⟩, ?_⟩
  rintro ⟨report, hreport⟩
  have hlong : Decimal.maxDigits < (List.replicate (Decimal.maxDigits + 1) '1').length := by
    rw [List.length_replicate]
    exact Nat.lt_succ_self _
  exact suggestFor_longNumber (Reply.isNumeral_ones _) hlong (suggestFor_of_report hreport)

end Workflow

end ChangeReview
