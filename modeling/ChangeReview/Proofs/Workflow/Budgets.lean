import ChangeReview.Proofs.Workflow.Alike
import ChangeReview.Proofs.Workflow.Survival
import Mathlib.Algebra.Group.Int.Defs

/-!
# Budgets and mode give advice only

No stage looks at the budgets or the mode of a context: contexts that differ in nothing else make the
same plans, so their runs make the same calls and scans and come to the same draft of a report. The
budgets add their notices behind the insights of that draft, and the mode is written into it. A notice
has to be written, though. An infinite cost is above every limit, and a whole limit beyond the doubles
cannot be shown with two places: then the run is lost.
-/
namespace ChangeReview

/-- The contexts differ in nothing but their budgets and their mode. -/
def Context.SameReview (c c' : Context) : Prop :=
  c' = { c with tokenBudget := c'.tokenBudget, maxCost := c'.maxCost, mode := c'.mode }

/-- The arguments of a context passed their checks. -/
def Context.IsValid (c : Context) : Prop := ∃ a, Context.ofArguments a = .ok c

/-- The report with a mode, and with notices behind its insights. -/
def Report.advised (r : Report) (mode : Option Report.Mode) (notices : List Text) : Report :=
  { r with mode, insights := r.insights ++ notices.map .text }

namespace Workflow

/-! ## Plans -/

section Plans

variable {s : State} {c : Context}

theorem summaryStage_sameReview (h : s.context.SameReview c) :
    summaryStage.plan (s.under c) = summaryStage.plan s := by
  rw [h]
  generalize hs : s.under { s.context with
    tokenBudget := c.tokenBudget, maxCost := c.maxCost, mode := c.mode } = s'
  have counts : stateSummary s' = stateSummary s := by subst hs; rfl
  have call : summaryCall s' = summaryCall s := by subst hs; rfl
  have resume : resumeSummary s' = resumeSummary s := by subst hs; rfl
  have files : s'.files = s.files := by subst hs; rfl
  unfold summaryStage
  dsimp only
  rw [counts, call, resume, files]

/-- No stage looks at budgets or mode. -/
theorem plan_sameReview (h : s.context.SameReview c) {stage : Stage} (hs : stage ∈ stages) :
    stage.plan (s.under c) = stage.plan s := by
  simp only [stages, List.mem_cons, List.not_mem_nil, or_false] at hs
  rcases hs with rfl | rfl | rfl | rfl | rfl
  · rw [h]; rfl
  · rw [h]; rfl
  · rw [h]; rfl
  · exact summaryStage_sameReview h
  · rw [h]; rfl

end Plans

/-! ## Advice -/

/-- The notice about tokens above the budget. -/
def tokenAdvice (c : Context) (tokens : Int) : List Text :=
  if c.tokenBudget < tokens then
    ["Token usage " ++ Text.ofInt tokens ++ " exceeded the budget of " ++ Text.ofInt c.tokenBudget]
  else []

/-- The notice about a cost above the limit, which is shown with two places. -/
inductive CostAdvice (c : Context) (cost : Float) : List Text → Prop where
  | within {limit : Value.Number} : c.maxCost.number? = some limit → exceeds cost limit = false →
      CostAdvice c cost []
  | above {limit : Value.Number} {shown : Text} : c.maxCost.number? = some limit →
      exceeds cost limit = true → showLimit limit = .ok shown →
      CostAdvice c cost
        ["Estimated cost $" ++ Decimal.fixed 4 cost ++ " exceeded the limit of $" ++ shown]

/-- A cost that is no finite number is above a whole limit that cannot be shown. -/
structure Unshowable (c : Context) (cost : Float) (n : Int) : Prop where
  limit : c.maxCost.number? = some (.whole n)
  large : Binary64.wholeLimit ≤ n.natAbs
  above : exceeds cost (.whole n) = true
  infinite : ¬ Binary64.field cost < 2047

/-- What a run comes to before its budgets are looked at: a fault, or its tokens, its cost and the
rest of its report. -/
inductive Draft where
  | failed (fault : Fault)
  | costed (tokens : Int) (cost : Float) (rest : Except Fault Report)

/-- What the budgets and the mode of a context make of a draft. -/
inductive Advised (c : Context) : Draft → Except Fault Report → Prop where
  | failed {fault : Fault} : Advised c (.failed fault) (.error fault)
  | lost {tokens n : Int} {cost : Float} {rest : Except Fault Report} : Unshowable c cost n →
      Advised c (.costed tokens cost rest) (.error Decimal.tooLarge)
  | broken {tokens : Int} {cost : Float} {notices : List Text} {fault : Fault} :
      CostAdvice c cost notices → Advised c (.costed tokens cost (.error fault)) (.error fault)
  | told {tokens : Int} {cost : Float} {notices : List Text} {report : Report} :
      report.tokens = .int tokens → report.cost = .float cost → CostAdvice c cost notices →
      Advised c (.costed tokens cost (.ok report))
        (.ok (report.advised c.mode (tokenAdvice c tokens ++ notices)))

/-! ## Drafts -/

/-- The rest of a report, behind its cost. -/
def restOf (d : Disk) (origin : Origin) (s : State) (cost : Float) : Except Fault Report := do
  let tests ← TestPlan.suggestFor d s.context.repository s.files
  let coverage ← coverageOf d s.context.repository s.files
  return {
    summary := .text s.summary
    files := s.analyses.map fun e => (e.1, Report.FileEntry.ofAnalysis e.2)
    fixes := s.fixes.map Report.FixEntry.ofFix
    recommendations := s.recommendations.map .text
    insights := s.insights.map .text
    reasoning := s.reasoning.map .text
    tokens := .int s.tokens
    provider := origin.provider
    model := origin.model
    cost := .float cost
    docs := docsImpact s
    scan := scanFigures s
    tests := tests.map Report.TestEntry.ofSuggestion
    costs := (Infra.estimates s.files).map Report.CostEntry.ofEstimate
    coverage }

theorem reportOf_eq (d : Disk) (origin : Origin) (s : State) :
    reportOf d origin s =
      Usage.estimateCost origin.model s.inputTokens s.outputTokens >>= fun cost =>
        costNotice s cost >>= fun notices =>
          (restOf d origin s cost).map fun report =>
            report.advised s.context.mode (tokenNotice s ++ notices) := by
  unfold reportOf restOf
  refine congrArg _ (funext fun cost => congrArg _ (funext fun notices => ?_))
  cases TestPlan.suggestFor d s.context.repository s.files with
  | error fault => rfl
  | ok tests =>
    simp only [ok_bind]
    cases coverageOf d s.context.repository s.files with
    | error fault => rfl
    | ok coverage =>
      simp only [ok_bind]
      rw [List.append_assoc, List.map_append]
      rfl

/-- The draft that the last state of a run makes. -/
def draftOf (d : Disk) (origin : Origin) (s : State) : Draft :=
  match Usage.estimateCost origin.model s.inputTokens s.outputTokens with
  | .error fault => .failed fault
  | .ok cost => .costed s.tokens cost (restOf d origin s cost)

/-- The draft does not depend on budgets and mode. -/
theorem draftOf_sameReview (d : Disk) (origin : Origin) {s : State} {c : Context}
    (h : s.context.SameReview c) : draftOf d origin (s.under c) = draftOf d origin s := by
  rw [h]
  rfl

theorem restOf_figures {d : Disk} {origin : Origin} {s : State} {cost : Float} {report : Report}
    (h : restOf d origin s cost = .ok report) :
    report.tokens = .int s.tokens ∧ report.cost = .float cost := by
  obtain ⟨tests, -, h⟩ := exists_of_bind_eq_ok h
  obtain ⟨coverage, -, h⟩ := exists_of_bind_eq_ok h
  obtain rfl := Except.ok.inj h
  exact ⟨rfl, rfl⟩

/-- A limit that cannot be shown is a whole number beyond the doubles. -/
theorem showLimit_fault {limit : Value.Number} {fault : Fault} (h : showLimit limit = .error fault) :
    fault = Decimal.tooLarge ∧ ∃ n, limit = .whole n ∧ Binary64.wholeLimit ≤ n.natAbs := by
  cases limit with
  | double x => exact absurd h (by simp [showLimit])
  | whole n =>
    cases hnearest : Decimal.nearest n with
    | ok x => exact absurd h (by simp [showLimit, hnearest, Except.map])
    | error fault' =>
      have hsame : fault' = fault := by
        rw [showLimit, hnearest] at h
        exact Except.error.inj h
      refine ⟨?_, n, rfl, Nat.le_of_not_lt fun hsmall => ?_⟩
      · rw [← hsame]
        unfold Decimal.nearest at hnearest
        split at hnearest
        · exact absurd hnearest (by simp)
        · exact (Except.error.inj hnearest).symm
      · obtain ⟨x, hx⟩ := (Decimal.nearest_eq_ok_iff n).mpr hsmall
        exact absurd (hx.symm.trans hnearest) (by simp)

/-- The notice on the cost is written, unless the cost is infinite and the limit cannot be shown. -/
theorem costNotice_cases {s : State} (hvalid : s.context.IsValid) (cost : Float) :
    (∃ notices, costNotice s cost = .ok notices ∧ CostAdvice s.context cost notices) ∨
      ∃ n, costNotice s cost = .error Decimal.tooLarge ∧ Unshowable s.context cost n := by
  obtain ⟨a, ha⟩ := hvalid
  obtain ⟨limit, hlimit, hnonneg⟩ := Context.maxCost_of_valid ha
  have hnotice : costNotice s cost = if exceeds cost limit then
      (showLimit limit).map fun shown =>
        ["Estimated cost $" ++ Decimal.fixed 4 cost ++ " exceeded the limit of $" ++ shown]
    else .ok [] := by
    unfold costNotice
    rw [hlimit]
  cases hexceeds : exceeds cost limit with
  | false =>
    rw [hexceeds] at hnotice
    exact .inl ⟨[], hnotice, .within hlimit hexceeds⟩
  | true =>
    rw [hexceeds] at hnotice
    cases hshown : showLimit limit with
    | ok shown =>
      rw [hshown] at hnotice
      exact .inl ⟨_, hnotice, .above hlimit hexceeds hshown⟩
    | error fault =>
      obtain ⟨rfl, n, rfl, hlarge⟩ := showLimit_fault hshown
      rw [hshown] at hnotice
      refine .inr ⟨n, hnotice, hlimit, hlarge, hexceeds, fun hfinite => ?_⟩
      obtain ⟨notices, hnotices⟩ := costNotice_ok hfinite hlimit hnonneg
      exact absurd (hnotices.symm.trans hnotice) (by simp [Except.map])

theorem advised_reportOf (d : Disk) (origin : Origin) {s : State} (hvalid : s.context.IsValid) :
    Advised s.context (draftOf d origin s) (reportOf d origin s) := by
  unfold draftOf
  rw [reportOf_eq]
  cases Usage.estimateCost origin.model s.inputTokens s.outputTokens with
  | error fault => exact .failed
  | ok cost =>
    rw [ok_bind]
    change Advised s.context (.costed s.tokens cost (restOf d origin s cost)) _
    rcases costNotice_cases hvalid cost with ⟨notices, hnotice, hadvice⟩ | ⟨n, hnotice, hlost⟩
    · rw [hnotice, ok_bind]
      cases hrest : restOf d origin s cost with
      | error fault => exact .broken hadvice
      | ok report =>
        change Advised s.context (.costed s.tokens cost (.ok report))
          (.ok (report.advised s.context.mode (tokenAdvice s.context s.tokens ++ notices)))
        obtain ⟨htokens, hcost⟩ := restOf_figures hrest
        exact .told htokens hcost hadvice
    · rw [hnotice, error_bind]
      exact .lost hlost

/-! ## Both drivers -/

/-- Budgets and mode are advice. Runs over two contexts that differ in nothing else leave the backend
in the same state, make the same calls with the same prompts, start the same scans and come to one
draft. Each context makes its report of that draft: its mode, and behind the insights a notice about
the tokens just if they are above the budget and one about the cost just if it is above the limit. -/
theorem budgets_are_advice {σ : Type} (w : World σ) (here : σ) (d : Disk) (origin : Origin)
    {c c' : Context} (hvalid : c.IsValid) (hvalid' : c'.IsValid) (hsame : c.SameReview c')
    {e e' : Ended σ} (h : EndsAs w here d origin c e) (h' : EndsAs w here d origin c' e') :
    e'.run.backend = e.run.backend ∧ e'.run.trace = e.run.trace ∧
      ∃ draft, Advised c draft e.report ∧ Advised c' draft e'.report := by
  have hplans : ∀ stage ∈ stages, ∀ s : State, s.context = c →
      stage.plan (s.under c') = stage.plan s := by
    rintro stage hs s rfl
    exact plan_sameReview hsame hs
  have hstart : Run.start here c' = (Run.start here c).under c' := rfl
  have hcontext := Run.advanceAll_context w (Run.start here c) stages
  -- the second run goes through the states of the first one, each in its own context
  rw [h.eq_quick, h'.eq_quick]
  unfold runQuick
  rw [hstart, Run.advanceAll_under stages hplans rfl]
  rcases hall : (Run.start here c).advanceAll w stages with ⟨r, fault | done⟩
  · exact ⟨rfl, rfl, .failed fault, .failed, .failed⟩
  · rw [hall] at hcontext
    have hc : r.state.context = c := hcontext
    have hdraft := advised_reportOf d origin (s := r.state) (by rw [hc]; exact hvalid)
    have hdraft' := advised_reportOf d origin (s := r.state.under c') hvalid'
    rw [draftOf_sameReview d origin (by rw [hc]; exact hsame)] at hdraft'
    rw [hc] at hdraft
    exact ⟨rfl, rfl, draftOf d origin r.state, hdraft, hdraft'⟩

/-- A backend that reports counts whose cost is beyond the doubles. -/
def costlyWorld : World Unit where
  backend := ⟨.text "any", .text "any", fun here _ => (here, .ok ⟨[], some ⟨5 * 10 ^ 307, 0⟩⟩)⟩
  scanner := .notInstalled

/-- A small change without a scan, with this limit of cost. -/
def limitedContext (limit : Value) : Context where
  diff := []
  files := [{ path := "app.py", additions := 1 }]
  maxCost := limit
  wantsScan := false

/-- The run over the small change with this limit of cost. -/
def limitedRun (limit : Value) : Ended Unit :=
  runQuick costlyWorld () {} ⟨.text "any", .text "any"⟩ (limitedContext limit)

/-- The limit is checked, and the rest is as it is given. -/
theorem limitedContext_isValid {limit : Value} {n : Value.Number} (hlimit : limit.number? = some n)
    (hn : Context.isNegative n = false) : (limitedContext limit).IsValid := by
  let files : List ChangedFile := [{ path := "app.py", additions := 1 }]
  exact ⟨{ diff := .text [], maxCost := limit, files, wantsScan := false },
    Context.ofArguments_eq_ok_iff.mpr
      ⟨[], 100000, n, rfl, rfl, by decide, hlimit, hn, rfl, rfl⟩⟩

/-- Runs under two limits make the same calls. -/
theorem budgets_are_advice_limits :
    (limitedRun (.int 7)).run.trace = (limitedRun (.float 5.0)).run.trace := by
  have hvalid : (limitedContext (.float 5.0)).IsValid :=
    limitedContext_isValid rfl (by decide +kernel)
  have hvalid' : (limitedContext (.int 7)).IsValid := limitedContext_isValid rfl (by decide +kernel)
  have hends : ∀ limit, EndsAs costlyWorld () {} ⟨.text "any", .text "any"⟩ (limitedContext limit)
      (limitedRun limit) := fun limit => .quick
  exact (budgets_are_advice costlyWorld () {} ⟨.text "any", .text "any"⟩ hvalid hvalid' rfl
    (hends (.float 5.0)) (hends (.int 7))).2.1

/-- Under a whole limit beyond the doubles the run is lost, under another one it is not. -/
theorem hugeLimit_loses_run :
    (limitedContext (.float 5.0)).IsValid ∧ (limitedContext (.int (10 ^ 400))).IsValid ∧
      (limitedContext (.float 5.0)).SameReview (limitedContext (.int (10 ^ 400))) ∧
      (∃ report, (limitedRun (.float 5.0)).report = .ok report) ∧
      ¬ ∃ report, (limitedRun (.int (10 ^ 400))).report = .ok report := by
  have hvalid : (limitedContext (.float 5.0)).IsValid :=
    limitedContext_isValid rfl (by decide +kernel)
  have hvalid' : (limitedContext (.int (10 ^ 400))).IsValid :=
    limitedContext_isValid rfl (by decide +kernel)
  have hends : (limitedRun (.float 5.0)).report.toOption.isSome = true := by decide +kernel
  have hlost : (limitedRun (.int (10 ^ 400))).report.toOption.isNone = true := by decide +kernel
  refine ⟨hvalid, hvalid', rfl, ?_, ?_⟩
  · obtain ⟨report, hreport⟩ := Option.isSome_iff_exists.mp hends
    exact ⟨report, eq_ok_of_toOption hreport⟩
  · rintro ⟨report, hreport⟩
    rw [hreport] at hlost
    exact Bool.noConfusion hlost

end Workflow

end ChangeReview
