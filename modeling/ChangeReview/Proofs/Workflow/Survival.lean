import ChangeReview.Proofs.Repository.SameFiles
import ChangeReview.Proofs.Usage.CostRange
import ChangeReview.Proofs.Workflow.Arguments
import ChangeReview.Proofs.Workflow.Lockstep
import ChangeReview.Proofs.Workflow.Stages

/-!
# Which runs end with a report

A run without a scan, over a repository without configuration files, ends with a report unless its
line counts are too large to be written or an answer of the backend is fatal to it. A failed call is
never fatal: it adds its one notice to the report, and so does a reply that cannot be used.
-/
namespace ChangeReview

namespace Context

/-- The line counts of a change are in the range of what a run writes and scores. -/
structure CountsFit (c : Context) : Prop where
  analyzed : ∀ f ∈ Workflow.analyzedFiles c, f.Fits
  changed : ∀ f ∈ c.changedFiles, f.HasNumerals
  totals : Workflow.TotalsFit c.changedFiles

/-- A valid context limits its cost by a number that is not below zero. -/
theorem maxCost_of_valid {a : Arguments} {c : Context} (h : ofArguments a = .ok c) :
    ∃ limit, c.maxCost.number? = some limit ∧ isNegative limit = false := by
  obtain ⟨_, _, limit, -, -, -, hlimit, hnonneg, -, rfl⟩ := ofArguments_eq_ok_iff.mp h
  exact ⟨limit, hlimit, hnonneg⟩

end Context

namespace Workflow

/-! ## Rows of stages -/

section Rows

variable {σ : Type} {w : World σ} {c : Context}

/-- A run whose first `n` stages are over and whose answers were none of them fatal. -/
structure Alive (c : Context) (n : Nat) (r : Run σ) : Prop where
  sound : Sound c n r.trace.exchanges r.state
  spared : ∀ e ∈ r.trace.exchanges, ¬ IsFatal c e

theorem alive_start (here : σ) (c : Context) : Alive c 0 (Run.start here c) where
  sound := {
    context := rfl
    files := fun h => absurd h (Nat.lt_irrefl 0)
    findings := rfl
    insights := rfl
    input := ⟨Int.le_refl 0, Int.natCast_nonneg _⟩
    output := ⟨Int.le_refl 0, Int.natCast_nonneg _⟩ }
  spared _ he := absurd he List.not_mem_nil

/-- Behind `n` stages, the next one goes on just where the context meets its need. -/
def Needs (c : Context) (n : Nat) (stage : Stage) (need : Prop) : Prop :=
  ∀ calls s, Sound c n calls s →
    (need ∧ Goes c s (stage.plan s)) ∨
      (¬ need ∧ ∃ fault, stage.plan s = .done (.error fault))

/-- A row of stages behind `n` others, with what all of it needs. -/
inductive Row (c : Context) : Nat → List Stage → Prop → Prop where
  | nil (n : Nat) : Row c n [] True
  | cons {n : Nat} {stage : Stage} {rest : List Stage} {need needs : Prop} :
      Needs c n stage need → Row c (n + 1) rest needs → Row c n (stage :: rest) (need ∧ needs)

/-- A stage that goes on keeps a run alive, unless its answer is fatal. -/
theorem Alive.advance {n : Nat} {r : Run σ} (hr : Alive c n r)
    (hbackend : ∀ here call, IsBenign (w.backend.invoke here call).2) {stage : Stage}
    (hgoes : Goes c r.state (stage.plan r.state)) :
    (∃ r', r.advance w stage = (r', .ok ()) ∧ Alive c (n + 1) r') ∨
      ∃ r' fault, r.advance w stage = (r', .error fault) ∧
        ∃ e ∈ r'.trace.exchanges, IsFatal c e := by
  unfold Run.advance
  generalize stage.plan r.state = step at hgoes
  cases hgoes with
  | @done o hadds =>
    have hsound : Sound c (n + 1) (r.trace.exchanges ++ []) (r.state.apply o) :=
      hr.sound.apply hadds
    refine .inl ⟨_, rfl, hsound, ?_⟩
    intro e he
    rcases List.mem_append.mp he with hold | hnew
    · exact hr.spared e hold
    · exact absurd hnew List.not_mem_nil
  | @ask call resume hask =>
    have hperform : (Step.ask call resume).perform w r.backend =
        ((w.backend.invoke r.backend call).1,
          { exchanges := [⟨call, (w.backend.invoke r.backend call).2⟩] },
          resume (w.backend.invoke r.backend call).2) := rfl
    rw [hperform]
    rcases hask _ (hbackend r.backend call) with
      ⟨hspared, o, hresume, hadds⟩ | ⟨hfatal, fault, hresume⟩
    · rw [hresume]
      rw [← List.flatMap_singleton notices] at hadds
      refine .inl ⟨_, rfl, hr.sound.apply hadds, ?_⟩
      intro e he
      rcases List.mem_append.mp he with hold | hnew
      · exact hr.spared e hold
      · rw [List.mem_singleton.mp hnew]
        exact hspared
    · rw [hresume]
      exact .inr ⟨_, fault, rfl, _, List.mem_append_right _ (List.mem_singleton.mpr rfl), hfatal⟩

/-- A row of stages goes on where the context meets all its needs and no answer is fatal, and
nowhere else. -/
theorem Alive.advanceAll {n : Nat} {row : List Stage} {needs : Prop} (hrow : Row c n row needs)
    (hbackend : ∀ here call, IsBenign (w.backend.invoke here call).2) {r : Run σ}
    (hr : Alive c n r) :
    (∃ r', r.advanceAll w row = (r', .ok ()) ∧ Alive c (n + row.length) r' ∧ needs) ∨
      ∃ r' fault, r.advanceAll w row = (r', .error fault) ∧
        ¬ (needs ∧ ∀ e ∈ r'.trace.exchanges, ¬ IsFatal c e) := by
  induction hrow generalizing r with
  | nil n => exact .inl ⟨r, rfl, hr, trivial⟩
  | @cons n stage rest need needs hneeds hrest ih =>
    unfold Run.advanceAll
    rcases hneeds _ _ hr.sound with ⟨hneed, hgoes⟩ | ⟨hunmet, fault, hplan⟩
    · rcases hr.advance hbackend hgoes with
        ⟨r', hadvance, hr'⟩ | ⟨r', fault, hadvance, e, he, hfatal⟩
      · rw [hadvance]
        have hlength : n + (stage :: rest).length = n + 1 + rest.length := by
          rw [List.length_cons]
          omega
        rw [hlength]
        rcases ih hr' with ⟨last, hlast, halive, hmet⟩ | ⟨last, fault, hlast, hnot⟩
        · exact .inl ⟨last, hlast, halive, hneed, hmet⟩
        · exact .inr ⟨last, fault, hlast, fun h => hnot ⟨h.1.2, h.2⟩⟩
      · rw [hadvance]
        exact .inr ⟨r', fault, rfl, fun h => h.2 e he hfatal⟩
    · obtain ⟨r', hadvance⟩ := Run.advance_fault (w := w) hplan
      rw [hadvance]
      exact .inr ⟨r', fault, rfl, fun h => hunmet h.1.1⟩

/-- The stages of a run without a scan need counts that fit. -/
theorem row_stages (hoff : c.scanEnabled.truthy = false) :
    ∃ needs, Row c 0 stages needs ∧ (needs ↔ c.CountsFit) := by
  have hfirst : Needs c 0 fileStage (∀ f ∈ analyzedFiles c, f.Fits) :=
    fun calls s hs => fileStage_goes hs.context
  have hsecond : Needs c 1 scanStage True := fun calls s hs =>
    .inl ⟨trivial, scanStage_goes hs.context (hs.files (by decide)) hoff⟩
  have hthird : Needs c 2 fixStage (∀ f ∈ c.changedFiles, f.HasNumerals) :=
    fun calls s hs => fixStage_goes hs.context (hs.files (by decide)) hs.findings
  have hfourth : Needs c 3 summaryStage (TotalsFit c.changedFiles) :=
    fun calls s hs => summaryStage_goes (hs.files (by decide))
  have hfifth : Needs c 4 adviceStage True := fun calls s hs =>
    .inl ⟨trivial, adviceStage_goes (hs.files (by decide))⟩
  refine ⟨_, .cons hfirst (.cons hsecond (.cons hthird (.cons hfourth
    (.cons hfifth (.nil 5))))), ?_⟩
  constructor
  · rintro ⟨hanalyzed, -, hchanged, htotals, -⟩
    exact ⟨hanalyzed, hchanged, htotals⟩
  · intro h
    exact ⟨h.analyzed, trivial, h.changed, h.totals, trivial, trivial⟩

end Rows

/-! ## The report of a run that went on -/

section Reports

/-- A limit of cost is either above the cost or in the range of what a notice shows. -/
theorem costNotice_ok {s : State} {cost : Float} (hcost : Binary64.field cost < 2047)
    {limit : Value.Number} (hlimit : s.context.maxCost.number? = some limit)
    (hnonneg : Context.isNegative limit = false) : ∃ limits, costNotice s cost = .ok limits := by
  unfold costNotice
  rw [hlimit]
  dsimp only
  by_cases hexceeds : exceeds cost limit = true
  · rw [if_pos hexceeds]
    cases limit with
    | double x => exact ⟨_, rfl⟩
    | whole n =>
      have hn : 0 ≤ n := by simpa [Context.isNegative] using hnonneg
      have hgreater : Binary64.compareInt? cost n = some .gt := by
        simpa [exceeds] using hexceeds
      obtain ⟨x, hx⟩ := (Decimal.nearest_eq_ok_iff n).mpr
        (Binary64.natAbs_lt_of_compareInt? hcost hn hgreater)
      exact ⟨_, by rw [showLimit, hx]; rfl⟩
  · rw [if_neg hexceeds]
    exact ⟨[], rfl⟩

variable {c : Context} {s : State} {calls : List Exchange}

/-- The tokens of a run are in the range of finite costs. -/
theorem Sound.tokens_lt (hs : Sound c stages.length calls s) :
    s.inputTokens.natAbs < 2 ^ 903 ∧ s.outputTokens.natAbs < 2 ^ 903 := by
  have hinput := hs.input
  have houtput := hs.output
  have hlimit : 2 ^ 903 = 8 * usageLimit := by
    unfold usageLimit
    rw [show 903 = 3 + 900 from rfl, Nat.pow_add]
  have hlength : stages.length = 5 := rfl
  have hpos : 0 < usageLimit := Nat.two_pow_pos 900
  rw [hlimit]
  rw [hlength] at hinput houtput
  generalize usageLimit = limit at *
  omega

theorem coverageOf_bare {d : Disk} {repository : Text} (hbare : d.IsBare repository)
    (files : List ChangedFile) : coverageOf d (.text repository) files = .ok none := by
  unfold coverageOf
  split
  · exact hbare.report
  · rfl

/-- The last state of a run becomes a report, whose notices are those of its calls and then those
about its budgets. -/
theorem reportOf_sound {d : Disk} {origin : Origin} {repository : Text} {limit : Value.Number}
    (hs : Sound c stages.length calls s) (hmodel : origin.model.isKey = true)
    (hrepository : c.repository = .text repository) (hbare : d.IsBare repository)
    (hlimit : c.maxCost.number? = some limit) (hnonneg : Context.isNegative limit = false) :
    ∃ report cost limits, reportOf d origin s = .ok report ∧ report.cost = .float cost ∧
      costNotice s cost = .ok limits ∧
      report.insights = (calls.flatMap notices ++ tokenNotice s ++ limits).map .text := by
  obtain ⟨hinput, houtput⟩ := hs.tokens_lt
  obtain ⟨cost, hcost, hfinite⟩ :=
    Usage.estimateCost_finite hmodel (by decide) hinput houtput
  obtain ⟨limits, hlimits⟩ := costNotice_ok (s := s) hfinite (by rw [hs.context]; exact hlimit)
    hnonneg
  obtain ⟨suggestions, hsuggestions⟩ := hbare.suggestFor s.files
  have hcoverage := coverageOf_bare hbare s.files
  unfold reportOf
  rw [hcost, hs.context, hrepository, ← hs.insights]
  dsimp only [bind, Except.bind]
  rw [hlimits]
  dsimp only [bind, Except.bind]
  rw [hsuggestions]
  dsimp only [bind, Except.bind]
  rw [hcoverage]
  exact ⟨_, cost, limits, rfl, rfl, hlimits, rfl⟩

end Reports

/-! ## The answers of a run -/

section Answers

variable {σ : Type} {w : World σ} {P : Except Fault Response → Prop}
  (hP : ∀ here call, P (w.backend.invoke here call).2)

include hP

theorem answers_advance {r : Run σ} (hr : ∀ e ∈ r.trace.exchanges, P e.answer) (stage : Stage) :
    ∀ e ∈ (r.advance w stage).1.trace.exchanges, P e.answer := by
  have hperform : ∀ e ∈ ((stage.plan r.state).perform w r.backend).2.1.exchanges, P e.answer := by
    intro e he
    cases hplan : stage.plan r.state with
    | done result =>
      rw [hplan] at he
      exact absurd he List.not_mem_nil
    | ask call resume =>
      rw [hplan] at he
      obtain rfl := List.mem_singleton.mp he
      exact hP r.backend call
    | scan command resume =>
      rw [hplan] at he
      exact absurd he List.not_mem_nil
  have htrace : (r.advance w stage).1.trace.exchanges =
      r.trace.exchanges ++ ((stage.plan r.state).perform w r.backend).2.1.exchanges := by
    unfold Run.advance
    rcases (stage.plan r.state).perform w r.backend with ⟨next, trace, _ | o⟩ <;> rfl
  intro e he
  rw [htrace] at he
  rcases List.mem_append.mp he with hold | hnew
  · exact hr e hold
  · exact hperform e hnew

/-- The answers of a run are answers that the backend gives. -/
theorem answers_advanceAll (row : List Stage) {r : Run σ}
    (hr : ∀ e ∈ r.trace.exchanges, P e.answer) :
    ∀ e ∈ (r.advanceAll w row).1.trace.exchanges, P e.answer := by
  induction row generalizing r with
  | nil => exact hr
  | cons stage rest ih =>
    have hnext := answers_advance hP hr stage
    unfold Run.advanceAll
    generalize r.advance w stage = step at hnext
    obtain ⟨next, fault | done⟩ := step
    · exact hnext
    · exact ih hnext

theorem answers_runRecorded {τ : Type} (o : Observer τ) (here : σ) (watching : τ) (d : Disk)
    (origin : Origin) (c : Context) :
    ∀ e ∈ (runRecorded w o here watching d origin c).recording.run.trace.exchanges, P e.answer := by
  have hquick := congrArg Ended.run (runRecorded_run w o here watching d origin c)
  dsimp only at hquick
  rw [hquick]
  have hall := answers_advanceAll hP stages (r := Run.start here c)
    fun e he => absurd he List.not_mem_nil
  unfold runQuick
  generalize (Run.start here c).advanceAll w stages = ended at hall
  obtain ⟨r, fault | done⟩ := ended
  · exact hall
  · exact hall

end Answers

/-! ## Runs -/

section Runs

variable {σ τ : Type} {w : World σ} {d : Disk} {origin : Origin} {a : Context.Arguments}
  {c : Context} {repository : Text}

/-- A run without a scan over a bare repository ends with a report just where its counts fit and no
answer was fatal. The report has the notices of all calls in their order, one for each that failed,
and behind them those about the budgets. -/
theorem report_ok_iff (o : Observer τ) (here : σ) (watching : τ)
    (hvalid : Context.ofArguments a = .ok c) (hoff : c.scanEnabled.truthy = false)
    (hrepository : c.repository = .text repository) (hbare : d.IsBare repository)
    (hmodel : origin.model.isKey = true)
    (hbackend : ∀ here call, IsBenign (w.backend.invoke here call).2) :
    let e := runRecorded w o here watching d origin c
    let run := e.recording.run
    ((∃ report, e.report = .ok report) ↔
      c.CountsFit ∧ ∀ x ∈ run.trace.exchanges, ¬ IsFatal c x) ∧
    ∀ report, e.report = .ok report → ∃ cost limits, report.cost = .float cost ∧
      costNotice run.state cost = .ok limits ∧ report.insights =
        (run.trace.exchanges.flatMap notices ++ tokenNotice run.state ++ limits).map .text := by
  intro e run
  have hquick : (⟨run, e.report⟩ : Ended σ) = runQuick w here d origin c :=
    runRecorded_run w o here watching d origin c
  obtain ⟨limit, hlimit, hnonneg⟩ := Context.maxCost_of_valid hvalid
  obtain ⟨needs, hrow, hneeds⟩ := row_stages hoff
  rcases (alive_start here c).advanceAll hrow hbackend with
    ⟨r, hr, halive, hmet⟩ | ⟨r, fault, hr, hnot⟩
  · rw [runQuick, hr, finish, Ended.mk.injEq] at hquick
    obtain ⟨hrun, hreport⟩ := hquick
    rw [Nat.zero_add] at halive
    obtain ⟨report, cost, limits, hreported, hcost, hlimits, hinsights⟩ :=
      reportOf_sound halive.sound hmodel hrepository hbare hlimit hnonneg
    rw [hrun, hreport, hreported]
    refine ⟨iff_of_true ⟨report, rfl⟩ ⟨hneeds.mp hmet, halive.spared⟩, ?_⟩
    intro report' hsame
    obtain rfl := Except.ok.inj hsame
    exact ⟨cost, limits, hcost, hlimits, hinsights⟩
  · rw [runQuick, hr, finish, Ended.mk.injEq] at hquick
    obtain ⟨hrun, hreport⟩ := hquick
    rw [hrun, hreport, ← hneeds]
    exact ⟨iff_of_false (by simp) hnot, fun report h => absurd h (by simp)⟩

/-- A reply that spoils the analyses ends the run at its first stage. -/
theorem report_of_spoiled {here : σ} {r : Response} (hfit : ∀ f ∈ analyzedFiles c, f.Fits)
    (himportant : (importantFiles c).isEmpty = false)
    (hanswer : ∀ call, (w.backend.invoke here call).2 = .ok r)
    (hspoils : Reply.SpoilsAnalyses ((analyzedFiles c).map (·.path)) r.text) (d : Disk)
    (origin : Origin) : ∃ fault, (runQuick w here d origin c).report = .error fault := by
  obtain ⟨defaults, hdefaults⟩ := (FileAnalyses.ofFiles_ok_iff _).mpr hfit
  have hplan : ∃ call docs, fileStage.plan (Run.start here c).state =
      .ask call (resumeFiles c defaults docs) := by
    unfold fileStage Run.start
    dsimp only
    rw [hdefaults]
    dsimp only
    rw [himportant]
    exact ⟨_, _, rfl⟩
  obtain ⟨call, docs, hplan⟩ := hplan
  have hresume : ∃ fault, resumeFiles c defaults docs (.ok r) = .error fault := by
    unfold resumeFiles
    dsimp only
    rcases Reply.fileAnalyses_cases (FileAnalyses.lookup_ofFiles hdefaults) r.text with
      ⟨-, -, hspared⟩ | ⟨fault, -, -, -, hspared⟩ | ⟨fault, hfault, hbad, hmismatch, -⟩
    · exact absurd hspoils hspared
    · exact absurd hspoils hspared
    · rw [hfault]
      dsimp only
      rw [hbad, hmismatch]
      exact ⟨fault, rfl⟩
  obtain ⟨fault, hresume⟩ := hresume
  have hadvance : ∃ r', (Run.start here c).advance w fileStage = (r', .error fault) := by
    have hanswered : (w.backend.invoke (Run.start here c).backend call).2 = .ok r := hanswer call
    unfold Run.advance
    rw [hplan, Step.perform]
    dsimp only
    rw [hanswered, hresume]
    exact ⟨_, rfl⟩
  obtain ⟨r', hadvance⟩ := hadvance
  unfold runQuick stages
  rw [Run.advanceAll, hadvance]
  exact ⟨fault, rfl⟩

end Runs

/-! ## Runs over one file -/

/-- A world whose backend gives every call the same answer. -/
def answering (answer : Except Fault Response) : World Unit where
  backend := {
    provider := .text "any"
    model := .text "any"
    invoke := fun here _ => (here, answer) }
  scanner := .notInstalled

/-- A file that the model looks at. -/
def configFile : ChangedFile := { path := "config.py", additions := 30 }

/-- The arguments of a run over one file, without a scan. -/
def configArguments : Context.Arguments where
  diff := .text []
  files := [configFile]
  wantsScan := false

def configContext : Context where
  diff := []
  files := [configFile]
  wantsScan := false

theorem countsFit_configContext : configContext.CountsFit := by
  have hnumerals : configFile.HasNumerals := by
    constructor <;> (unfold Decimal.HasNumeral; decide +kernel)
  have hfits : configFile.Fits := ⟨hnumerals, by decide +kernel⟩
  have htotals : TotalsFit [configFile] := by
    constructor <;> (unfold Decimal.HasNumeral; decide +kernel)
  refine ⟨?_, ?_, htotals⟩
  · intro f hf
    obtain rfl := List.mem_singleton.mp hf
    exact hfits
  · intro f hf
    obtain rfl := List.mem_singleton.mp hf
    exact hnumerals

/-- The backend refuses every call and the observer fails at every stage; there is a report. -/
theorem report_ok_refused :
    let w := answering (.error (.runtime "down"))
    let origin := originOf w.backend .null .null
    Context.ofArguments configArguments = .ok configContext ∧
      configContext.scanEnabled.truthy = false ∧ configContext.repository = .text "." ∧
      Disk.IsBare {} "." ∧ origin.model.isKey = true ∧
      (∀ here call, IsBenign (w.backend.invoke here call).2) ∧
      ∃ report, (runRecorded w ⟨fun t _ => (t, .error (.runtime "closed"))⟩ () () {} origin
        configContext).report = .ok report := by
  intro w origin
  have hvalid : Context.ofArguments configArguments = .ok configContext := rfl
  have hmodel : origin.model.isKey = true := rfl
  have hbenign : ∀ here call, IsBenign (w.backend.invoke here call).2 := fun _ _ => rfl
  refine ⟨hvalid, rfl, rfl, isBare_empty, hmodel, hbenign, ?_⟩
  refine (report_ok_iff _ () () hvalid rfl rfl isBare_empty hmodel hbenign).1.mpr
    ⟨countsFit_configContext, ?_⟩
  rintro ⟨call, answer⟩ he
  have hanswer := answers_runRecorded (P := fun answer => answer = .error (.runtime "down"))
    (fun _ _ => rfl) _ _ _ _ _ _ _ he
  obtain rfl : answer = .error (.runtime "down") := hanswer
  exact not_isFatal_error

/-- An infinite complexity in a reply loses the whole report. -/
theorem report_lost : ¬ ∀ (w : World Unit) (here : Unit) (d : Disk) (a : Context.Arguments)
    (c : Context) (repository : Text), Context.ofArguments a = .ok c →
      c.scanEnabled.truthy = false → c.repository = .text repository → d.IsBare repository →
      (∀ here call, IsBenign (w.backend.invoke here call).2) →
        ∃ report, (runQuick w here d (originOf w.backend .null .null) c).report = .ok report := by
  intro h
  obtain ⟨reply, hreply⟩ : ∃ reply : Text,
      reply = "\x7b\"config.py\": \x7b\"complexity\": 1e999\x7d\x7d" := ⟨_, rfl⟩
  have hobject : Reply.extractObject reply = .ok [("config.py",
      .object [("complexity", .float (Binary64.assemble false Binary64.infinityBits))])] := by
    rw [hreply]
    decide +kernel
  have hinfinite : Reply.IsInfinite (Binary64.assemble false Binary64.infinityBits) :=
    ⟨false, by decide +kernel⟩
  have hspoils : Reply.SpoilsAnalyses ((analyzedFiles configContext).map (·.path)) reply :=
    .inr ⟨_, hobject, "config.py", _, List.mem_cons_self, List.mem_cons_self,
      .infinite hinfinite⟩
  have hbenign : IsBenign (.ok ⟨reply, none⟩) := fun u hu => absurd hu (by simp)
  obtain ⟨report, hreport⟩ := h (answering (.ok ⟨reply, none⟩)) () {} configArguments configContext
    "." rfl rfl rfl isBare_empty fun _ _ => hbenign
  obtain ⟨fault, hfault⟩ := report_of_spoiled (w := answering (.ok ⟨reply, none⟩))
    countsFit_configContext.analyzed (by decide) (fun _ => rfl) hspoils {} _
  exact absurd (hreport.symm.trans hfault) (by simp)

end Workflow

end ChangeReview
