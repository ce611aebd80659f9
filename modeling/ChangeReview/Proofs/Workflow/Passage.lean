import ChangeReview.Proofs.Workflow.Lockstep

/-!
# What a completed run went through

A run that ends with a report has come through all its stages, whichever way it was run. Each stage
came to an output, with or without an exchange with the backend, and the state behind it is the one
before with that output applied. So a run is a row of outputs, and what holds of every output of a
stage holds along the run.
-/
namespace ChangeReview

/-- What a step may come to where an attempt to start the scanner ends so: the exchanges that it has
with the backend, and the output of its stage. -/
inductive Step.Yields (scanner : Scan.Outcome) : Step → List Exchange → Output → Prop where
  | done {o : Output} : Yields scanner (.done (.ok o)) [] o
  | ask {call : Call} {resume : Except Fault Response → Except Fault Output}
      {answer : Except Fault Response} {o : Output} :
      resume answer = .ok o → Yields scanner (.ask call resume) [⟨call, answer⟩] o
  | scan {command : Except Fault Scan.Command} {resume : Scan.Outcome → Except Fault Output}
      {o : Output} : resume scanner = .ok o → Yields scanner (.scan command resume) [] o

/-- Whatever a step comes to in a world, it may come to. -/
theorem Step.yields_perform {σ : Type} {w : World σ} {here : σ} {step : Step} {o : Output}
    (h : (step.perform w here).2.2 = .ok o) :
    step.Yields w.scanner (step.perform w here).2.1.exchanges o := by
  cases step with
  | done result =>
    obtain rfl : result = .ok o := h
    exact .done
  | ask call resume => exact .ask h
  | scan command resume => exact .scan h

namespace Workflow

variable {σ : Type} {w : World σ}

/-- A row of stages leads from one state to another by way of these exchanges. -/
inductive Passes (scanner : Scan.Outcome) : State → List Stage → List Exchange → State → Prop where
  | nil {s : State} : Passes scanner s [] [] s
  | cons {s t : State} {stage : Stage} {rest : List Stage} {more calls : List Exchange}
      {o : Output} : (stage.plan s).Yields scanner more o → Passes scanner (s.apply o) rest calls t →
      Passes scanner s (stage :: rest) (more ++ calls) t

theorem Run.advance_ok {r r' : Run σ} {stage : Stage} (h : r.advance w stage = (r', .ok ())) :
    ∃ more o, (stage.plan r.state).Yields w.scanner more o ∧ r'.state = r.state.apply o ∧
      r'.trace.exchanges = r.trace.exchanges ++ more := by
  have hyields := @Step.yields_perform σ w r.backend (stage.plan r.state)
  unfold advance at h
  generalize (stage.plan r.state).perform w r.backend = done at h hyields
  obtain ⟨next, trace, fault | o⟩ := done
  · exact absurd (Prod.mk.inj h).2 (by simp)
  · obtain ⟨rfl, -⟩ := Prod.mk.inj h
    exact ⟨trace.exchanges, o, hyields rfl, rfl, rfl⟩

/-- Stages that go on lead from the state before them to the one behind them. -/
theorem Run.advanceAll_ok {r r' : Run σ} {row : List Stage}
    (h : r.advanceAll w row = (r', .ok ())) :
    ∃ calls, Passes w.scanner r.state row calls r'.state ∧
      r'.trace.exchanges = r.trace.exchanges ++ calls := by
  induction row generalizing r with
  | nil =>
    obtain ⟨rfl, -⟩ := Prod.mk.inj h
    exact ⟨[], .nil, (List.append_nil _).symm⟩
  | cons stage rest ih =>
    unfold advanceAll at h
    rcases hstep : r.advance w stage with ⟨next, fault | done⟩
    · rw [hstep] at h
      exact absurd (Prod.mk.inj h).2 (by simp)
    · rw [hstep] at h
      obtain ⟨more, o, hyields, hstate, hmore⟩ := advance_ok hstep
      obtain ⟨calls, hpasses, hcalls⟩ := ih h
      rw [hstate] at hpasses
      refine ⟨more ++ calls, .cons hyields hpasses, ?_⟩
      rw [hcalls, hmore, List.append_assoc]

/-! ## Completed runs -/

/-- A run over a context comes through all its stages and makes a report, the quick way or the
recorded one. -/
inductive Completes (w : World σ) (d : Disk) (origin : Origin) (c : Context) :
    Run σ → Report → Prop where
  | quick {here : σ} {run : Run σ} {report : Report} :
      runQuick w here d origin c = ⟨run, .ok report⟩ → Completes w d origin c run report
  | recorded {τ : Type} {o : Observer τ} {here : σ} {watching : τ} {rec : Recording σ τ}
      {report : Report} : runRecorded w o here watching d origin c = ⟨rec, .ok report⟩ →
      Completes w d origin c rec.run report

/-- What a report says is what the state holds. -/
structure Tells (s : State) (report : Report) : Prop where
  summary : report.summary = .text s.summary
  files : report.files = s.analyses.map fun e => (e.1, Report.FileEntry.ofAnalysis e.2)
  fixes : report.fixes = s.fixes.map Report.FixEntry.ofFix
  recommendations : report.recommendations = s.recommendations.map .text
  tokens : report.tokens = .int s.tokens
  docs : report.docs = docsImpact s
  scan : report.scan = scanFigures s

theorem tells_of_reportOf {d : Disk} {origin : Origin} {s : State} {report : Report}
    (h : reportOf d origin s = .ok report) : Tells s report := by
  unfold reportOf at h
  obtain ⟨cost, -, h⟩ := exists_of_bind_eq_ok h
  obtain ⟨notice, -, h⟩ := exists_of_bind_eq_ok h
  obtain ⟨tests, -, h⟩ := exists_of_bind_eq_ok h
  obtain ⟨coverage, -, h⟩ := exists_of_bind_eq_ok h
  obtain rfl := Except.ok.inj h
  exact ⟨rfl, rfl, rfl, rfl, rfl, rfl, rfl⟩

section Completed

variable {d : Disk} {origin : Origin} {c : Context} {run : Run σ} {report : Report}

/-- The quick way comes to whatever the recorded way comes to. -/
theorem Completes.exists_quick (h : Completes w d origin c run report) :
    ∃ here, runQuick w here d origin c = ⟨run, .ok report⟩ := by
  cases h with
  | quick h => exact ⟨_, h⟩
  | @recorded τ o here watching rec report h =>
    have hquick := runRecorded_run w o here watching d origin c
    rw [h] at hquick
    exact ⟨here, hquick.symm⟩

/-- A completed run has passed all stages from the start, and its report is that of its last
state. -/
theorem Completes.passes (h : Completes w d origin c run report) :
    Passes w.scanner { context := c } stages run.trace.exchanges run.state ∧ Tells run.state report := by
  obtain ⟨here, h⟩ := h.exists_quick
  unfold runQuick at h
  rcases hall : (Run.start here c).advanceAll w stages with ⟨r, fault | done⟩
  · rw [hall] at h
    exact absurd (Ended.mk.inj h).2 (by simp)
  · rw [hall] at h
    obtain ⟨rfl, hreport⟩ := Ended.mk.inj h
    obtain ⟨calls, hpasses, hcalls⟩ := Run.advanceAll_ok hall
    rw [hcalls]
    exact ⟨hpasses, tells_of_reportOf hreport⟩

end Completed

/-! ## A recorded run to its end -/

/-- A world whose backend answers every stage in its own way: with a count below zero, not at all,
without counts, and with a list; the scanner finds nothing. -/
def talkative : World Unit where
  backend := {
    provider := .text "any"
    model := .text "any"
    invoke := fun here call => (here,
      if call.tool = "analyze_files" then .ok ⟨"Nothing to see", some ⟨7, -3⟩⟩
      else if call.tool = "generate_fixes" then .error (.runtime "down")
      else if call.tool = "generate_summary" then .ok ⟨"Adds a setting.", none⟩
      else .ok ⟨"- Test it", some ⟨2, 1⟩⟩) }
  scanner := .finished "\x7b\"results\": []\x7d" [] 0

/-- A change with credentials in it. -/
def settingContext : Context where
  diff := "+password = 1"
  files := [{ path := "config.py", additions := 30 }]

/-- An observer who fails at everything. -/
def failingObserver : Observer Unit := ⟨fun t _ => (t, .error (.runtime "closed"))⟩

/-- The recorded run over the change. -/
def talk : EndedRecording Unit Unit :=
  runRecorded talkative failingObserver () () {} ⟨.text "any", .text "any"⟩ settingContext

theorem exists_report_talk : ∃ report, talk.report = .ok report := by
  have hends : talk.report.toOption.isSome = true := by decide +kernel
  obtain ⟨report, hreport⟩ := Option.isSome_iff_exists.mp hends
  exact ⟨report, eq_ok_of_toOption hreport⟩

theorem exists_completes_talk : ∃ report,
    Completes talkative {} ⟨.text "any", .text "any"⟩ settingContext talk.recording.run report := by
  obtain ⟨report, hreport⟩ := exists_report_talk
  have htalk : talk = ⟨talk.recording, .ok report⟩ := by rw [← hreport]
  exact ⟨report, .recorded htalk⟩

end Workflow

end ChangeReview
