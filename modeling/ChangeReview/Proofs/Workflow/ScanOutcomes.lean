import ChangeReview.Proofs.Scan.SoundReports

/-!
# What the scan stage comes to

The stage turns a scanner that failed into a notice, and a report that it cannot use into none: the
fault of such a report ends the run. The stage comes to an output exactly when its command can be
made, unless the scanner is not there, and what was printed is no report or one that can be used.
-/
namespace ChangeReview.Workflow

open Scan

/-- The stage comes to an output where an attempt to start the scanner ends so. -/
def Withstands (o : Options) (language framework : Value) (changed : List Text) :
    Scan.Outcome → Prop
  | .notInstalled => True
  | .timedOut => IsLaunchable o language framework ∧
      ∀ n, o.timeout.whole? = some n → Decimal.HasNumeral (n + graceSeconds)
  | .launchFailed _ => IsLaunchable o language framework
  | .finished stdout _ _ => IsLaunchable o language framework ∧
      (PrintsNone stdout ∨ ∃ report, Prints stdout report ∧ IsSound changed report)

/-- The scanner printed no report, if it ran at all. -/
def GivesNoReport : Scan.Outcome → Prop
  | .finished stdout _ _ => PrintsNone stdout
  | _ => True

/-- The output of a scan without a report: no findings and a notice. -/
structure Degrades (out : Output) : Prop where
  findings : out.findings = some []
  insights : ∃ notice, out.insights = [notice]

/-! ## Results -/

section Results

variable {files : List ChangedFile} {command : Except Fault Command} {outcome : Scan.Outcome}

theorem resumeScan_of_error {fault : Fault} (h : Scan.run command outcome = .error fault)
    (hescapes : fault.isOfScan = false) :
    resumeScan files command outcome = .error fault := by
  unfold resumeScan
  rw [h]
  cases fault <;> first | rfl | exact Bool.noConfusion hescapes

theorem resumeScan_of_ok {r : Scan.Result} (h : Scan.run command outcome = .ok r) :
    resumeScan files command outcome = scanOutput files r := by
  unfold resumeScan
  rw [h]

theorem run_finished (c : Command) (stdout stderr : Text) (exitCode : Int) :
    Scan.run (.ok c) (.finished stdout stderr exitCode) =
      readReport stdout >>= fun printed => match printed with
        | some result => .ok result
        | none => .error (.scan
          ("Semgrep produced no parseable output: " ++ complaint stderr exitCode)) := rfl

theorem run_printsNone {stdout : Text} (h : PrintsNone stdout) (c : Command) (stderr : Text)
    (exitCode : Int) : ∃ message,
      Scan.run (.ok c) (.finished stdout stderr exitCode) = .error (.scan message) := by
  rw [run_finished, readReport_printsNone h]
  exact ⟨_, rfl⟩

theorem run_prints {stdout : Text} {report : Value} (h : Prints stdout report) (c : Command)
    (stderr : Text) (exitCode : Int) :
    Scan.run (.ok c) (.finished stdout stderr exitCode) = taken report := by
  rw [run_finished, readReport_prints h]
  cases taken report <;> rfl

/-- A scan with a result goes on as far as the result can be used. -/
theorem requires_resumeScan {P Q : Prop} (h : Requires (Scan.run command outcome) P)
    (hresult : ∀ r, Scan.run command outcome = .ok r → Requires (scanOutput files r) Q) :
    Requires (resumeScan files command outcome) (P ∧ Q) := by
  cases hrun : Scan.run command outcome with
  | ok r =>
    rw [hrun] at h
    rw [resumeScan_of_ok hrun]
    exact (hresult r hrun).congr (and_iff_right (h.ok_iff.mp ⟨r, rfl⟩)).symm
  | error fault =>
    rw [hrun] at h
    cases h with
    | fault fails escapes =>
      rw [resumeScan_of_error hrun escapes]
      exact .fault (fun hpq => fails hpq.1) escapes

end Results

/-- What is told of a scanner that is not there. -/
def absentScanner : Scan.Result where
  errors := [launchError "warning" "semgrep_not_installed" "Semgrep is not installed on this system"]

/-- What is told of a scanner that could not be started or did not end. -/
def failedLaunch (message : Text) : Scan.Result where
  errors := [launchError "error" "execution_error" message]

/-- Without a report, only a scanner that did not run has a result. -/
theorem run_ok_cases {command : Except Fault Command} {outcome : Scan.Outcome} {r : Scan.Result}
    (h : Scan.run command outcome = .ok r) (hnone : GivesNoReport outcome) :
    r = absentScanner ∨ ∃ message, r = failedLaunch message := by
  cases outcome with
  | notInstalled => exact .inl (Except.ok.inj h).symm
  | timedOut =>
    obtain ⟨c, -, h⟩ := exists_of_bind_eq_ok h
    obtain ⟨shown, -, h⟩ := exists_of_bind_eq_ok h
    exact .inr ⟨_, (Except.ok.inj h).symm⟩
  | launchFailed message =>
    change command.map _ = .ok r at h
    obtain ⟨c, -, rfl⟩ := exists_of_map_eq_ok h
    exact .inr ⟨message, rfl⟩
  | finished stdout stderr exitCode =>
    cases command with
    | error fault => exact absurd h (by simp [Scan.run, error_bind])
    | ok c =>
      obtain ⟨message, hrun⟩ := run_printsNone hnone c stderr exitCode
      exact absurd (hrun.symm.trans h) (by simp)

section Launches

variable (files : List ChangedFile)

theorem scanOutput_absent : ∃ out, scanOutput files absentScanner = .ok out ∧ Degrades out :=
  ⟨_, rfl, rfl, _, rfl⟩

theorem scanOutput_failedLaunch (message : Text) :
    ∃ out, scanOutput files (failedLaunch message) = .ok out ∧ Degrades out :=
  ⟨_, rfl, rfl, _, rfl⟩

/-- A result without a report is told in a notice. -/
theorem exists_scanOutput {command : Except Fault Command} {outcome : Scan.Outcome} {r : Scan.Result}
    (h : Scan.run command outcome = .ok r) (hnone : GivesNoReport outcome) :
    ∃ out, scanOutput files r = .ok out ∧ Degrades out := by
  rcases run_ok_cases h hnone with rfl | ⟨message, rfl⟩
  · exact scanOutput_absent files
  · exact scanOutput_failedLaunch files message

/-- Where the scanner printed no report, the stage needs no more than the scan does. -/
theorem requires_resumeScan_of_givesNoReport {command : Except Fault Command} {outcome : Scan.Outcome}
    {P : Prop} (h : Requires (Scan.run command outcome) P) (hnone : GivesNoReport outcome) :
    Requires (resumeScan files command outcome) P := by
  refine (requires_resumeScan (Q := True) h fun r hr => ?_).congr (and_iff_left trivial)
  obtain ⟨out, hout, -⟩ := exists_scanOutput files hr hnone
  rw [hout]
  exact .ok trivial

end Launches

/-! ## The stage -/

section Stage

variable {target : Value} {o : Options} {language framework : Value} {files : List ChangedFile}

/-- A scan of a scanner that does not run needs a command, unless the scanner is not there. The limit
of a process that did not end in time is told, so it has to be one that can be written. -/
theorem requires_run {outcome : Scan.Outcome} (h : ∀ stdout stderr exitCode,
    outcome ≠ .finished stdout stderr exitCode) (changed : List Text) :
    Requires (Scan.run (command target o language framework) outcome)
      (Withstands o language framework changed outcome) := by
  have hcommand := requires_command target o language framework
  cases outcome with
  | notInstalled => exact .ok trivial
  | launchFailed message => exact hcommand.map _
  | finished stdout stderr exitCode => exact absurd rfl (h stdout stderr exitCode)
  | timedOut =>
    refine hcommand.bind fun c hc => ((requires_written c.timeout).map _).congr ?_
    rcases timeout_of_command hc with ⟨n, hwhole, hsum⟩ | ⟨hnone, hsum⟩
    · rw [hwhole, hsum]
      constructor
      · rintro h m hm
        obtain rfl := Option.some.inj hm
        exact h _ rfl
      · rintro h m hm
        obtain rfl := Value.int.inj hm
        exact h n rfl
    · rw [hnone]
      exact iff_of_true (fun n hn => absurd hn (hsum n)) (by simp)

/-- A scanner that ran leaves the stage with an output when its report can be used, or when there is
none. -/
theorem resumeScan_finished_ok_iff {command : Except Fault Command} {P : Prop}
    (hcommand : Requires command P) (stdout stderr : Text) (exitCode : Int) :
    (∃ out, resumeScan files command (.finished stdout stderr exitCode) = .ok out) ↔
      P ∧ (PrintsNone stdout ∨ ∃ report, Prints stdout report ∧
        IsSound (Finding.normalPaths (files.map (·.path))) report) := by
  cases hcommand with
  | @fault fault _ fails escapes =>
    have hrun : Scan.run (.error fault) (.finished stdout stderr exitCode) = .error fault := rfl
    rw [resumeScan_of_error hrun escapes]
    exact iff_of_false (by simp) fun h => fails h.1
  | @ok c _ holds =>
    rw [and_iff_right holds]
    rcases printed_cases stdout with hnone | ⟨report, hprints⟩ | ⟨hnone, hprints, fault, hread, hescapes⟩
    · obtain ⟨message, hrun⟩ := run_printsNone hnone c stderr exitCode
      refine iff_of_true ⟨failedScan (.scan message), ?_⟩ (.inl hnone)
      unfold resumeScan
      rw [hrun]
    · have hrun := run_prints hprints c stderr exitCode
      have hrequires : Requires (resumeScan files (.ok c) (.finished stdout stderr exitCode))
          (IsReadable report ∧ IsSound (Finding.normalPaths (files.map (·.path))) report) := by
        refine requires_resumeScan (hrun ▸ requires_taken report) fun r hr => ?_
        rw [hrun] at hr
        exact (taken_inv hr).requires_scanOutput ((requires_taken report).ok_iff.mp ⟨r, hr⟩) files
      rw [hrequires.ok_iff, or_iff_right hprints.not_printsNone]
      constructor
      · exact fun h => ⟨report, hprints, h.2⟩
      · rintro ⟨report', hprints', hsound⟩
        obtain rfl := Except.ok.inj (hprints.reads.symm.trans hprints'.reads)
        exact ⟨⟨hsound.results, hsound.errors, fun e he => (hsound.entries e he).parts⟩, hsound⟩
    · have hrun : Scan.run (.ok c) (.finished stdout stderr exitCode) = .error fault := by
        rw [run_finished, hread]
        rfl
      rw [resumeScan_of_error hrun hescapes]
      refine iff_of_false (by simp) ?_
      rintro (h | ⟨report, h, -⟩)
      · exact hnone h
      · exact hprints report h

theorem resumeScan_ok_iff (outcome : Scan.Outcome) :
    (∃ out, resumeScan files (command target o language framework) outcome = .ok out) ↔
      Withstands o language framework (Finding.normalPaths (files.map (·.path))) outcome := by
  cases outcome with
  | finished stdout stderr exitCode =>
    exact resumeScan_finished_ok_iff (requires_command target o language framework) stdout stderr exitCode
  | _ =>
    refine Requires.ok_iff (requires_resumeScan_of_givesNoReport files (requires_run ?_ _) trivial)
    simp

/-- Without a report there are no findings, and one notice says so. -/
theorem resumeScan_degrades {command : Except Fault Command} {outcome : Scan.Outcome} {out : Output}
    (h : resumeScan files command outcome = .ok out) (hnone : GivesNoReport outcome) :
    Degrades out := by
  cases hrun : Scan.run command outcome with
  | ok r =>
    rw [resumeScan_of_ok hrun] at h
    obtain ⟨out', hout, hdegrades⟩ := exists_scanOutput files hrun hnone
    exact Except.ok.inj (hout.symm.trans h) ▸ hdegrades
  | error fault =>
    cases hscan : fault.isOfScan with
    | false =>
      rw [resumeScan_of_error hrun hscan] at h
      exact absurd h (by simp)
    | true =>
      have hfailed : resumeScan files command outcome = .ok (failedScan fault) := by
        unfold resumeScan
        rw [hrun]
        cases fault <;> first | rfl | exact Bool.noConfusion hscan
      obtain rfl := Except.ok.inj (hfailed.symm.trans h)
      exact ⟨rfl, _, rfl⟩

end Stage

/-- A stage that is to run the scanner comes to an output exactly where it withstands the outcome.
Where the scanner printed no report, that output has no findings and one notice. -/
theorem scanStage_ok_iff {σ : Type} (w : World σ) (here : σ) (s : State)
    (henabled : s.context.scanEnabled.truthy = true) :
    let c := s.context
    let result := ((scanStage.plan s).perform w here).2.2
    ((∃ out, result = .ok out) ↔
      Withstands (c.scanOptions.getD {}) c.language c.framework
        (Finding.normalPaths (s.files.map (·.path))) w.scanner) ∧
      ∀ out, result = .ok out → GivesNoReport w.scanner → Degrades out := by
  intro c result
  have hplan : result = resumeScan s.files
      (command c.repository (c.scanOptions.getD {}) c.language c.framework) w.scanner := by
    have hon : (!s.context.scanEnabled.truthy) = false := by rw [henabled]; rfl
    unfold result scanStage
    simp only [hon]
    rfl
  rw [hplan]
  exact ⟨resumeScan_ok_iff w.scanner, fun out h hnone => resumeScan_degrades h hnone⟩

/-- A scan of one changed file. -/
def scanState : State where
  context := { diff := [], files := [{ path := "app.py", additions := 1 }] }
  files := [{ path := "app.py", additions := 1 }]

/-- A world with this outcome of the scanner, where nobody answers. -/
def scanWorld (outcome : Scan.Outcome) : World Unit where
  backend := ⟨.text "any", .text "any", fun here _ => (here, .error (.runtime "down"))⟩
  scanner := outcome

theorem isLaunchable_default : IsLaunchable {} .null .null where
  rulesets := ⟨fun h => absurd h Bool.false_ne_true, fun h => absurd h Bool.false_ne_true⟩
  excludes h := absurd h Bool.false_ne_true
  timeout := rfl
  shownTimeout n hn := by
    obtain rfl := Value.int.inj hn
    unfold Decimal.HasNumeral
    decide +kernel
  shownMaxFileBytes n hn := by
    obtain rfl := Value.int.inj hn
    unfold Decimal.HasNumeral
    decide +kernel

/-- A scanner that only complains leaves no findings and a notice. -/
theorem scanStage_ok_iff_complaint :
    ∃ out, ((scanStage.plan scanState).perform (scanWorld (.finished [] "no rules" 2)) ()).2.2 =
      .ok out ∧ Degrades out := by
  obtain ⟨hends, hdegrades⟩ :=
    scanStage_ok_iff (scanWorld (.finished [] "no rules" 2)) () scanState rfl
  have hblank : PrintsNone [] := .inl rfl
  obtain ⟨out, hout⟩ := hends.mpr ⟨isLaunchable_default, .inl hblank⟩
  exact ⟨out, hout, hdegrades out hout hblank⟩

/-- A report with nothing in the place of its results ends the run. -/
theorem scanStage_nullResults :
    ¬ ∃ out, ((scanStage.plan scanState).perform
      (scanWorld (.finished "\x7b\"results\": null\x7d" [] 0)) ()).2.2 = .ok out := by
  have hlost : ((scanStage.plan scanState).perform
      (scanWorld (.finished "\x7b\"results\": null\x7d" [] 0)) ()).2.2.toOption.isNone = true := by
    decide +kernel
  rintro ⟨out, hout⟩
  rw [hout] at hlost
  exact Bool.noConfusion hlost

end ChangeReview.Workflow
