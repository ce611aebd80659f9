import ChangeReview.Workflow.Run

/-!
# Two ways to run and two ways to name the files

The recorded way does nothing to a run but watch it: its run is that of the quick way, whatever the
observer makes of the stages. The stages in turn do not see whether a context names its changed
files or leaves them to be read from the diff. They ask for `Context.changedFiles`, so every plan,
every answer and the report are the same for both.
-/
namespace ChangeReview

def Context.withFiles (c : Context) (files : List ChangedFile) : Context := { c with files }

/-- The state with another context. -/
def State.under (s : State) (c : Context) : State := { s with context := c }

def State.withFiles (s : State) (files : List ChangedFile) : State :=
  { s with context := s.context.withFiles files }

/-- Other names for the same change. -/
def Context.SameChange (c : Context) (files : List ChangedFile) : Prop :=
  (c.withFiles files).changedFiles = c.changedFiles

/-- The files that the diff tells of may as well be given. -/
theorem Context.sameChange_parse (c : Context) :
    (c.withFiles []).SameChange (Diff.parse c.diff) := by
  unfold SameChange changedFiles withFiles
  dsimp only
  split
  · rfl
  · rfl

namespace Workflow

/-! ## The quick way inside the recorded one -/

/-- The run of a recording behind some stages is that of the quick way: checkpoints and observer
are written and never read. -/
theorem Recording.advanceAll_run {σ τ : Type} (w : World σ) (o : Observer τ) (total : Nat)
    (stages : List Stage) (number : Nat) (rec : Recording σ τ) :
    let done := rec.advanceAll w o total number stages
    (done.1.run, done.2) = rec.run.advanceAll w stages := by
  induction stages generalizing number rec with
  | nil => rfl
  | cons stage rest ih =>
    simp only [Recording.advanceAll, Run.advanceAll]
    rcases rec.run.advance w stage with ⟨r, _ | ⟨⟩⟩
    · rfl
    · exact ih _ _

theorem runRecorded_run {σ τ : Type} (w : World σ) (o : Observer τ) (here : σ)
    (watching : τ) (d : Disk) (origin : Origin) (c : Context) :
    let e := runRecorded w o here watching d origin c
    (⟨e.recording.run, e.report⟩ : Ended σ) = runQuick w here d origin c := by
  simp only [runRecorded, runQuick]
  rw [← Recording.advanceAll_run w o stages.length stages 1
    ⟨Run.start here c, [⟨startName, (Run.start here c).state⟩], watching⟩]
  generalize Recording.advanceAll _ _ _ _ _ _ = done
  rcases done with ⟨rec, _ | ⟨⟩⟩ <;> rfl

/-- The end of a recorded run, without the record. -/
def EndedRecording.ended {σ τ : Type} (e : EndedRecording σ τ) : Ended σ := ⟨e.recording.run, e.report⟩

/-- A run over a context from a state of the backend ends so, the quick way or the recorded one. -/
inductive EndsAs {σ : Type} (w : World σ) (here : σ) (d : Disk) (origin : Origin) (c : Context) :
    Ended σ → Prop where
  | quick : EndsAs w here d origin c (runQuick w here d origin c)
  | recorded {τ : Type} (o : Observer τ) (watching : τ) :
      EndsAs w here d origin c (runRecorded w o here watching d origin c).ended

theorem EndsAs.eq_quick {σ : Type} {w : World σ} {here : σ} {d : Disk} {origin : Origin}
    {c : Context} {e : Ended σ} (h : EndsAs w here d origin c e) : e = runQuick w here d origin c := by
  cases h with
  | quick => rfl
  | recorded o watching => exact runRecorded_run w o here watching d origin c

/-! ## Plans and reports of the same change -/

section SameChange

variable {s : State} {files : List ChangedFile}

theorem resumeFiles_withFiles {c : Context} (h : c.SameChange files) :
    resumeFiles (c.withFiles files) = resumeFiles c := by
  funext defaults docs answer
  have same : defaultFiles (c.withFiles files) defaults = defaultFiles c defaults := by
    rw [defaultFiles, h, ← defaultFiles]
  simp only [resumeFiles, same]

theorem fileStage_withFiles (h : s.context.SameChange files) :
    fileStage.plan (s.withFiles files) = fileStage.plan s := by
  have defaults : defaultFiles (s.withFiles files).context = defaultFiles s.context := by
    funext ds
    rw [defaultFiles, State.withFiles, h, ← defaultFiles]
  have analyzed : analyzedFiles (s.withFiles files).context = analyzedFiles s.context := by
    rw [analyzedFiles, State.withFiles, h, ← analyzedFiles]
  have important : importantFiles (s.withFiles files).context = importantFiles s.context := by
    rw [importantFiles, analyzed, ← importantFiles]
  unfold fileStage
  dsimp only
  rw [analyzed, important, defaults, State.withFiles, resumeFiles_withFiles h]
  rfl

theorem summaryStage_withFiles : summaryStage.plan (s.withFiles files) = summaryStage.plan s := by
  have counts : stateSummary (s.withFiles files) = stateSummary s := rfl
  have call : summaryCall (s.withFiles files) = summaryCall s := rfl
  have resume : resumeSummary (s.withFiles files) = resumeSummary s := rfl
  have none : (s.withFiles files).files = s.files := rfl
  unfold summaryStage
  dsimp only
  rw [counts, call, resume, none]

/-- Every stage plans the same for the same change. Only the first one looks at the files of the
context, and only through `Context.changedFiles`. -/
theorem plan_withFiles {stage : Stage} (hs : stage ∈ stages) (h : s.context.SameChange files) :
    stage.plan (s.withFiles files) = stage.plan s := by
  simp only [stages, List.mem_cons, List.not_mem_nil, or_false] at hs
  rcases hs with rfl | rfl | rfl | rfl | rfl
  · exact fileStage_withFiles h
  · rfl
  · rfl
  · exact summaryStage_withFiles
  · rfl

theorem reportOf_withFiles (d : Disk) (origin : Origin) :
    reportOf d origin (s.withFiles files) = reportOf d origin s := rfl

end SameChange

/-! ## Runs in another context -/

namespace Run

section Under

variable {σ : Type} {w : World σ} {c : Context}

/-- The run in another context. -/
def under (r : Run σ) (c : Context) : Run σ := { r with state := r.state.under c }

theorem advance_context (w : World σ) (r : Run σ) (stage : Stage) :
    (r.advance w stage).1.state.context = r.state.context := by
  unfold advance
  rcases (stage.plan r.state).perform w r.backend with ⟨next, trace, _ | o⟩ <;> rfl

theorem advanceAll_context (w : World σ) (r : Run σ) (row : List Stage) :
    (r.advanceAll w row).1.state.context = r.state.context := by
  induction row generalizing r with
  | nil => rfl
  | cons stage rest ih =>
    have hstep := advance_context w r stage
    unfold advanceAll
    rcases hnext : r.advance w stage with ⟨next, fault | done⟩
    · rw [hnext] at hstep
      exact hstep
    · rw [hnext] at hstep
      exact (ih next).trans hstep

/-- A stage whose plan is a fault ends the run with it. -/
theorem advance_fault {r : Run σ} {stage : Stage} {fault : Fault}
    (h : stage.plan r.state = .done (.error fault)) : ∃ r', r.advance w stage = (r', .error fault) := by
  unfold advance
  rw [h]
  exact ⟨_, rfl⟩

/-- A stage with the same plan keeps a run and the one in another context together. -/
theorem advance_under {r : Run σ} {stage : Stage}
    (hplan : stage.plan (r.state.under c) = stage.plan r.state) :
    (r.under c).advance w stage = ((r.advance w stage).1.under c, (r.advance w stage).2) := by
  unfold advance under
  dsimp only
  rw [hplan]
  rcases (stage.plan r.state).perform w r.backend with ⟨next, trace, fault | o⟩ <;> rfl

/-- So do any such stages in a row. -/
theorem advanceAll_under {b : Context} (row : List Stage)
    (hplans : ∀ stage ∈ row, ∀ s : State, s.context = b → stage.plan (s.under c) = stage.plan s)
    {r : Run σ} (hr : r.state.context = b) :
    (r.under c).advanceAll w row = ((r.advanceAll w row).1.under c, (r.advanceAll w row).2) := by
  induction row generalizing r with
  | nil => rfl
  | cons stage rest ih =>
    have hnext := advance_context w r stage
    simp only [advanceAll, advance_under (w := w) (hplans stage List.mem_cons_self r.state hr)]
    rcases hstep : r.advance w stage with ⟨next, fault | done⟩
    · rfl
    · rw [hstep] at hnext
      exact ih (fun other hother => hplans other (List.mem_cons_of_mem stage hother))
        (hnext.trans hr)

end Under

/-! ## Runs of the same change -/

def withFiles {σ : Type} (r : Run σ) (files : List ChangedFile) : Run σ :=
  { r with state := r.state.withFiles files }

/-- Any stages in a row keep two runs of the same change together. -/
theorem advanceAll_withFiles {σ : Type} (w : World σ) {files : List ChangedFile}
    (row : List Stage) (hs : ∀ stage ∈ row, stage ∈ stages) (r : Run σ)
    (h : r.state.context.SameChange files) :
    (r.withFiles files).advanceAll w row =
      ((r.advanceAll w row).1.withFiles files, (r.advanceAll w row).2) := by
  have hplans : ∀ stage ∈ row, ∀ s : State, s.context = r.state.context →
      stage.plan (s.under (r.state.context.withFiles files)) = stage.plan s := by
    intro stage hstage s hcontext
    rw [← hcontext] at h ⊢
    exact plan_withFiles (hs stage hstage) h
  have hunder : ∀ r : Run σ, r.withFiles files = r.under (r.state.context.withFiles files) :=
    fun _ => rfl
  rw [hunder, hunder, advanceAll_under row hplans rfl, advanceAll_context]

end Run

/-- How a run ended, seen from outside: where it left the backend, the calls it made with their
answers, the scans it started, and its report. -/
def Ended.seen {σ : Type} (e : Ended σ) : σ × Trace × Except Fault Report :=
  (e.run.backend, e.run.trace, e.report)

def EndedRecording.seen {σ τ : Type} (e : EndedRecording σ τ) : σ × Trace × Except Fault Report :=
  (⟨e.recording.run, e.report⟩ : Ended σ).seen

theorem runRecorded_seen {σ τ : Type} (w : World σ) (o : Observer τ) (here : σ) (watching : τ)
    (d : Disk) (origin : Origin) (c : Context) :
    (runRecorded w o here watching d origin c).seen = (runQuick w here d origin c).seen :=
  congrArg Ended.seen (runRecorded_run w o here watching d origin c)

theorem runQuick_withFiles {σ : Type} (w : World σ) (here : σ) (d : Disk) (origin : Origin)
    (c : Context) {files : List ChangedFile} (h : c.SameChange files) :
    (runQuick w here d origin (c.withFiles files)).seen = (runQuick w here d origin c).seen := by
  have start : Run.start here (c.withFiles files) = (Run.start here c).withFiles files := rfl
  unfold runQuick
  rw [start, Run.advanceAll_withFiles w stages (fun _ hs => hs) (Run.start here c) h]
  rcases (Run.start here c).advanceAll w stages with ⟨r, _ | ⟨⟩⟩
  · rfl
  · show (_, _, reportOf d origin (r.state.withFiles files)) = _
    rw [reportOf_withFiles]; rfl

/-- Both ways to run ask the backend the same in the same order, get the same answers and end with
the same report or the same fault, whatever the backend remembers and whatever the observer does
with the progress it is told of. So do runs whose files are given as the diff tells them and runs
that read them from the diff. -/
theorem recorded_and_quick_runs_agree {σ τ : Type} (w : World σ) (o : Observer τ) (here : σ)
    (watching : τ) (d : Disk) (origin : Origin) (c : Context) :
    (runRecorded w o here watching d origin c).seen = (runQuick w here d origin c).seen ∧
    (runQuick w here d origin (c.withFiles (Diff.parse c.diff))).seen =
      (runQuick w here d origin (c.withFiles [])).seen ∧
    (runRecorded w o here watching d origin (c.withFiles (Diff.parse c.diff))).seen =
      (runRecorded w o here watching d origin (c.withFiles [])).seen := by
  have given : (runQuick w here d origin (c.withFiles (Diff.parse c.diff))).seen =
      (runQuick w here d origin (c.withFiles [])).seen :=
    runQuick_withFiles w here d origin (c.withFiles []) c.sameChange_parse
  refine ⟨runRecorded_seen w o here watching d origin c, given, ?_⟩
  rw [runRecorded_seen, runRecorded_seen, given]

end Workflow

end ChangeReview
