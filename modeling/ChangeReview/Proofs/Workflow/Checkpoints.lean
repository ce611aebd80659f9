import ChangeReview.Proofs.Workflow.Sources
import Mathlib.Data.List.Chain

/-!
# Checkpoints

The checkpoints of a recorded run are the states that it went through, from the one in front of the
first stage on. From each to the next the context stays, the count of stages grows by one, tokens
and notes only come on top, and of the other parts only those change that belong to the stage
between the two.
-/
namespace ChangeReview.Workflow

/-! ## From one checkpoint to the next -/

/-- What a checkpoint has of the one in front of it, and what may be new in it. -/
structure Checkpoint.Precedes (a b : Checkpoint) : Prop where
  context : b.state.context = a.state.context
  iteration : b.state.iteration = a.state.iteration + 1
  inputTokens : a.state.inputTokens ≤ b.state.inputTokens
  outputTokens : a.state.outputTokens ≤ b.state.outputTokens
  insights : a.state.insights <+: b.state.insights
  reasoning : a.state.reasoning <+: b.state.reasoning
  docsStages : a.state.docsStages <+: b.state.docsStages
  docsInsights : a.state.docsInsights <+: b.state.docsInsights
  parts : ∀ p : Part, p.owner ≠ b.stage → p.Same a.state b.state

/-- The state behind a stage makes a checkpoint that fits the one in front of it. -/
theorem precedes_apply {scanner : Scan.Outcome} {s : State} {stage : Stage} {more : List Exchange}
    {o : Output} (hstage : stage ∈ stages) (h : (stage.plan s).Yields scanner more o) (name : Text) :
    Checkpoint.Precedes ⟨name, s⟩ ⟨stage.name, s.apply o⟩ where
  context := rfl
  iteration := rfl
  inputTokens := by simp only [State.apply]; omega
  outputTokens := by simp only [State.apply]; omega
  insights := List.prefix_append _ _
  reasoning := List.prefix_append _ _
  docsStages := List.prefix_append _ _
  docsInsights := List.prefix_append _ _
  parts p hp := by
    obtain ⟨parts, ho, hparts⟩ := stage_yields hstage h
    exact Part.same_apply (Part.absent_of_withoutNotes ho (hparts p hp))

/-! ## All checkpoints of a run -/

/-- Stages in a row add checkpoints that go on from the last one, one for each stage that ended
well. -/
theorem Recording.advanceAll_checkpoints {σ τ : Type} (w : World σ) (o : Observer τ) (total : Nat)
    (row : List Stage) (hrow : ∀ stage ∈ row, stage ∈ stages) (number : Nat) (rec : Recording σ τ)
    (name : Text) :
    let done := rec.advanceAll w o total number row
    ∃ more, done.1.checkpoints = rec.checkpoints ++ more ∧
      (⟨name, rec.run.state⟩ :: more).IsChain Checkpoint.Precedes ∧
      more.map (·.stage) <+: row.map (·.name) ∧
      (done.2 = .ok () → more.map (·.stage) = row.map (·.name)) := by
  induction row generalizing number rec name with
  | nil =>
    exact ⟨[], (List.append_nil _).symm, List.isChain_singleton _, List.prefix_rfl, fun _ => rfl⟩
  | cons stage rest ih =>
    unfold advanceAll
    rcases hstep : rec.run.advance w stage with ⟨r, fault | done⟩
    · refine ⟨[], (List.append_nil _).symm, List.isChain_singleton _, List.nil_prefix, ?_⟩
      intro hok
      exact absurd hok (by simp)
    · obtain ⟨calls, out, hyields, hstate, -⟩ := Run.advance_ok hstep
      have hnext : Checkpoint.Precedes ⟨name, rec.run.state⟩ ⟨stage.name, r.state⟩ := by
        rw [hstate]
        exact precedes_apply (hrow stage List.mem_cons_self) hyields name
      obtain ⟨more, hmore, hchain, hprefix, hall⟩ :=
        ih (fun later hlater => hrow later (List.mem_cons_of_mem _ hlater)) (number + 1)
          { run := r
            checkpoints := rec.checkpoints ++ [⟨stage.name, r.state⟩]
            observer := (o.notify rec.observer ⟨stage.name, number, total⟩).1 } stage.name
      refine ⟨⟨stage.name, r.state⟩ :: more, ?_, List.isChain_cons_cons.mpr ⟨hnext, hchain⟩, ?_, ?_⟩
      · rw [hmore, List.append_assoc, List.singleton_append]
      · exact List.cons_prefix_cons.mpr ⟨rfl, hprefix⟩
      · intro hok
        exact congrArg (stage.name :: ·) (hall hok)

/-- The names of the checkpoints of a run that comes to its end. -/
def checkpointNames : List Text :=
  ["start", "analyze_files", "run_static_analysis", "generate_fixes", "generate_summary", "finalize"]

/-- The first checkpoint of a recorded run holds nothing but the context, each further one fits the
one in front of it, and they are named in the order of the stages: all of them if the run makes a
report, and as many as there were stages without a fault otherwise. -/
theorem checkpoints_chain {σ τ : Type} (w : World σ) (o : Observer τ) (here : σ) (watching : τ)
    (d : Disk) (origin : Origin) (c : Context) :
    let e := runRecorded w o here watching d origin c
    e.recording.checkpoints.head? = some ⟨"start", { context := c }⟩ ∧
    e.recording.checkpoints.IsChain Checkpoint.Precedes ∧
    e.recording.checkpoints.map (·.stage) <+: checkpointNames ∧
    ((∃ report, e.report = .ok report) →
      e.recording.checkpoints.map (·.stage) = checkpointNames) := by
  obtain ⟨more, hmore, hchain, hprefix, hall⟩ := Recording.advanceAll_checkpoints w o stages.length
    stages (fun _ h => h) 1 ⟨Run.start here c, [⟨startName, (Run.start here c).state⟩], watching⟩
    startName
  simp only [runRecorded]
  generalize Recording.advanceAll _ _ _ _ _ _ = done at hmore hall
  obtain ⟨recording, fault | ⟨⟩⟩ := done
  · dsimp only at hmore ⊢
    rw [hmore]
    refine ⟨rfl, hchain, List.cons_prefix_cons.mpr ⟨rfl, hprefix⟩, ?_⟩
    rintro ⟨report, hreport⟩
    exact absurd hreport (by simp)
  · dsimp only at hmore ⊢
    rw [hmore]
    exact ⟨rfl, hchain, List.cons_prefix_cons.mpr ⟨rfl, hprefix⟩,
      fun _ => congrArg (startName :: ·) (hall rfl)⟩

/-- A run that makes a report has all six checkpoints. -/
theorem checkpoints_chain_talk : ∃ report, talk.report = .ok report ∧
    talk.recording.checkpoints.IsChain Checkpoint.Precedes ∧
    talk.recording.checkpoints.map (·.stage) = checkpointNames := by
  obtain ⟨report, hreport⟩ := exists_report_talk
  unfold talk at hreport ⊢
  obtain ⟨-, hchain, -, hall⟩ := checkpoints_chain talkative failingObserver () () {}
    ⟨.text "any", .text "any"⟩ settingContext
  exact ⟨report, hreport, hchain, hall ⟨report, hreport⟩⟩

end ChangeReview.Workflow
