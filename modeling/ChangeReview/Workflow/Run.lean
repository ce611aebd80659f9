import ChangeReview.Workflow.Stages
import ChangeReview.Workflow.Outcome

/-!
# Runs

A run performs the five stages in order, each from the state that the one before left. It ends with
a report, or at the first fault that a stage does not absorb. The quick way does just that; the
recorded way also keeps the state behind every stage and tells an observer how far it is. What the
observer makes of that, faults included, has no bearing on the run.
-/
namespace ChangeReview.Workflow

/-- The stages in order. -/
def stages : List Stage := [fileStage, scanStage, fixStage, summaryStage, adviceStage]

/-- A run under way: where the backend is, what was done, and what was found. -/
structure Run (σ : Type) where
  backend : σ
  trace : Trace := {}
  state : State

namespace Run

/-- The run from the start. -/
def start {σ : Type} (here : σ) (c : Context) : Run σ where
  backend := here
  state := { context := c }

/-- The run behind one more stage, or its fault. A stage that fails leaves the state as it was. -/
def advance {σ : Type} (w : World σ) (r : Run σ) (stage : Stage) : Run σ × Except Fault Unit :=
  let (next, trace, result) := (stage.plan r.state).perform w r.backend
  let r := { r with backend := next, trace := r.trace ++ trace }
  match result with
  | .ok o => ({ r with state := r.state.apply o }, .ok ())
  | .error fault => (r, .error fault)

/-- The run behind the given stages. -/
def advanceAll {σ : Type} (w : World σ) (r : Run σ) : List Stage → Run σ × Except Fault Unit
  | [] => (r, .ok ())
  | stage :: rest =>
    match r.advance w stage with
    | (r, .ok ()) => r.advanceAll w rest
    | (r, .error fault) => (r, .error fault)

end Run

/-- How a run ended: what it went through, and its report. -/
structure Ended (σ : Type) where
  run : Run σ
  report : Except Fault Report

/-- The names under which a run reports: those given, or those of the backend. -/
def originOf {σ : Type} (b : Backend σ) (provider model : Value) : Origin :=
  ⟨provider.orElse b.provider, model.orElse b.model⟩

/-- The end of a run whose stages are over. -/
def finish {σ : Type} (d : Disk) (origin : Origin) : Run σ × Except Fault Unit → Ended σ
  | (r, .ok ()) => ⟨r, reportOf d origin r.state⟩
  | (r, .error fault) => ⟨r, .error fault⟩

/-- Runs the quick way. -/
def runQuick {σ : Type} (w : World σ) (here : σ) (d : Disk) (origin : Origin) (c : Context) :
    Ended σ :=
  finish d origin ((Run.start here c).advanceAll w stages)

/-! ## The recorded way -/

/-- A stage that is over: its name, its number, and the number of stages. -/
structure Progress where
  stage : Text
  number : Nat
  total : Nat
  deriving DecidableEq, Repr

/-- One who is told of progress, and may fail at it. -/
structure Observer (τ : Type) where
  notify : τ → Progress → τ × Except Fault Unit

/-- The state behind a stage. -/
structure Checkpoint where
  stage : Text
  state : State

/-- A run that is recorded. -/
structure Recording (σ τ : Type) where
  run : Run σ
  checkpoints : List Checkpoint
  observer : τ

namespace Recording

/-- The recording behind the given stages, of which the first has the given number. -/
def advanceAll {σ τ : Type} (w : World σ) (o : Observer τ) (total : Nat) (number : Nat)
    (rec : Recording σ τ) : List Stage → Recording σ τ × Except Fault Unit
  | [] => (rec, .ok ())
  | stage :: rest =>
    match rec.run.advance w stage with
    | (r, .error fault) => ({ rec with run := r }, .error fault)
    | (r, .ok ()) =>
      let rec' : Recording σ τ := {
        run := r
        checkpoints := rec.checkpoints ++ [⟨stage.name, r.state⟩]
        observer := (o.notify rec.observer ⟨stage.name, number, total⟩).1 }
      rec'.advanceAll w o total (number + 1) rest

end Recording

/-- How a recorded run ended. -/
structure EndedRecording (σ τ : Type) where
  recording : Recording σ τ
  report : Except Fault Report

/-- The name of the checkpoint in front of the first stage. -/
def startName : Text := "start"

/-- Runs the recorded way. -/
def runRecorded {σ τ : Type} (w : World σ) (o : Observer τ) (here : σ) (watching : τ) (d : Disk)
    (origin : Origin) (c : Context) : EndedRecording σ τ :=
  let r := Run.start here c
  let rec' : Recording σ τ := ⟨r, [⟨startName, r.state⟩], watching⟩
  match rec'.advanceAll w o stages.length 1 stages with
  | (done, .ok ()) => ⟨done, reportOf d origin done.run.state⟩
  | (done, .error fault) => ⟨done, .error fault⟩

end ChangeReview.Workflow
