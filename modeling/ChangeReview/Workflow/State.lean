import ChangeReview.Backend.Basic
import ChangeReview.Review.FileAnalysis
import ChangeReview.Scan.Finding
import ChangeReview.Scan.Run
import ChangeReview.Workflow.Context

/-!
# The state of a run

What a run has found so far, and what a stage adds to it. A stage never takes anything back: its
notes go behind the earlier ones, its tokens are added, and each other part that it gives replaces
the part of the state.
-/
namespace ChangeReview

/-- What a run has found so far. -/
structure State where
  context : Context
  /-- The number of stages behind this state. -/
  iteration : Nat := 0
  files : List ChangedFile := []
  analyses : FileAnalyses := []
  findings : List Finding := []
  scan : Option FindingsSummary := none
  fixes : List Fix := []
  summary : Text := []
  recommendations : List Text := []
  inputTokens : Int := 0
  outputTokens : Int := 0
  insights : List Text := []
  reasoning : List Text := []
  docsStages : List Text := []
  docsInsights : List Text := []

/-- What a stage adds. A part that is `none` stays as it was. -/
structure Output where
  files : Option (List ChangedFile) := none
  analyses : Option FileAnalyses := none
  findings : Option (List Finding) := none
  scan : Option FindingsSummary := none
  fixes : Option (List Fix) := none
  summary : Option Text := none
  recommendations : Option (List Text) := none
  inputTokens : Int := 0
  outputTokens : Int := 0
  insights : List Text := []
  reasoning : List Text := []
  docsStages : List Text := []
  docsInsights : List Text := []

namespace Output

/-- The output with the tokens of a response added; a count below zero adds nothing. -/
def addUsage (o : Output) (r : Response) : Output :=
  match r.usage with
  | none => o
  | some u => { o with
      inputTokens := o.inputTokens + max 0 u.input
      outputTokens := o.outputTokens + max 0 u.output }

/-- The output with one more insight. -/
def insight (o : Output) (t : Text) : Output := { o with insights := o.insights ++ [t] }

/-- The output with one more step of reasoning. -/
def reason (o : Output) (t : Text) : Output := { o with reasoning := o.reasoning ++ [t] }

/-- The output with a stage that the documents influenced, and how. -/
def influence (o : Output) (stage how : Text) : Output := { o with
  docsStages := o.docsStages ++ [stage]
  docsInsights := o.docsInsights ++ [how] }

end Output

namespace State

def tokens (s : State) : Int := s.inputTokens + s.outputTokens

/-- The state behind a stage. -/
def apply (s : State) (o : Output) : State where
  context := s.context
  iteration := s.iteration + 1
  files := o.files.getD s.files
  analyses := o.analyses.getD s.analyses
  findings := o.findings.getD s.findings
  scan := o.scan.or s.scan
  fixes := o.fixes.getD s.fixes
  summary := o.summary.getD s.summary
  recommendations := o.recommendations.getD s.recommendations
  inputTokens := s.inputTokens + max 0 o.inputTokens
  outputTokens := s.outputTokens + max 0 o.outputTokens
  insights := s.insights ++ o.insights
  reasoning := s.reasoning ++ o.reasoning
  docsStages := s.docsStages ++ o.docsStages
  docsInsights := s.docsInsights ++ o.docsInsights

end State

/-!
## Steps

What a stage does with the outside world: nothing, one call of the backend, or one run of the
scanner. A stage is a plan that says which, so whatever a backend answers, no stage can call it
twice. Performing a step yields the output of the stage and the trace of what was done.
-/

/-- The plan of a stage. -/
inductive Step where
  | done (result : Except Fault Output)
  | ask (call : Call) (resume : Except Fault Response → Except Fault Output)
  | scan (command : Except Fault Scan.Command) (resume : Scan.Outcome → Except Fault Output)

/-- What was done in the outside world. -/
structure Trace where
  exchanges : List Exchange := []
  commands : List Scan.Command := []

namespace Trace

/-- The calls of the backend, in order. -/
def calls (t : Trace) : List Call := t.exchanges.map (·.call)

instance : Append Trace := ⟨fun s t => ⟨s.exchanges ++ t.exchanges, s.commands ++ t.commands⟩⟩

end Trace

/-- The outside world of a run: a backend, and what becomes of an attempt to start the scanner. -/
structure World (σ : Type) where
  backend : Backend σ
  scanner : Scan.Outcome

namespace Step

/-- Performs a step from a state of the backend. -/
def perform {σ : Type} (w : World σ) (here : σ) : Step → σ × Trace × Except Fault Output
  | done result => (here, {}, result)
  | ask call resume =>
    let (next, answer) := w.backend.invoke here call
    (next, { exchanges := [⟨call, answer⟩] }, resume answer)
  | scan command resume =>
    (here, { commands := Scan.started w.scanner command }, resume w.scanner)

end Step

/-- A stage of the workflow. -/
structure Stage where
  name : Text
  plan : State → Step

end ChangeReview
