import ChangeReview.Change.File
import ChangeReview.Decimal.Literal

/-!
# File analyses

What a review says about one changed file. Without a model there is a default analysis, measured
from the diff alone.
-/
namespace ChangeReview

/-- The analysis of one changed file. -/
structure FileAnalysis where
  path : Text
  summary : Text
  complexity : Int
  additions : Int := 0
  deletions : Int := 0
  risks : List Text := []
  recommendations : List Text := []
  deriving DecidableEq, Repr

/-- The nearest score between one and five. -/
def clampScore (n : Int) : Int := max 1 (min 5 n)

/-- Changed lines that raise the default complexity by a point. -/
def linesPerPoint : Int := 50

/-- The complexity of a file by the number of changed lines, which must be in the range of
doubles. -/
def ChangedFile.defaultComplexity (f : ChangedFile) : Except Fault Int :=
  let score := Int.fdiv f.totalChanges linesPerPoint + 1
  (Decimal.nearest score).map fun _ => clampScore score

/-- What happened to a file and how many lines it gained and lost. -/
def ChangedFile.changeSummary (f : ChangedFile) : Except Fault Text := do
  let added ← Decimal.numeral f.additions
  let removed ← Decimal.numeral f.deletions
  return f.status.label ++ ": +" ++ added ++ " -" ++ removed

/-- The analysis of a file that nobody has looked at. -/
def FileAnalysis.ofFile (f : ChangedFile) : Except Fault FileAnalysis := do
  let summary ← f.changeSummary
  let complexity ← f.defaultComplexity
  return {
    path := f.path
    summary
    complexity
    additions := f.additions
    deletions := f.deletions }

/-- Analyses by path, in the order in which the paths came first. -/
abbrev FileAnalyses := List (Text × FileAnalysis)

namespace FileAnalyses

/-- The analyses with one more, in the place of an older one of the same path. -/
def put (analyses : FileAnalyses) (path : Text) (a : FileAnalysis) : FileAnalyses :=
  match analyses with
  | [] => [(path, a)]
  | (p, b) :: rest => if p = path then (p, a) :: rest else (p, b) :: put rest path a

/-- The default analyses of files; of files with the same path the last one counts. -/
def ofFiles (files : List ChangedFile) : Except Fault FileAnalyses :=
  files.foldlM (fun (done : FileAnalyses) f =>
    (FileAnalysis.ofFile f).map fun a => done.put f.path a) []

/-- The analyses with those of `newer` put over them. -/
def update (analyses newer : FileAnalyses) : FileAnalyses :=
  newer.foldl (fun done entry => done.put entry.1 entry.2) analyses

end FileAnalyses

end ChangeReview
