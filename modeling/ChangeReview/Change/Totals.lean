import ChangeReview.Change.File

/-!
# Totals of a change set

How many files and lines a change set touches, and the paths that appear, go or move.
-/
namespace ChangeReview

/-- Counts and paths of a change set. -/
structure ChangeTotals where
  filesChanged : Nat
  linesAdded : Int
  linesRemoved : Int
  newFiles : List Text
  deletedFiles : List Text
  renamedFiles : List Text
  deriving DecidableEq, Repr

/-- The paths of the files with a status, in order. -/
def pathsWith (status : FileStatus) (files : List ChangedFile) : List Text :=
  (files.filter fun f => f.status = status).map (·.path)

/-- A count added up over some files. -/
def totalOf (count : ChangedFile → Int) (files : List ChangedFile) : Int :=
  files.foldr (fun f n => count f + n) 0

/-- The totals of a change set. -/
def ChangeTotals.ofFiles (files : List ChangedFile) : ChangeTotals where
  filesChanged := files.length
  linesAdded := totalOf (·.additions) files
  linesRemoved := totalOf (·.deletions) files
  newFiles := pathsWith .added files
  deletedFiles := pathsWith .deleted files
  renamedFiles := pathsWith .renamed files

end ChangeReview
