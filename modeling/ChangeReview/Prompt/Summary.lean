import ChangeReview.Change.Totals
import ChangeReview.Prompt.Wording
import ChangeReview.Review.FileAnalysis

/-!
# The request for a summary

Asks for the purpose and the reach of the whole change in a few sentences.
-/
namespace ChangeReview.Prompt

/-- The paths under a label, unless there are none. -/
def pathsLine (label : Text) (paths : List Text) : List Text :=
  if paths.isEmpty then [] else [label ++ " files: " ++ Text.join ", " paths]

/-- The lines on new, deleted and renamed files, with an empty line behind them. -/
def statusLines (totals : ChangeTotals) : List Text :=
  let lines := pathsLine "New" totals.newFiles ++ pathsLine "Deleted" totals.deletedFiles ++
    pathsLine "Renamed" totals.renamedFiles
  if lines.isEmpty then [] else lines ++ [[]]

/-- The line on a key file. -/
def keyFileLine (a : FileAnalysis) : Text :=
  "- " ++ a.path ++ " (" ++ lineCounts a.additions a.deletions ++ ", complexity " ++
    Text.ofInt a.complexity ++ "/5): " ++ a.summary

/-- The key files with an empty line behind them. -/
def keyFileLines (files : List FileAnalysis) : List Text :=
  if files.isEmpty then [] else "Key files:".toList :: files.map keyFileLine ++ [[]]

/-- The documented patterns and the demand to refer to them. -/
def patternsPart (guidance : Text) : List Text :=
  if guidance.isEmpty then []
  else ["## Design Patterns from Repository Documentation\n\n" ++ guidance ++ "\n",
    "Mention where the change follows or departs from these patterns.\n"]

/-- The prompt for a summary. -/
def summary (title : Option Text) (totals : ChangeTotals) (keyFiles : List FileAnalysis)
    (fixCount : Int) (patterns : Text) : Except Fault Text := do
  let added ← Decimal.numeral totals.linesAdded
  let removed ← Decimal.numeral totals.linesRemoved
  let opening : Text := "You are summarizing a pull request for its reviewers. In 2-3 sentences, " ++
    "explain what the change is trying to accomplish and which parts of the system it affects.\n"
  return Text.join "\n" ([
    opening,
    titleLine title,
    "Statistics:".toList,
    "- Files changed: " ++ Text.ofNat totals.filesChanged,
    "- Lines added: " ++ added,
    "- Lines deleted: " ++ removed,
    "- Fixes identified: " ++ Text.ofInt fixCount ++ "\n"] ++
    statusLines totals ++ keyFileLines keyFiles ++ patternsPart patterns ++
    ["Respond with the summary text only.".toList])

end ChangeReview.Prompt
