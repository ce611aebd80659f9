import ChangeReview.Prompt.Wording
import ChangeReview.Review.Fix

/-!
# The request for recommendations

Asks for three to five recommendations, with the summary and the fixes of the review.
-/
namespace ChangeReview.Prompt

/-- The line on a fix. -/
def fixLine (f : Fix) : Text :=
  "- [" ++ f.severity.name ++ "] " ++ f.file.display ++ ": " ++ f.comment

/-- The fixes with an empty line behind them. -/
def fixLines (fixes : List Fix) : List Text :=
  if fixes.isEmpty then [] else "Fixes identified:".toList :: fixes.map fixLine ++ [[]]

/-- The prompt for recommendations. -/
def recommendations (summary : Text) (fixes : List Fix) (fileCount : Int) (quality : Text) : Text :=
  let opening : Text := "Based on this pull request analysis, give specific, actionable " ++
    "recommendations for the author and reviewers.\n"
  let considered : Text := "Consider code organization, testing, documentation, performance, " ++
    "security, and how the change should be reviewed."
  let aligned : List Text := if quality.isEmpty then []
    else ["Keep recommendations aligned with the repository standards above."]
  Text.join "\n" (opening :: optionalPart quality ++
    ["PR Summary:\n" ++ summary ++ "\n", "Files changed: " ++ Text.ofInt fileCount ++ "\n"] ++
    fixLines fixes ++ [considered] ++ aligned ++
    ["\nProvide a JSON array of 3-5 recommendations:\n" ++
      "[\"recommendation 1\", \"recommendation 2\", ...]".toList])

end ChangeReview.Prompt
