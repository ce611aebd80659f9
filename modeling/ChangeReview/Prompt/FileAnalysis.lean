import ChangeReview.Prompt.Wording

/-!
# The request for file analyses

Asks for an analysis of each important file, keyed by path, with a preview of its block.
-/
namespace ChangeReview.Prompt

/-- The most characters of a block that the prompt shows. -/
def previewLength : Nat := 500

/-- The form of the reply. -/
def analysisFormat : Text :=
  "\x7b\n  \"path/to/file\": \x7b\n    " ++
    "\"summary\": \"What changed in this file and why it matters\",\n    " ++
    "\"risks\": [\"specific risk\", \"...\"],\n    " ++
    "\"complexity\": 1,\n    " ++
    "\"recommendations\": [\"specific recommendation\", \"...\"]\n  \x7d\n\x7d"

/-- What the prompt shows of a file. -/
def fileBlock (f : ChangedFile) : Text :=
  Text.join "\n" [
    "File: " ++ f.path,
    "Status: " ++ f.status.label,
    "Changes: +" ++ Text.ofInt f.additions ++ " -" ++ Text.ofInt f.deletions,
    "Diff preview:",
    "```\n" ++ f.diff.take previewLength ++ "\n```"]

/-- The demand to refer to the documentation, where there is some. -/
def documentationDemand (docs : Text) : List Text :=
  if docs.isEmpty then []
  else ["\nFor each file, reference the architecture documentation sections above that apply, " ++
    "and say whether the change follows or diverges from the documented patterns."]

/-- The prompt for file analyses. -/
def fileAnalysis (files : List ChangedFile) (docs : Text) : Text :=
  let opening : Text := "Analyze these files from a pull request. For EACH file, provide a " ++
    "detailed analysis considering the repository's architecture standards.\n"
  let closing : Text := "\nComplexity is an integer from 1 (trivial) to 5 (very complex).\n" ++
    "Respond with a JSON object mapping file paths to analysis objects:\n" ++
    analysisFormat ++ "\n\n" ++ jsonOnly
  Text.join "\n" (opening :: optionalPart docs ++
    ["## Files to analyze\n".toList, Text.join "\n---\n" (files.map fileBlock)] ++
    documentationDemand docs ++ [closing])

end ChangeReview.Prompt
