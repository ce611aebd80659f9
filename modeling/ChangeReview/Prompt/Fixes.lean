import ChangeReview.Prompt.Wording

/-!
# The request for fixes

Asks for concrete fixes in five kinds of risk, with a sample of the diff.
-/
namespace ChangeReview.Prompt

/-- The kinds of risk, numbered from one. -/
def riskKinds : List Text := [
  "1. **Security**: exposed credentials, injection, authentication and authorization flaws",
  "2. **Critical bugs**: logic errors, null handling, race conditions, data loss",
  "3. **Breaking changes**: API or schema changes, removed behavior, incompatible config",
  "4. **Code quality**: missing error handling, untested logic, excessive complexity",
  "5. **Performance**: inefficient algorithms, N+1 queries, unbounded memory growth"]

/-- The form of the reply. -/
def fixesFormat : Text :=
  "[\n  \x7b\n    \"file\": \"path/to/file\",\n    \"line\": 42,\n    " ++
    "\"comment\": \"What is wrong and how to fix it\",\n    " ++
    "\"severity\": \"critical|warning|suggestion\"\n  \x7d\n]"

/-- A line for each changed file. -/
def fileList (files : List ChangedFile) : Text :=
  Text.join "\n" (files.map fun f =>
    "- " ++ f.path ++ " (" ++ lineCounts f.additions f.deletions ++ ")")

/-- What the prompt says behind the sample. -/
def fixesClosing : List Text := [
  "Severity meanings:",
  "- critical: must fix before merge (security hole, correctness bug, data loss)",
  "- warning: should fix (reliability, maintainability, risky edge case)",
  "- suggestion: worth considering (style, naming, minor improvement)\n",
  "Respond with a JSON array of fix objects. `file` and `comment` are required; `line` is the " ++
    "line number in the new file when known.",
  fixesFormat,
  "\nOnly include problems actually present in the diff. If there are none, return an empty " ++
    "array [].",
  jsonOnly]

/-- The security guidelines under their heading. -/
def securityPart (guidance : Text) : List Text :=
  if guidance.isEmpty then []
  else ["## Repository Security Guidelines\n\n" ++ guidance ++ "\n"]

/-- The prompt for fixes. -/
def fixes (title : Option Text) (files : List ChangedFile) (sample docs security : Text) : Text :=
  let opening : List Text := [
    "You are a security and code quality expert reviewing a pull request.",
    "Identify SPECIFIC problems in these categories:"]
  Text.join "\n" (opening ++ riskKinds ++ [[]] ++ optionalPart docs ++ securityPart security ++
    [titleLine title, "Files changed:\n" ++ fileList files ++ "\n",
      "Diff sample:\n```diff\n" ++ sample ++ "\n```\n"] ++ fixesClosing)

end ChangeReview.Prompt
