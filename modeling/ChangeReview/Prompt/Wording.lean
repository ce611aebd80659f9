import ChangeReview.Change.File

/-!
# Parts of prompts

Wording that several prompts share.
-/
namespace ChangeReview.Prompt

/-- The demand for a reply that is nothing but JSON. -/
def jsonOnly : Text :=
  "Respond ONLY with valid JSON. No markdown, no commentary outside the JSON structure."

/-- A text as a part of its own, unless it is empty. -/
def optionalPart (t : Text) : List Text := if t.isEmpty then [] else [t]

/-- The title line. -/
def titleLine (title : Option Text) : Text :=
  let shown : Text := match title with
    | some (c :: r) => c :: r
    | _ => "No title provided"
  "PR Title: " ++ shown ++ "\n"

/-- The counts of added and removed lines. -/
def lineCounts (additions deletions : Int) : Text :=
  "+" ++ Text.ofInt additions ++ "/-" ++ Text.ofInt deletions

end ChangeReview.Prompt
