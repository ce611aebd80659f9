import ChangeReview.Reply.Document
import ChangeReview.Review.FileAnalysis
import ChangeReview.Text.Basic
import ChangeReview.Text.Scan
import ChangeReview.Value.Display
import ChangeReview.Value.Number

/-!
# Answers in replies

What is taken from the reply to each request that asks for a document.
-/
namespace ChangeReview.Reply

/-!
## File analyses of a reply

A reply to the request for file analyses is an object from paths to analyses. Only paths that were
asked about count, line counts stay as measured, and what an entry leaves out or spoils is taken
from the default analysis.
-/

/-- The score that a double stands for, cut to a whole number; none if it is no number. -/
def scoreOfFloat (x : Float) : Except Fault (Option Int) :=
  match Binary64.ofFloat x with
  | .nan => .ok none
  | .infinite _ => .error (.outOfRange "cannot convert float infinity to integer")
  | .finite .. => .ok (Binary64.truncate? x)

/-- The score that a number or a numeral stands for, whole numbers by way of the nearest double. -/
def score? (v : Value) : Except Fault (Option Int) :=
  match v.number?, v with
  | some (.whole n), _ => do scoreOfFloat (← Decimal.nearest n)
  | some (.double x), _ => scoreOfFloat x
  | none, .text t =>
    match Decimal.readFloat? t with
    | some x => scoreOfFloat x
    | none => .ok none
  | none, _ => .ok none

/-- A complexity score between one and five: that of a number or a numeral, otherwise the
default's. -/
def complexity (v : Value) (default : Int) : Except Fault Int :=
  (score? v).map fun score => clampScore (score.getD default)

/-- A number moved between one and five. -/
def clampNumber (v : Value) : Except Fault Value :=
  match v.number? with
  | some (.whole n) => .ok (.int (clampScore n))
  | some (.double x) => .ok (if x < 5.0 then if 1.0 < x then .float x else .int 1 else .int 5)
  | none => .error (.mismatch (.notOrdered v.kind "int"))

/-- As `complexity`, with anything for a default. -/
def complexityOr (v default : Value) : Except Fault Value := do
  match ← score? v with
  | some score => return .int (clampScore score)
  | none => clampNumber default

/-- The lines of a list; a single text is a list of one. Blank ones are left out, and those of a
list are trimmed. -/
def lines (v : Value) : List Text :=
  match v with
  | .text t => if Text.isBlankText t then [] else [t]
  | .list items => (items.map fun i => Text.trim i.display).filter fun t => !t.isEmpty
  | _ => []

/-- The summary of an entry, or the default's where it has none. -/
def summaryOr (v : Value) (default : Text) : Text :=
  match v with
  | .text t => if Text.isBlankText t then default else Text.trim t
  | _ => default

/-- The analysis that an entry describes, over the default one of its path. -/
def analysisOf (path : Text) (entry : List (Text × Value)) (base : FileAnalysis) :
    Except Fault FileAnalysis :=
  let member (key : Text) : Value := (Value.lookup key entry).getD .null
  (complexity (member "complexity") base.complexity).map fun complexity =>
    { path
      summary := summaryOr (member "summary") base.summary
      complexity
      additions := base.additions
      deletions := base.deletions
      risks := lines (member "risks")
      recommendations := lines (member "recommendations") }

/-- The analyses that the members of a reply describe, in their order. -/
def analysesOf (defaults : FileAnalyses) : List (Text × Value) → Except Fault FileAnalyses
  | [] => .ok []
  | (path, entry) :: rest =>
    match defaults.lookup path, entry with
    | some base, .object members => do
      let analysis ← analysisOf path members base
      let more ← analysesOf defaults rest
      return (path, analysis) :: more
    | _, _ => analysesOf defaults rest

/-- The analyses of a reply for paths that have a default one. -/
def fileAnalyses (t : Text) (defaults : FileAnalyses) : Except Fault FileAnalyses :=
  match extractObject t with
  | .ok members => analysesOf defaults members
  | .error fault => .error fault

/-!
## Fix entries of a reply

The entries of a reply to the request for fixes: a list, or an object with a list under `fixes`, or
what can be salvaged from a reply that was cut off.
-/

/-- The members that make an object a fix entry. -/
def fixKeys : List Text := ["file", "comment"]

/-- The list under `fixes` in a reply that holds an object. -/
def wrappedFixes (t : Text) : Except Fault (Option (List Value)) :=
  match extractObject t with
  | .ok members =>
    match Value.lookup "fixes" members with
    | some (.list fixes) => .ok (some fixes)
    | _ => .ok none
  | .error fault => if fault.isBadValue then .ok none else .error fault

/-- The entries salvaged from a reply, of which there must be some. -/
def salvagedFixes (t : Text) : Except Fault (List Value) :=
  match salvage t fixKeys with
  | .ok [] => .error (.invalid "No fix entries found in response")
  | outcome => outcome

/-- The fix entries of a reply. -/
def fixEntries (t : Text) : Except Fault (List Value) :=
  match extractList t with
  | .ok entries => .ok entries
  | .error fault =>
    if fault.isBadValue then
      match wrappedFixes t with
      | .ok (some fixes) => .ok fixes
      | .ok none => salvagedFixes t
      | .error fault => .error fault
    else .error fault

/-!
## Recommendations of a reply

A reply to the request for recommendations is a list of texts; where it is not, its list lines
count: lines that start with a bullet or a number.
-/

def isBullet (c : Char) : Bool := c == '-' || c == '*' || c == '•'

/-- The rest behind a bullet, or behind a number with a point or a parenthesis. -/
def afterMarker? (t : Text) : Option Text :=
  match t with
  | [] => none
  | c :: r =>
    if isBullet c then some r
    else do
      let (_, rest) ← Text.takeSome? Text.isDecimal t
      match rest with
      | '.' :: r | ')' :: r => some r
      | _ => none

/-- The item of a list line: what stands behind the marker and its blanks, without blanks at the
end. Behind a marker with nothing but blanks, of which there are two or more, it is the last
blank. -/
def listItem? (line : Text) : Option Text := do
  let rest ← afterMarker? (Text.trimLeft line)
  let body := Text.trimLeft rest
  if body.length = rest.length then none
  else if body.isEmpty then if rest.length < 2 then none else some (rest.drop (rest.length - 1))
  else some (Text.trimRight body)

/-- The items of the list lines of a text. -/
def listItems (t : Text) : List Text := (Text.lines t).filterMap listItem?

/-- The items of a list that are not blank, trimmed. -/
def shownItems (items : List Value) : List Text :=
  (items.map fun v => Text.trim v.display).filter fun t => !t.isEmpty

/-- The recommendations of a reply. -/
def recommendations (t : Text) : Except Fault (List Text) :=
  match extractList t with
  | .ok items => .ok (if (shownItems items).isEmpty then listItems t else shownItems items)
  | .error fault => if fault.isBadValue then .ok (listItems t) else .error fault

end ChangeReview.Reply
