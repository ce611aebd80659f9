import ChangeReview.Review.Fix
import ChangeReview.Text.Path
import ChangeReview.Value.Number

/-!
# Scanner findings

What the scanner reports about a place in the code, and which of it concerns the changed files. The
fields are as the scanner printed them, apart from the level, which is one of three.
-/
namespace ChangeReview

/-- How serious the scanner takes a finding to be. -/
inductive FindingLevel where
  | error
  | warning
  | info
  deriving DecidableEq, Repr

namespace FindingLevel

def name : FindingLevel → Text
  | error => "ERROR"
  | warning => "WARNING"
  | info => "INFO"

/-- The level that a value names in any case; anything else is information. -/
def ofValue (v : Value) : FindingLevel :=
  let shown := Text.upper v.display
  if shown == error.name then error else if shown == warning.name then warning else info

/-- The severity of the fix for a finding of a level. -/
def severity : FindingLevel → Severity
  | error => .critical
  | warning => .warning
  | info => .suggestion

end FindingLevel

/-- One result of the scanner. -/
structure Finding where
  rule : Value
  path : Value
  line : Value
  message : Value
  level : FindingLevel
  category : Value
  deriving DecidableEq, Repr

namespace Finding

/-- The member of a value that may be absent, false or empty, which then has no members. -/
def part (v : Value) (key : Text) : Except Fault Value :=
  (v.getD key .null).map fun w => w.orElse (.object [])

/-- A finding from a result of the scanner. -/
def ofValue (raw : Value) : Except Fault Finding := do
  let extra ← part raw "extra"
  let metadata ← part extra "metadata"
  let level ← extra.getD "severity" (.text "INFO")
  let rule ← raw.getD "check_id" (.text "unknown")
  let path ← raw.getD "path" (.text [])
  let start ← part raw "start"
  let line ← start.getD "line" .null
  let message ← extra.getD "message" .null
  let named ← raw.getD "check_id" (.text [])
  let category ← metadata.getD "category" .null
  return {
    rule, path, line
    message := message.orElse named
    level := FindingLevel.ofValue level
    category := category.orElse (.text "unknown") }

/-- One line about a finding. -/
def describe (f : Finding) : Text :=
  let place := if f.line.truthy then f.path.display ++ ":" ++ f.line.display else f.path.display
  "[" ++ f.level.name ++ "] " ++ f.message.display ++ " (" ++ place ++ ", rule " ++
    f.rule.display ++ ")"

/-- The fix for a finding. -/
def toFix (f : Finding) : Fix where
  file := f.path
  comment := f.message.display ++ " (rule: " ++ f.rule.display ++ ")"
  severity := f.level.severity
  source := .scanner
  line := f.line

/-- One of the two normal paths lies inside the other, as an absolute path of the scanner lies
around a path of the repository. -/
def pathsMatch (changed : List Text) (path : Text) : Bool :=
  let path := Text.normalizePath path
  changed.any fun c => Text.occurs path c || Text.occurs c path

/-- The finding is about one of the changed normal paths. -/
def concerns (changed : List Text) (f : Finding) : Except Fault Bool :=
  if !f.path.truthy then .ok false
  else match f.path with
    | .text path => .ok (pathsMatch changed path)
    | v => .error (.mismatch (.notAPath v.kind))

/-- The normal forms of the changed paths that are not empty. -/
def normalPaths (changed : List Text) : List Text :=
  (changed.filter fun p => !p.isEmpty).map Text.normalizePath

/-- The findings among these that concern one of the changed normal paths. -/
def keep (changed : List Text) : List Finding → Except Fault (List Finding)
  | [] => .ok []
  | f :: rest =>
    match concerns changed f with
    | .error fault => .error fault
    | .ok kept =>
      match keep changed rest with
      | .error fault => .error fault
      | .ok more => .ok (if kept then f :: more else more)

/-- The findings about changed files, in order. -/
def inChangedFiles (findings : List Finding) (changed : List Text) : Except Fault (List Finding) :=
  keep (normalPaths changed) findings

end Finding

/-!
## Counts of findings

How many findings there are of each level, which categories and files they touch, and the errors
among them.
-/

/-- Counts per level, and what the findings touch in the order of first mention. -/
structure FindingsSummary where
  total : Nat := 0
  errors : Nat := 0
  warnings : Nat := 0
  infos : Nat := 0
  categories : List Value := []
  files : List Value := []
  critical : List Finding := []
  deriving DecidableEq, Repr

namespace FindingsSummary

/-- The summary with one more finding. -/
def add (s : FindingsSummary) (f : Finding) : Except Fault FindingsSummary := do
  let categories ← Value.addKey s.categories f.category
  let files ← Value.addKey s.files f.path
  return {
    total := s.total + 1
    errors := s.errors + if f.level = .error then 1 else 0
    warnings := s.warnings + if f.level = .warning then 1 else 0
    infos := s.infos + if f.level = .info then 1 else 0
    categories, files
    critical := if f.level = .error then s.critical ++ [f] else s.critical }

/-- The summary of findings. -/
def ofFindings (findings : List Finding) : Except Fault FindingsSummary := findings.foldlM add {}

end FindingsSummary

end ChangeReview
