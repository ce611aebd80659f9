import ChangeReview.Text.Case
import ChangeReview.Value.Display
import ChangeReview.Value.Number

/-!
# The scanner's command line

The options of a scan and the process that they start. Options may hold anything: a list of rulesets
or of excluded paths is what the value yields when it is gone through, and a number is written as it
reads. The limit of the whole process is a sum, so it has to be a number.
-/
namespace ChangeReview.Scan

/-!
## Rulesets

Which rulesets a scan uses, by the language and the framework of the repository.
-/

/-- The rulesets of every scan. -/
def baseRulesets : List Text := ["auto", "p/security-audit", "p/owasp-top-ten"]

/-- The rulesets of a language. -/
def languageRulesets : List (Text × List Text) := [
  ("typescript", ["p/typescript", "p/javascript", "p/react", "p/security-audit"]),
  ("javascript", ["p/javascript", "p/react", "p/security-audit"]),
  ("python", ["p/python", "p/django", "p/flask", "p/security-audit"]),
  ("java", ["p/java", "p/spring", "p/security-audit"]),
  ("go", ["p/golang", "p/security-audit"]),
  ("rust", ["p/rust", "p/security-audit"]),
  ("csharp", ["p/csharp", "p/security-audit"]),
  ("ruby", ["p/ruby", "p/rails", "p/security-audit"]),
  ("php", ["p/php", "p/laravel", "p/security-audit"])]

/-- The ruleset of the first of these fragments that occurs in the framework's name. -/
def frameworkRulesets : List (Text × Text) := [
  ("react", "p/react"), ("next", "p/react"), ("vue", "p/javascript"), ("django", "p/django"),
  ("flask", "p/flask"), ("express", "p/javascript"), ("spring", "p/spring"), ("rails", "p/rails"),
  ("laravel", "p/laravel")]

/-- The rulesets that a language and a framework ask for, without repetitions. -/
def rulesets (language framework : Option Text) : List Text :=
  let forLanguage := match language with
    | some l => (languageRulesets.lookup (Text.lower l)).getD []
    | none => []
  let forFramework := match framework with
    | some f => ((frameworkRulesets.find? fun r => Text.occurs r.1 (Text.lower f)).map (·.2)).toList
    | none => []
  (baseRulesets ++ forLanguage ++ forFramework).foldl
    (fun done r => if done.contains r then done else done ++ [r]) []

/-! ## Options and arguments -/

/-- How the scanner is to run. Empty lists count as not given. -/
structure Options where
  enabled : Value := .bool true
  rulesets : Value := .null
  excludes : Value := .null
  /-- Seconds that one rule may take. -/
  timeout : Value := .int 30
  maxFileBytes : Value := .int 1000000
  deriving DecidableEq, Repr

namespace Options

/-- The options with one of them set; there are no others. -/
def set (o : Options) (name : Text) (v : Value) : Except Fault Options :=
  if name == "enabled" then .ok { o with enabled := v }
  else if name == "rulesets" then .ok { o with rulesets := v }
  else if name == "exclude_paths" then .ok { o with excludes := v }
  else if name == "timeout" then .ok { o with timeout := v }
  else if name == "max_file_size" then .ok { o with maxFileBytes := v }
  else .error (.mismatch (.unexpectedArgument name))

/-- The options that the members of an object set. -/
def ofValue : Value → Except Fault Options
  | .object members => members.foldlM (fun o e => o.set e.1 e.2) {}
  | v => .error (.mismatch (.notAMapping v.kind))

end Options

/-- The folders that a scan leaves out unless others are given. -/
def defaultExcludes : List Text := ["node_modules", "dist", "build", ".git"]

/-- What a value yields when it is gone through, or `default` where it is empty. -/
def itemsOr (given : Value) (default : Except Fault (List Text)) : Except Fault (List Value) :=
  if given.truthy then given.elements else default.map fun ts => ts.map .text

/-- The rulesets of a language and a framework, which are texts if they are not empty. -/
def rulesetsOf (language framework : Value) : Except Fault (List Text) := do
  let language ← language.textFor "lower"
  let framework ← framework.textFor "lower"
  return rulesets language framework

/-- Every value behind the name of its option. -/
def repeated (name : Text) (values : List Value) : List Value :=
  values.flatMap fun v => [.text name, v]

/-- How an option reads on a command line or in a message. A number with too many digits cannot be
written. -/
def written : Value → Except Fault Text
  | .int n => Decimal.numeral n
  | v => .ok v.display

/-- The scanner's program. -/
def program : Text := "semgrep"

/-- The scanner's program and arguments. -/
def arguments (target : Value) (o : Options) (language framework : Value) :
    Except Fault (List Value) := do
  let rulesets ← itemsOr o.rulesets (rulesetsOf language framework)
  let excludes ← itemsOr o.excludes (.ok defaultExcludes)
  let timeout ← written o.timeout
  let maxFileBytes ← written o.maxFileBytes
  let limits : List Text := ["--timeout", timeout, "--max-target-bytes", maxFileBytes, "--json",
    "--quiet"]
  return .text program :: repeated "--config" rulesets ++ repeated "--exclude" excludes ++
    limits.map .text ++ [target]

/-- Seconds that the whole process may take beyond the limit of one rule. -/
def graceSeconds : Int := 120

/-- A started process. -/
structure Command where
  arguments : List Value
  timeout : Value
  deriving DecidableEq, Repr

/-- The process that a scan starts. -/
def command (target : Value) (o : Options) (language framework : Value) : Except Fault Command := do
  let arguments ← arguments target o language framework
  let timeout ← o.timeout.sum (.int graceSeconds)
  return { arguments, timeout }

end ChangeReview.Scan
