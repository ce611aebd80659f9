import ChangeReview.Change.File
import ChangeReview.Decimal.Literal
import ChangeReview.Text.Basic
import ChangeReview.Text.Case
import ChangeReview.Value.Display

/-!
# Fixes

What should change in a file, how urgent it is, and who says so. Fixes are listed by severity;
fixes of equal severity keep their order.
-/
namespace ChangeReview

/-!
## Severities

How urgent a fix is. Severities are ranked, the most urgent first, and read leniently from what a
model replied.
-/

/-- How urgent a fix is. -/
inductive Severity where
  /-- Must be fixed: security, data loss, crash. -/
  | critical
  /-- Should be fixed: breaking change, reliability. -/
  | warning
  /-- Worth considering: quality, performance, style. -/
  | suggestion
  deriving DecidableEq, Repr

namespace Severity

/-- The place in the order of urgency. -/
def rank : Severity → Nat
  | critical => 0
  | warning => 1
  | suggestion => 2

def name : Severity → Text
  | critical => "critical"
  | warning => "warning"
  | suggestion => "suggestion"

/-- The severity with a name. -/
def ofName? (t : Text) : Option Severity :=
  [critical, warning, suggestion].find? fun s => s.name == t

theorem ofName?_name (s : Severity) : ofName? s.name = some s := by
  cases s <;> rfl

/-- The severity that a value names, in any case and with blanks around it, or `default`. -/
def parse (v : Value) (default : Severity) : Severity :=
  (ofName? (Text.lower (Text.trim v.display))).getD default

end Severity

/-! ## Fixes and their order -/

/-- Who found a fix. One run reports fixes of one source only. -/
inductive FixSource where
  | scanner
  | model
  deriving DecidableEq, Repr

namespace FixSource

def name : FixSource → Text
  | scanner => "static-analysis"
  | model => "model"

/-- The source with a name. -/
def ofName? (t : Text) : Option FixSource := [scanner, model].find? fun s => s.name == t

theorem ofName?_name (s : FixSource) : ofName? s.name = some s := by
  cases s <;> rfl

end FixSource

/-- One thing to change. The file and the line are as the source gave them, the line `null` where
it is not known. -/
structure Fix where
  file : Value
  comment : Text
  severity : Severity := .suggestion
  source : FixSource := .model
  line : Value := .null
  deriving DecidableEq, Repr

namespace Fix

/-- The fixes by severity, in their order where it is equal. -/
def sort (fixes : List Fix) : List Fix :=
  fixes.mergeSort fun a b => a.severity.rank ≤ b.severity.rank

/-- The sorted fixes, cut to a limit if there is one. -/
def prioritize (fixes : List Fix) (limit : Option Int) : List Fix :=
  match limit with
  | some n => Text.takeLimit n (sort fixes)
  | none => sort fixes

/-- The fault of digits that are no numeral: there are too many of them in front, or some of them
stand for no decimal digit. -/
def digitsFault (t : Text) : Fault :=
  let size := (t.takeWhile Text.isDecimal).length
  if Decimal.maxDigits < size then .tooManyDigits Decimal.maxDigits size else .badNumeral t

/-- A line number from a model's reply: a positive whole number, or digits that stand for one.
Anything else is no line number; digits that are no numeral are a fault. -/
def lineNumber (v : Value) : Except Fault Value :=
  match v with
  | .int n => .ok (if 0 < n then .int n else .null)
  | .text t =>
    let digits := Text.trim t
    if !digits.isEmpty && digits.all Text.isDigitSymbol then
      match Decimal.readInt? digits with
      | some n => .ok (if n = 0 then .null else .int n)
      | none => .error (digitsFault digits)
    else .ok .null
  | _ => .ok .null

/-- The fix that an entry of a model's reply describes; none where its file or its comment is
missing or blank. -/
def ofEntry (entry : Value) : Except Fault (Option Fix) :=
  match entry with
  | .object members =>
    match Value.lookup "file" members, Value.lookup "comment" members with
    | some (.text file), some (.text comment) =>
      if Text.isBlankText file || Text.isBlankText comment then .ok none
      else
        match lineNumber ((Value.lookup "line" members).getD .null) with
        | .error fault => .error fault
        | .ok line =>
          .ok (some {
            file := .text (Text.trim file)
            comment := Text.trim comment
            severity := Severity.parse ((Value.lookup "severity" members).getD .null) .suggestion
            source := .model
            line })
    | _, _ => .ok none
  | _ => .ok none

/-- The fixes of a list of entries, in order. -/
def ofEntries : List Value → Except Fault (List Fix)
  | [] => .ok []
  | entry :: rest =>
    match ofEntry entry with
    | .error fault => .error fault
    | .ok fix =>
      match ofEntries rest with
      | .error fault => .error fault
      | .ok fixes => .ok (fix.toList ++ fixes)

/-- The fixes of a reply, which has to be something that can be gone through. -/
def ofReply (entries : Value) : Except Fault (List Fix) :=
  match entries.elements with
  | .error fault => .error fault
  | .ok items => ofEntries items

end Fix

/-!
## Credentials in a diff

A diff that mentions a password, a secret or an API key gets a critical fix of its own, whatever
else is found. The search ignores case.
-/

/-- The words that give a credential away. -/
def credentialWords : List Text := ["password", "secret", "apikey", "api_key", "api-key"]

/-- Some credential word occurs in the text, in any case. -/
def mentionsCredential (t : Text) : Bool :=
  let folded := t.map Text.foldKey
  credentialWords.any fun word => Text.occurs word folded

/-- The critical fix for a diff that mentions a credential, at the first file whose block does. -/
def credentialFix (diff : Text) (files : List ChangedFile) : Option Fix :=
  if mentionsCredential diff then
    let target : Text := match files.find? fun f => mentionsCredential f.diff with
      | some f => f.path
      | none => "multiple files"
    some {
      file := .text target
      comment := "Potential credentials or sensitive data in code changes. " ++
        "Move secrets to environment variables or a secrets manager."
      severity := .critical
      source := .model }
  else none

end ChangeReview
