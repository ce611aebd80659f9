import ChangeReview.Docs.Context
import ChangeReview.Report.Record
import ChangeReview.Scan.Command
import ChangeReview.Settings
import ChangeReview.Value.Number

/-!
# The context of a run

Everything that one run of the review is given. A context is made from arguments, of which some are
checked: the diff, the two budgets and the repository.
-/
namespace ChangeReview

/-- The inputs of one run. The title and the names of the language and the framework may hold anything,
as may the repository as long as it is not empty; what needs a text finds out for itself. -/
structure Context where
  diff : Text
  title : Value := .null
  /-- The changed files; without any, they are read from the diff. -/
  files : List ChangedFile := []
  tokenBudget : Int := 100000
  /-- The limit of cost in dollars, a number. -/
  maxCost : Value := .float 5.0
  mode : Option Report.Mode := some {}
  language : Value := .null
  framework : Value := .null
  wantsScan : Bool := true
  docs : Option Docs.Context := none
  repository : Value := .text "."
  scanOptions : Option Scan.Options := none

namespace Context

/-- Whether the scanner is asked for: by the run, and then by what its own options say. -/
def scanEnabled (c : Context) : Value :=
  match c.wantsScan, c.scanOptions with
  | false, _ => .bool false
  | true, some options => options.enabled
  | true, none => .bool true

/-- The title as it reads, unless it is empty. -/
def shownTitle (c : Context) : Option Text := c.title.shown?

/-- There are documents to go by. -/
def docsAvailable (c : Context) : Bool :=
  match c.docs with
  | some docs => docs.available
  | none => false

/-- The files of the change: those given, or those of the diff. -/
def changedFiles (c : Context) : List ChangedFile :=
  if c.files.isEmpty then Diff.parse c.diff else c.files

/-! ## Arguments -/

/-- The arguments of a context. The four that are checked may hold anything. -/
structure Arguments where
  diff : Value
  tokenBudget : Value := .int 100000
  maxCost : Value := .float 5.0
  repository : Value := .text "."
  title : Value := .null
  files : List ChangedFile := []
  mode : Option Report.Mode := some {}
  language : Value := .null
  framework : Value := .null
  wantsScan : Bool := true
  docs : Option Docs.Context := none
  scanOptions : Option Scan.Options := none

def bad {α : Type} (field message : Text) : Except Fault α :=
  .error (.configuration message (some field))

def checkDiff : Value → Except Fault Text
  | .text t => .ok t
  | _ => bad "diff" "diff must be a string"

def checkBudget : Value → Except Fault Int
  | .int n => if n ≤ 0 then bad "token_budget" "token_budget must be positive" else .ok n
  | _ => bad "token_budget" "token_budget must be an integer"

/-- The number is below zero. -/
def isNegative : Value.Number → Bool
  | .whole n => n < 0
  | .double x => x < 0.0

/-- A limit of cost is a number, not below zero; what is no number cannot be compared. -/
def checkCost (v : Value) : Except Fault Value :=
  match v.number? with
  | none => .error (.mismatch (.notOrdered v.kind "int"))
  | some n => if isNegative n then bad "max_cost" "max_cost must not be negative" else .ok v

def checkRepository (v : Value) : Except Fault Value :=
  if v.truthy then .ok v else bad "repo_path" "repo_path must not be empty"

/-- The context that arguments make. The first argument that fails its check is the fault. -/
def ofArguments (a : Arguments) : Except Fault Context := do
  let diff ← checkDiff a.diff
  let tokenBudget ← checkBudget a.tokenBudget
  let maxCost ← checkCost a.maxCost
  let repository ← checkRepository a.repository
  return {
    diff, tokenBudget, maxCost, repository
    title := a.title
    files := a.files
    mode := a.mode
    language := a.language
    framework := a.framework
    wantsScan := a.wantsScan
    docs := a.docs
    scanOptions := a.scanOptions }

end Context

end ChangeReview
