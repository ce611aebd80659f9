import ChangeReview.Scan.Command
import ChangeReview.Scan.Finding
import ChangeReview.Value.Reader

/-!
# Running the scanner

What becomes of a scan by the outcome of its process. A scanner that is absent, too slow or cannot
be started is reported among the errors of the result; one that ran without printing a report is a
fault. The exit status alone says nothing, since it also tells that there are findings.
-/
namespace ChangeReview.Scan

/-- What happens when the scanner is to be started. -/
inductive Outcome where
  | notInstalled
  | timedOut
  | launchFailed (message : Text)
  | finished (stdout stderr : Text) (exitCode : Int)
  deriving DecidableEq, Repr

/-- The report of a scan. Errors are objects, the scanner's own and those of the launch. -/
structure Result where
  findings : List Finding := []
  errors : List Value := []
  version : Value := .null
  deriving DecidableEq, Repr

namespace Result

/-- Some error has a member with this text. -/
def hasError (r : Result) (key text : Text) : Bool :=
  r.errors.any fun e => ((e.object?.getD []).any fun m => m.1 == key && m.2 == .text text)

def notInstalled (r : Result) : Bool := r.hasError "type" "semgrep_not_installed"

def failed (r : Result) : Bool := r.hasError "level" "error"

end Result

/-- An error of the launch. -/
def launchError (level type message : Text) : Value :=
  .object [("level", .text level), ("type", .text type), ("message", .text message)]

/-- The findings among the results of a report; what is no object is passed over. -/
def findingsOf : List Value → Except Fault (List Finding)
  | [] => .ok []
  | .object members :: rest => do
    let f ← Finding.ofValue (.object members)
    let fs ← findingsOf rest
    return f :: fs
  | _ :: rest => findingsOf rest

/-- The report that the scanner printed; none where it printed no object. -/
def readReport (stdout : Text) : Except Fault (Option Result) :=
  if Text.isBlankText stdout then .ok none
  else match Value.parse stdout with
    | .error .notJson => .ok none
    | .error fault => .error fault
    | .ok (.object members) => do
      let data := Value.object members
      let results ← (← data.getD "results" (.list [])).elements
      let findings ← findingsOf results
      let errors ← (← data.getD "errors" (.list [])).elements
      let version ← data.getD "version" .null
      return some ⟨findings, errors.filter fun e => e.object?.isSome, version⟩
    | .ok _ => .ok none

/-- The most characters of the scanner's complaint that a fault repeats. -/
def complaintLength : Nat := 500

/-- The scanner's complaint, or its exit status where it had none. -/
def complaint (stderr : Text) (exitCode : Int) : Text :=
  let said := (Text.trim stderr).take complaintLength
  if said.isEmpty then "exit status " ++ Text.ofInt exitCode else said

/-- The process that is started, unless the scanner is not there or no command can be made. -/
def started (outcome : Outcome) (command : Except Fault Command) : List Command :=
  if outcome = .notInstalled then [] else command.toOption.toList

/-- The result of a scan. Only a scanner that is there needs a command. -/
def run (command : Except Fault Command) : Outcome → Except Fault Result
  | .notInstalled =>
    .ok { errors := [launchError "warning" "semgrep_not_installed"
      "Semgrep is not installed on this system"] }
  | .timedOut => do
    let c ← command
    let shown ← written c.timeout
    return { errors := [launchError "error" "execution_error"
      ("Semgrep timed out after " ++ shown ++ "s")] }
  | .launchFailed message => command.map fun _ =>
    { errors := [launchError "error" "execution_error" message] }
  | .finished stdout stderr exitCode => do
    let _ ← command
    match ← readReport stdout with
    | some result => return result
    | none =>
      throw (.scan ("Semgrep produced no parseable output: " ++ complaint stderr exitCode))

end ChangeReview.Scan
