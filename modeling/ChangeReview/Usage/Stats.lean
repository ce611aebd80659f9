import ChangeReview.Usage.Log

/-!
# Usage statistics

Sums over the records of a log: all of them, and those of each stage and of each price label.
-/
namespace ChangeReview.Usage

/-- Sums over some records. -/
structure Stats where
  calls : Nat := 0
  input : Int := 0
  output : Int := 0
  inputCost : Float := 0.0
  outputCost : Float := 0.0
  milliseconds : Int := 0
  deriving DecidableEq

namespace Stats

/-- The sums with one more record. -/
def add (s : Stats) (r : Record) : Except Fault Stats := do
  let inputCost ← r.pricing.cost r.input 0
  let outputCost ← r.pricing.cost 0 r.output
  return {
    calls := s.calls + 1
    input := s.input + r.input
    output := s.output + r.output
    inputCost := s.inputCost + inputCost
    outputCost := s.outputCost + outputCost
    milliseconds := s.milliseconds + r.milliseconds }

def tokens (s : Stats) : Int := s.input + s.output

def cost (s : Stats) : Float := s.inputCost + s.outputCost

/-- A quotient of whole numbers as a double. -/
def quotient (a b : Int) : Except Fault Float :=
  match Binary64.divInts? a b with
  | some x => .ok x
  | none => .error (.outOfRange "integer division result too large for a float")

/-- The mean duration of a call in seconds; zero without calls. -/
def meanSeconds (s : Stats) : Except Fault Float :=
  if s.calls = 0 then .ok 0.0 else (quotient s.milliseconds s.calls).map (· / 1000.0)

/-- The duration of all calls in seconds. -/
def totalSeconds (s : Stats) : Except Fault Float := quotient s.milliseconds 1000

/-- The sums over all records. -/
def ofRecords (records : List Record) : Except Fault Stats := records.foldlM add {}

end Stats

/-- Sums by name, in the order in which the names came first. -/
abbrev Groups := List (Text × Stats)

namespace Groups

/-- The groups with one more record in the group of the given name. -/
def add (name : Text) (r : Record) : Groups → Except Fault Groups
  | [] => (Stats.add {} r).map fun s => [(name, s)]
  | (n, s) :: rest =>
    if n = name then (s.add r).map fun s => (n, s) :: rest
    else (add name r rest).map fun rest => (n, s) :: rest

/-- The records by the name that `key` gives them. -/
def ofRecords (key : Record → Text) (records : List Record) : Except Fault Groups :=
  records.foldlM (fun gs r => add (key r) r gs) []

end Groups

/-- What a log adds up to. -/
structure Overview where
  byStage : Groups
  byModel : Groups
  grand : Stats

/-- The overview of some records. -/
def Overview.ofRecords (records : List Record) : Except Fault Overview := do
  let grand ← Stats.ofRecords records
  let byStage ← Groups.ofRecords (·.stage) records
  let byModel ← Groups.ofRecords (·.pricing.label) records
  return { byStage, byModel, grand }

end ChangeReview.Usage
