import ChangeReview.Coverage.Report
import ChangeReview.Decimal.Digits
import ChangeReview.Decimal.Literal
import ChangeReview.Markup.Document
import ChangeReview.Text.Basic
import ChangeReview.Value.Reader

/-!
# Coverage formats

The forms in which tools report what tests cover. What is not in the form that it should have
gives no report.
-/
namespace ChangeReview.Coverage

/-!
## Coverage summaries

A JSON object with one entry for each file and one for the total. An entry holds for each kind of
figure an object with its percentage.
-/

/-- The entry that counts all files. -/
def totalKey : Text := "total"

/-- The percentage of a kind in an entry; `null` if there is none. -/
def percentage (entry : List (Text × Value)) (kind : Text) : Value :=
  match Value.lookup kind entry with
  | some (.object members) => (Value.lookup "pct" members).getD .null
  | _ => .null

/-- A zero with a point. -/
def zero : Value := .float 0.0

/-- The coverage of the file that an entry is about; the total and all that is no object is no
file. -/
def entryFile? (name : Text) : Value → Option FileCoverage
  | .object entry =>
    if name == totalKey then none
    else some ⟨name, (percentage entry "lines").orElse zero, percentage entry "branches"⟩
  | _ => none

/-- The report of a summary, whose members have a total. -/
def ofEntries (members total : List (Text × Value)) : CoverageReport where
  available := .bool true
  tool := .text "jest/nyc"
  overall := (percentage total "lines").orElse ((percentage total "statements").orElse zero)
  lines := percentage total "lines"
  branches := percentage total "branches"
  files := (members.filterMap fun m => entryFile? m.1 m.2).take maxFiles

/-- The report that a summary holds; none if it is no JSON object with a total. -/
def ofSummary (t : Text) : Except Fault (Option CoverageReport) :=
  match Value.parse t with
  | .error .notJson => .ok none
  | .error fault => .error fault
  | .ok (.object members) =>
    match Value.lookup totalKey members with
    | some (.object total) => .ok (some (ofEntries members total))
    | _ => .ok none
  | .ok _ => .ok none

/-!
## Coverage rates

A markup document whose root carries the rate of lines covered, and perhaps that of branches, as
numbers between zero and one.
-/

/-- The percentage that an attribute gives as a rate, to two places. -/
def ratePercentage? (root : List Markup.Attribute) (name : Text) : Option Value := do
  let rate ← Decimal.readFloat? (← Markup.attribute? root name)
  some (.float (Decimal.roundTo 2 (rate * 100.0)))

/-- The report that a document of rates holds; none if it is not well formed or has no rate of
lines. -/
def ofRates (t : Text) : Option CoverageReport := do
  let root ← Markup.rootAttributes? t
  let lines ← ratePercentage? root "line-rate"
  some {
    available := .bool true
    tool := .text "cobertura"
    overall := lines
    lines
    branches := (ratePercentage? root "branch-rate").getD .null }

/-!
## Tracefiles

Coverage line by line: for each file a record that names it, counts its lines and its lines hit, and
is closed by `end_of_record`. All other lines are passed over.
-/

/-- The counts of one file. -/
structure Trace where
  file : Text
  hit : Int
  found : Int
  deriving DecidableEq, Repr

/-- The record that is being read, with no file between records, and those read before it, the last
one first. -/
structure TraceState where
  current : Trace := ⟨[], 0, 0⟩
  done : List Trace := []
  deriving DecidableEq, Repr

/-- The number that a text writes; zero if it writes none. -/
def count (t : Text) : Int := (Decimal.readInt? t).getD 0

namespace TraceState

/-- One line read. -/
def step (s : TraceState) (line : Text) : TraceState :=
  let line := Text.trim line
  match Text.dropPrefix? "SF:" line, Text.dropPrefix? "LH:" line, Text.dropPrefix? "LF:" line with
  | some file, _, _ => { s with current := ⟨file, 0, 0⟩ }
  | _, some hit, _ => { s with current := { s.current with hit := count hit } }
  | _, _, some found => { s with current := { s.current with found := count found } }
  | _, _, _ =>
    if line == "end_of_record" && !s.current.file.isEmpty then
      ⟨{ s.current with file := [] }, s.current :: s.done⟩
    else s

end TraceState

/-- The records of a tracefile. -/
def traces (t : Text) : List Trace := ((Text.lines t).foldl TraceState.step {}).done.reverse

/-- A count added up over some records. -/
def totalOf (count : Trace → Int) (records : List Trace) : Int :=
  records.foldr (fun r n => count r + n) 0

/-- The percentage of lines hit, to two places; zero if there are no lines. -/
def hitPercentage (hit found : Int) : Except Fault Float :=
  if found == 0 then .ok 0.0
  else match Binary64.divInts? hit found with
    | some ratio => .ok (Decimal.roundTo 2 (ratio * 100.0))
    | none => .error (.outOfRange "integer division result too large for a float")

/-- The coverage of the file of a record. -/
def Trace.toCoverage (r : Trace) : Except Fault FileCoverage :=
  (hitPercentage r.hit r.found).map fun p => ⟨r.file, .float p, .null⟩

/-- The report that a tracefile holds; none if it closes no record. -/
def ofTracefile (t : Text) : Except Fault (Option CoverageReport) := do
  let records := traces t
  if records.isEmpty then return none
  let overall ← hitPercentage (totalOf (·.hit) records) (totalOf (·.found) records)
  let files ← (records.take maxFiles).mapM Trace.toCoverage
  return some {
    available := .bool true
    tool := .text "lcov"
    overall := .float overall
    lines := .float overall
    files }

end ChangeReview.Coverage
