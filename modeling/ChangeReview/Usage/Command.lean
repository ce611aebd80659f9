import ChangeReview.Decimal.Digits
import ChangeReview.Order.Sort
import ChangeReview.Repository.Disk
import ChangeReview.Text.Encoding
import ChangeReview.Usage.Stats

/-!
# The usage command

Prints the report on a usage log. The log is named by the first argument, or has its usual name in
the working directory.
-/
namespace ChangeReview.Usage

/-!
## The usage report

The statistics of a log as a text: a table by model and one by stage, the most expensive rows first,
and the totals under them.
-/

/-- A column: its title, its width, and what it shows of a row. -/
structure Column where
  title : Text
  width : Nat
  cell : Stats → Except Fault Text

def columns : List Column := [
  ⟨"Calls", 6, fun s => .ok (Text.ofNat s.calls)⟩,
  ⟨"Input", 10, fun s => .ok (Decimal.grouped s.input)⟩,
  ⟨"Output", 10, fun s => .ok (Decimal.grouped s.output)⟩,
  ⟨"Cost $", 10, fun s => .ok (Decimal.fixed 4 s.cost)⟩,
  ⟨"Avg lat", 9, fun s => s.meanSeconds.map fun x => Decimal.fixed 1 x ++ "s"⟩]

/-- The width of the column of names. -/
def nameWidth : Nat := 28

/-- A line of a table from its name and its cells. -/
def tableLine (name : Text) (cells : List Text) : Text :=
  "  " ++ Text.padRight nameWidth name ++
    (columns.zip cells).flatMap fun (column, cell) => Text.padLeft column.width cell

/-- The row of some statistics. -/
def row (name : Text) (s : Stats) : Except Fault Text :=
  (columns.mapM fun (column : Column) => column.cell s).map (tableLine name)

/-- The width of a table. -/
def tableWidth : Nat := columns.foldr (fun (c : Column) n => c.width + n) nameWidth

/-- The line under the titles. -/
def rule : Text := "  " ++ List.replicate tableWidth '-'

/-- The groups by their cost, the highest first; equal ones keep their order. A cost that is no
number comes before no other. -/
def Groups.byCost (groups : Groups) : Groups :=
  Order.sort (fun a b => b.2.cost < a.2.cost) groups

/-- A table of groups under a title. -/
def table (title : Text) (groups : Groups) : Except Fault (List Text) := do
  let rows ← groups.byCost.mapM fun (name, s) => row name s
  let opening : List Text := ["  " ++ title, tableLine "Name" (columns.map (·.title)), rule]
  return opening ++ rows

/-- The text of an overview. -/
def Overview.write (o : Overview) : Except Fault Text := do
  if o.grand.calls = 0 then return "No usage data found.\n"
  let models ← table "By Model" o.byModel
  let stages ← table "By Stage" o.byStage
  let total ← row "TOTAL" o.grand
  let seconds ← o.grand.totalSeconds
  let gap : List Text := [[]]
  let closing : List Text := [
    total, [],
    "  Input cost:   $" ++ Decimal.fixed 4 o.grand.inputCost,
    "  Output cost:  $" ++ Decimal.fixed 4 o.grand.outputCost,
    "  Total time:   " ++ Decimal.fixed 1 seconds ++ "s"]
  return Text.unlines (models ++ gap ++ stages ++ gap ++ closing)

/-! ## The program -/

/-- The usual name of the log. -/
def defaultLog : Text := "usage.log"

/-- What a command prints and how it ends. -/
structure Printed where
  output : Text := []
  errors : Text := []
  outcome : Except Fault Unit := .ok ()

/-- The path of the log that the arguments name. -/
def logPath (arguments : List Text) : Text :=
  match arguments with
  | path :: _ => Text.tidyPath path
  | [] => defaultLog

/-- The report on a log: its text, and the notices about it. -/
def reportOn (log : Text) : Printed :=
  let errors := Text.unlines (notices log)
  match Overview.ofRecords (readLog log) >>= Overview.write with
  | .ok text => { output := text, errors }
  | .error fault => { errors, outcome := .error fault }

/-- There is no log at the path. -/
def notFound (path : Text) : Printed where
  errors := "Error: " ++ path ++ " not found\n"
  outcome := .error (.exit 1)

/-- The command on what stands at the path of the log. -/
def reportAt (path : Text) : Except PathFault Node → Printed
  | .error .nameTooLong => { outcome := .error (PathFault.nameTooLong.toFault path) }
  | .error _ => notFound path
  | .ok .folder => { outcome := .error (.isFolder "Is a directory") }
  | .ok (.file content _) =>
    match Text.ofUtf8 content with
    | .ok log => reportOn (Text.normalizeNewlines log)
    | .error fault =>
      { errors := Text.unlines (notices (Text.linesBeforeFault content)), outcome := .error fault }

/-- The command with the given arguments. -/
def run (d : Disk) (arguments : List Text) : Printed :=
  let path := logPath arguments
  reportAt path ((d.find path).map (·.2))

end ChangeReview.Usage
