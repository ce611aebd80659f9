import ChangeReview.Decimal.Literal
import ChangeReview.Repository.Disk
import ChangeReview.Text.Basic
import ChangeReview.Usage.Pricing
import ChangeReview.Value.Number

/-!
# The usage log

One line for each call of a model: when, which model, for which stage, how many tokens, how long.
The columns stand between tabs under a heading. Lines that are no records are passed over, blank
lines and headings in silence and all others with a notice.
-/
namespace ChangeReview.Usage

/-- One call of a model. -/
structure Record where
  timestamp : Text
  model : Text
  stage : Text
  input : Int
  output : Int
  milliseconds : Int
  deriving DecidableEq, Repr

def Record.pricing (r : Record) : Pricing := Usage.pricing r.model

/-- The column that every heading starts with. -/
def headingStart : Text := "timestamp"

/-- The names of the columns. -/
def columnNames : List Text :=
  [headingStart, "model", "tool", "input_tokens", "output_tokens", "total_tokens", "latency_ms"]

/-- A line of the log from its columns. -/
def writeColumns (columns : List Text) : Text := Text.join "\t" columns ++ "\n"

def heading : Text := writeColumns columnNames

/-- The line of a record. -/
def Record.line (r : Record) : Text :=
  writeColumns [r.timestamp, r.model, r.stage, Text.ofInt r.input, Text.ofInt r.output,
    Text.ofInt (r.input + r.output), Text.ofInt r.milliseconds]

/-- What a line of the log is. -/
inductive Line where
  /-- A blank line or a heading. -/
  | silent
  | record (r : Record)
  /-- Fewer columns than a record has. -/
  | short (columns : Nat)
  /-- A record whose counts are no numbers. -/
  | uncounted
  deriving DecidableEq, Repr

/-- The record with the given columns. -/
def recordOf (timestamp model stage input output milliseconds : Text) : Line :=
  match Decimal.readInt? input, Decimal.readInt? output, Decimal.readInt? milliseconds with
  | some i, some o, some ms => .record ⟨timestamp, model, stage, i, o, ms⟩
  | _, _, _ => .uncounted

/-- Reads a line. Columns behind those of a record do not count. -/
def Line.read (raw : Text) : Line :=
  let line := Text.trim raw
  if line.isEmpty || Text.startsWith line headingStart then silent
  else match Text.splitOn '\t' line with
    | timestamp :: model :: stage :: input :: output :: _ :: milliseconds :: _ =>
      recordOf timestamp model stage input output milliseconds
    | columns => short columns.length

/-- The notice about a line that is passed over. -/
def Line.notice (number : Nat) : Line → Option Text
  | short columns =>
    some ("  [skip] line " ++ Text.ofNat number ++ ": " ++ Text.ofNat columns ++ " columns")
  | uncounted => some ("  [skip] line " ++ Text.ofNat number ++ ": non-numeric counts")
  | _ => none

def Line.record? : Line → Option Record
  | record r => some r
  | _ => none

/-- The lines of a log. -/
def readLines (log : Text) : List Line := (Text.splitOn '\n' log).map Line.read

/-- The records of a log, in order. -/
def readLog (log : Text) : List Record := (readLines log).filterMap Line.record?

/-- The notices about a log, in order; lines count from one. -/
def notices (log : Text) : List Text :=
  ((readLines log).zipIdx 1).filterMap fun (line, number) => line.notice number

/-!
## Writing the usage log

Token counts as a provider reports them, and the log to which each reported call adds a line. A
provider may report anything as a count: what cannot be added is a fault, and what is no number is
not logged.
-/

/-- The tokens of a call as reported. -/
structure Counts where
  input : Value := .int 0
  output : Value := .int 0
  deriving DecidableEq

/-- All tokens of a call. -/
def Counts.total (c : Counts) : Except Fault Value := c.input.sum c.output

/-- A number without its fraction; nothing for what is no finite number. -/
def whole? (v : Value) : Option Int :=
  match v with
  | .float x => Binary64.truncate? x
  | v => v.whole?

/-- The digits of a number without its fraction, unless there are more than a numeral may have. -/
def digits? (v : Value) : Option Text := do (Decimal.numeral (← whole? v)).toOption

/-- The name of the log in the working directory. -/
def logName : Text := "usage.log"

/-- The log's bytes; nothing if a folder stands in its place. -/
def logBytes? (d : Disk) : Option ByteArray :=
  match d.find logName with
  | .ok (_, .file content _) => some content
  | .ok (_, .folder) => none
  | .error _ => some ByteArray.empty

/-- The disk with a text added to the log, behind the heading if the log is empty. A log that cannot
be written stays as it is. -/
def append (d : Disk) (now : Instant) (t : Text) : Disk :=
  match logBytes? d with
  | none => d
  | some content =>
    let start : Text := if content.isEmpty then heading else []
    match d.write logName (content ++ Text.toUtf8 (start ++ t)) now with
    | .ok d => d
    | .error _ => d

/-- The line about a call, empty if some count is no number. -/
def callLine (timestamp model tool : Text) (c : Counts) (total : Value) (milliseconds : Int) :
    Text :=
  match digits? c.input, digits? c.output, digits? total with
  | some i, some o, some t =>
    writeColumns [timestamp, model, tool, i, o, t, Text.ofInt milliseconds]
  | _, _, _ => []

end ChangeReview.Usage
