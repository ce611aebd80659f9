import ChangeReview.Value.Basic
import ChangeReview.Decimal.Digits

/-!
# Writing JSON documents

Documents are written in ASCII, on one line or with every item on a line of its own. Characters
outside printable ASCII become escapes of UTF-16 units; doubles have their shortest decimal text.
-/
namespace ChangeReview.Value

/-- One line, or one item a line behind as many units of indentation as it is deep. -/
inductive Layout where
  | oneLine
  | indented (unit : Text)
  deriving DecidableEq, Repr

namespace Layout

/-- Every level is indented by `width` spaces. -/
def spaces (width : Nat) : Layout := indented (List.replicate width ' ')

/-- The layout that a value asks for: `null` for one line, a number of spaces, or a unit. -/
def ofIndent : Value → Except Fault Layout
  | .null => .ok oneLine
  | .text unit => .ok (indented unit)
  | .int n => .ok (spaces n.toNat)
  | .bool b => .ok (spaces b.toNat)
  | v => .error (.mismatch (.notACount v.kind))

end Layout

/-- The escapes of a character outside printable ASCII: one UTF-16 unit or two. -/
def unitEscape (c : Char) : Text :=
  let n := c.toNat
  if n < 0x10000 then "\\u" ++ Text.ofHex 4 n
  else "\\u" ++ Text.ofHex 4 (0xD800 + (n - 0x10000) / 0x400) ++
    "\\u" ++ Text.ofHex 4 (0xDC00 + (n - 0x10000) % 0x400)

def escapeChar (c : Char) : Text :=
  if c == '"' then ['\\', '"']
  else if c == '\\' then ['\\', '\\']
  else if c == '\n' then ['\\', 'n']
  else if c == '\r' then ['\\', 'r']
  else if c == '\t' then ['\\', 't']
  else if c == '\x0c' then ['\\', 'f']
  else if c == '\x08' then ['\\', 'b']
  else if ' ' ≤ c && c ≤ '~' then [c]
  else unitEscape c

/-- A text between double quotes. -/
def writeText (t : Text) : Text := '"' :: t.flatMap escapeChar ++ ['"']

/-- The break between items at a depth. -/
def Layout.break : Layout → Nat → Text
  | oneLine, _ => []
  | indented unit, depth => '\n' :: (List.replicate depth unit).flatten

/-- What stands between two items at a depth. -/
def Layout.separator : Layout → Nat → Text
  | oneLine, _ => ", "
  | indented unit, depth => ',' :: (indented unit).break depth

/-- The written items between brackets, at the depth of the bracket. -/
def Layout.enclose (layout : Layout) (depth : Nat) (opening closing : Char) (items : List Text) :
    Text :=
  if items.isEmpty then [opening, closing]
  else opening :: layout.break (depth + 1) ++
    Text.join (layout.separator (depth + 1)) items ++ layout.break depth ++ [closing]

mutual

/-- The document of a value whose opening bracket stands at `depth`. -/
def writeAt (layout : Layout) (depth : Nat) : Value → Text
  | null => "null"
  | bool true => "true"
  | bool false => "false"
  | int n => Text.ofInt n
  | float x => Decimal.shortest Decimal.documentSpelling x
  | text t => writeText t
  | list items => layout.enclose depth '[' ']' (writeItems layout (depth + 1) items)
  | object members =>
    layout.enclose depth '\x7b' '\x7d' (writeMembers layout (depth + 1) members)
termination_by structural v => v

/-- The documents of the items. -/
def writeItems (layout : Layout) (depth : Nat) : List Value → List Text
  | [] => []
  | v :: r => writeAt layout depth v :: writeItems layout depth r
termination_by structural vs => vs

/-- The members, each key in front of its value. -/
def writeMembers (layout : Layout) (depth : Nat) : List (Text × Value) → List Text
  | [] => []
  | (k, v) :: r =>
    (writeText k ++ ": " ++ writeAt layout depth v) :: writeMembers layout depth r
termination_by structural ms => ms

end

/-- The document of a value. -/
def write (layout : Layout) (v : Value) : Text := writeAt layout 0 v

/-- The document on one line. -/
def writeLine (v : Value) : Text := write .oneLine v

mutual

/-- The value with the members of every object in the order of their keys. -/
def sorted : Value → Value
  | list items => list (sortedItems items)
  | object members => object ((sortedMembers members).mergeSort fun a b => Text.le a.1 b.1)
  | v => v
termination_by structural v => v

/-- Every item sorted. -/
def sortedItems : List Value → List Value
  | [] => []
  | v :: r => v.sorted :: sortedItems r
termination_by structural vs => vs

/-- Every member's value sorted. -/
def sortedMembers : List (Text × Value) → List (Text × Value)
  | [] => []
  | (k, v) :: r => (k, v.sorted) :: sortedMembers r
termination_by structural ms => ms

end

end ChangeReview.Value
