import ChangeReview.Text.Basic
import ChangeReview.Text.Tables

/-!
# Character classes

Word characters, digits and printable characters, decided by the tables of the standard with the
ASCII part spelled out.
-/
namespace ChangeReview.Text

/-- `n` lies in one of the inclusive ranges. -/
def inRanges (ranges : List (Nat × Nat)) (n : Nat) : Bool :=
  ranges.any fun r => r.1 ≤ n && n ≤ r.2

def isAsciiLetter (c : Char) : Bool := ('a' ≤ c && c ≤ 'z') || ('A' ≤ c && c ≤ 'Z')

def isAsciiDigit (c : Char) : Bool := '0' ≤ c && c ≤ '9'

def isAsciiAlnum (c : Char) : Bool := isAsciiLetter c || isAsciiDigit c

/-- A letter, a number of any kind, or the underscore. -/
def isWordChar (c : Char) : Bool :=
  if c.toNat < 128 then isAsciiAlnum c || c == '_' else inRanges Tables.alphanumeric c.toNat

/-- The value of a decimal digit of any script. -/
def digitValue? (c : Char) : Option Nat :=
  if c.toNat < 128 then if isAsciiDigit c then some (c.toNat - 48) else none
  else (Tables.decimalZeros.find? fun z => z ≤ c.toNat && c.toNat ≤ z + 9).map (c.toNat - ·)

def isDecimal (c : Char) : Bool := (digitValue? c).isSome

/-- A decimal digit, or a digit that stands outside every decimal run, such as `²`. -/
def isDigitSymbol (c : Char) : Bool :=
  isDecimal c || (128 ≤ c.toNat && inRanges Tables.digitSymbols c.toNat)

/-- Shown as itself when a text is quoted. -/
def isPrintable (c : Char) : Bool :=
  if c.toNat < 128 then 32 ≤ c.toNat && c.toNat < 127
  else !inRanges Tables.unprintable c.toNat

/-!
## Quoted texts

A text inside a message stands between quotes: single ones, or double ones when only single ones
occur in it. Backslashes, the chosen single quote and everything without a printed form are
escaped, so the quoted form is one line of visible characters.
-/

/-- The escape of a character without a printed form, by the size of its code point. -/
def escapeCode (c : Char) : Text :=
  let n := c.toNat
  if n < 0x100 then "\\x" ++ ofHex 2 n
  else if n < 0x10000 then "\\u" ++ ofHex 4 n
  else "\\U" ++ ofHex 8 n

/-- A character between the given quotes. -/
def quoteChar (quote c : Char) : Text :=
  if c == quote || c == '\\' then ['\\', c]
  else if c == '\n' then ['\\', 'n']
  else if c == '\r' then ['\\', 'r']
  else if c == '\t' then ['\\', 't']
  else if isPrintable c then [c]
  else escapeCode c

/-- Double quotes exactly when the text has single quotes and no double ones. -/
def quoteFor (t : Text) : Char := if '\'' ∈ t ∧ '"' ∉ t then '"' else '\''

/-- The quoted form of a text. -/
def quoted (t : Text) : Text :=
  let quote := quoteFor t
  quote :: t.flatMap (quoteChar quote) ++ [quote]

end ChangeReview.Text
