import ChangeReview.Decimal.Binary64
import ChangeReview.Fault
import ChangeReview.Text.Basic
import ChangeReview.Text.Classes

/-!
# Numerals

Reading whole and decimal numerals: blanks around the numeral, one sign, digits of any script and
single underscores between digits. Decimal numerals round to the nearest double.
-/
namespace ChangeReview.Decimal

/-- Numerals with more digits are refused. -/
def maxDigits : Nat := 4300

/-- The numeral in ASCII: outside ASCII, digits of other scripts become ASCII digits, blanks become
spaces, and any other character becomes one that no numeral has. -/
def toAscii (t : Text) : Text :=
  t.map fun c =>
    if c.toNat < 128 then c
    else if Text.isBlank c then ' '
    else match Text.digitValue? c with
      | some d => Char.ofNat (48 + d)
      | none => '?'

/-- The blanks that may surround a numeral once it is in ASCII. -/
def isMargin (c : Char) : Bool := (9 ≤ c.toNat && c.toNat ≤ 13) || c == ' '

/-- The numeral without the blanks around it. -/
def core (t : Text) : Text :=
  ((((toAscii t).dropWhile isMargin).reverse).dropWhile isMargin).reverse

/-- The text without its underscores, each of which must stand between two digits; `prev` is the
character in front. -/
def dropUnderscores? (prev : Char) : Text → Option Text
  | [] => if prev == '_' then none else some []
  | c :: r =>
    if c == '_' then if Text.isAsciiDigit prev then dropUnderscores? c r else none
    else if prev == '_' && !Text.isAsciiDigit c then none
    else (dropUnderscores? c r).map (c :: ·)

/-- The number that a run of ASCII digits stands for. -/
def digitsValue (digits : Text) : Nat := digits.foldl (fun n c => 10 * n + (c.toNat - 48)) 0

/-- The sign in front, and the rest. -/
def takeSign : Text → Bool × Text
  | '-' :: r => (true, r)
  | '+' :: r => (false, r)
  | r => (false, r)

/-- A whole numeral. -/
def readInt? (t : Text) : Option Int := do
  let (negative, digits) := takeSign (core t)
  let digits ← dropUnderscores? 'x' digits
  if digits.isEmpty || !digits.all Text.isAsciiDigit || maxDigits < digits.length then none
  else some (Binary64.signed negative (digitsValue digits))

/-- `± digits * 10 ^ exponent` as the nearest double. -/
def ofScientific (negative : Bool) (digits : Nat) (exponent : Int) : Float :=
  let size : Int := (Nat.toDigits 10 digits).length
  if digits = 0 || exponent + size < -400 then Binary64.ofRatio negative 0 1
  else if 400 < exponent + size then Binary64.assemble negative Binary64.infinityBits
  else if 0 ≤ exponent then Binary64.ofRatio negative (digits * Nat.pow 10 exponent.toNat) 1
  else Binary64.ofRatio negative digits (Nat.pow 10 (-exponent).toNat)

/-- The exponent part of a decimal numeral, which must be all of `t`. -/
def readExponent? : Text → Option Int
  | [] => some 0
  | c :: r =>
    if c == 'e' || c == 'E' then
      let (negative, digits) := takeSign r
      if digits.isEmpty || !digits.all Text.isAsciiDigit then none
      else some (Binary64.signed negative (digitsValue digits))
    else none

/-- Digits with an optional point and exponent. -/
def readUnsigned? (negative : Bool) (t : Text) : Option Float := do
  let whole := t.takeWhile Text.isAsciiDigit
  let rest := t.drop whole.length
  let (fraction, rest) := match rest with
    | '.' :: r => let f := r.takeWhile Text.isAsciiDigit; (f, r.drop f.length)
    | r => ([], r)
  if whole.isEmpty && fraction.isEmpty then none
  else
    let exponent ← readExponent? rest
    some (ofScientific negative (digitsValue (whole ++ fraction)) (exponent - fraction.length))

/-- A decimal numeral, or one of the names of infinity and of the value that is no number. -/
def readFloat? (t : Text) : Option Float := do
  let (negative, body) := takeSign (← dropUnderscores? 'x' (core t))
  let name := body.map Char.toLower
  if name == "inf" || name == "infinity" then some (Binary64.assemble negative Binary64.infinityBits)
  else if name == "nan" then some (Binary64.assemble negative Binary64.nanBits)
  else readUnsigned? negative body

/-!
## The range of numbers

A whole number of any size becomes the nearest double, unless it is larger than all of them, and its
decimal digits, unless there are more than a numeral may have.
-/

/-- The fault of a whole number that no double is near to. -/
def tooLarge : Fault := .outOfRange "int too large to convert to float"

/-- The double nearest to a whole number. -/
def nearest (n : Int) : Except Fault Float :=
  match Binary64.ofInt? n with
  | some x => .ok x
  | none => .error tooLarge

/-- The digits of a whole number. -/
def numeral (n : Int) : Except Fault Text :=
  if n.natAbs < Nat.pow 10 maxDigits then .ok (Text.ofInt n) else .error (.tooLongToWrite maxDigits)

end ChangeReview.Decimal
