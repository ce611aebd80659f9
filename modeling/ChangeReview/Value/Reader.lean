import ChangeReview.Value.Basic
import ChangeReview.Decimal.Literal

/-!
# Reading JSON documents

A document is one value with spaces, tabs and line ends around its tokens. Besides the standard the
reader takes `NaN`, `Infinity` and `-Infinity`, whole numbers of any size, and repeated keys, of
which the last value counts at the first one's place. The fuel of the recursive readers is twice
the length of the text: one step at a bracket and one at an item each use a character or go on to a
step that does.
-/
namespace ChangeReview.Value

/-- The blanks between tokens. -/
def isGap (c : Char) : Bool := c == ' ' || c == '\t' || c == '\n' || c == '\r'

def skipGap (t : Text) : Text := t.dropWhile isGap

def hexDigit? (c : Char) : Option Nat :=
  if '0' ≤ c && c ≤ '9' then some (c.toNat - 48)
  else if 'a' ≤ c && c ≤ 'f' then some (c.toNat - 87)
  else if 'A' ≤ c && c ≤ 'F' then some (c.toNat - 55)
  else none

/-- Four hexadecimal digits and the rest. -/
def hexUnit? : Text → Option (Nat × Text)
  | a :: b :: c :: d :: r => do
    let a ← hexDigit? a
    let b ← hexDigit? b
    let c ← hexDigit? c
    let d ← hexDigit? d
    some (((a * 16 + b) * 16 + c) * 16 + d, r)
  | _ => none

def isHighUnit (n : Nat) : Bool := 0xD800 ≤ n && n ≤ 0xDBFF

def isLowUnit (n : Nat) : Bool := 0xDC00 ≤ n && n ≤ 0xDFFF

/-- The character that a UTF-16 unit stands for; a lone surrogate becomes the replacement. -/
def unitChar (n : Nat) : Char := if isHighUnit n || isLowUnit n then '\ufffd' else Char.ofNat n

/-- The character behind `\u`, which takes a second unit when the first one asks for it. -/
def readUnits? (t : Text) : Option (Char × Text) := do
  let (high, rest) ← hexUnit? t
  match isHighUnit high, rest with
  | true, '\\' :: 'u' :: more =>
    let (low, after) ← hexUnit? more
    if isLowUnit low then
      some (Char.ofNat (0x10000 + (high - 0xD800) * 0x400 + (low - 0xDC00)), after)
    else some (unitChar high, rest)
  | _, _ => some (unitChar high, rest)

/-- The character that an escape stands for, read behind the backslash. -/
def readEscape? : Text → Option (Char × Text)
  | '"' :: r => some ('"', r)
  | '\\' :: r => some ('\\', r)
  | '/' :: r => some ('/', r)
  | 'b' :: r => some ('\x08', r)
  | 'f' :: r => some ('\x0c', r)
  | 'n' :: r => some ('\n', r)
  | 'r' :: r => some ('\r', r)
  | 't' :: r => some ('\t', r)
  | 'u' :: r => readUnits? r
  | _ => none

/-- The rest of a text behind its opening quote, and what follows the closing one. -/
def readText? : (fuel : Nat) → Text → Option (Text × Text)
  | 0, _ => none
  | _ + 1, [] => none
  | fuel + 1, c :: r =>
    if c == '"' then some ([], r)
    else if c == '\\' then do
      let (d, r) ← readEscape? r
      let (t, r) ← readText? fuel r
      some (d :: t, r)
    else if c.toNat < 32 then none
    else do
      let (t, r) ← readText? fuel r
      some (c :: t, r)

/-- The digits at the front, and the rest. -/
def takeDigits (t : Text) : Text × Text := t.span Text.isAsciiDigit

/-- The whole part of a number: a zero alone, or digits that start with another one. -/
def readWhole? : Text → Option (Text × Text)
  | '0' :: r => some (['0'], r)
  | t => match takeDigits t with
    | ([], _) => none
    | digits => some digits

/-- The digits behind a point, if there are any. -/
def readFraction : Text → Text × Text
  | '.' :: r => match takeDigits r with
    | ([], _) => ([], '.' :: r)
    | digits => digits
  | t => ([], t)

/-- The exponent, if there is one with digits. -/
def readPower (t : Text) : Option Int × Text :=
  match t with
  | c :: r =>
    if c == 'e' || c == 'E' then
      let (negative, body) := Decimal.takeSign r
      match takeDigits body with
      | ([], _) => (none, t)
      | (digits, rest) => (some (Binary64.signed negative (Decimal.digitsValue digits)), rest)
    else (none, t)
  | [] => (none, t)

/-- A number without its sign. -/
def readNumber (negative : Bool) (t : Text) : Except Fault (Value × Text) :=
  match readWhole? t with
  | none => .error .notJson
  | some (whole, rest) =>
    let (fraction, rest) := readFraction rest
    let (power, rest) := readPower rest
    if fraction.isEmpty && power.isNone then
      if Decimal.maxDigits < whole.length then
        .error (.tooManyDigits Decimal.maxDigits whole.length)
      else .ok (int (Binary64.signed negative (Decimal.digitsValue whole)), rest)
    else .ok (float (Decimal.ofScientific negative (Decimal.digitsValue (whole ++ fraction))
      (power.getD 0 - fraction.length)), rest)

/-- The double with the given sign that is infinite. -/
def infinity (negative : Bool) : Value := float (Binary64.assemble negative Binary64.infinityBits)

/-- The double that is no number. -/
def notANumber : Value := float (Binary64.assemble false Binary64.nanBits)

/-- A value that opens no bracket and no quote: a word or a number. -/
def readAtom (t : Text) : Except Fault (Value × Text) :=
  match Text.dropPrefix? "null" t, Text.dropPrefix? "true" t, Text.dropPrefix? "false" t with
  | some r, _, _ => .ok (null, r)
  | _, some r, _ => .ok (bool true, r)
  | _, _, some r => .ok (bool false, r)
  | none, none, none =>
    match Text.dropPrefix? "NaN" t, Text.dropPrefix? "Infinity" t,
      Text.dropPrefix? "-Infinity" t with
    | some r, _, _ => .ok (notANumber, r)
    | _, some r, _ => .ok (infinity false, r)
    | _, _, some r => .ok (infinity true, r)
    | none, none, none =>
      match t with
      | '-' :: r => readNumber true r
      | t => readNumber false t

/-- Brackets inside one another are read to this depth. -/
def maxDepth : Nat := 990

mutual

/-- A value at the front of the text, and the rest; brackets may nest to the given depth. -/
def readValue : (fuel depth : Nat) → Text → Except Fault (Value × Text)
  | 0, _, _ => .error .notJson
  | fuel + 1, depth, t =>
    match t, depth with
    | '"' :: r, _ =>
      match readText? (r.length + 1) r with
      | some (s, r) => .ok (text s, r)
      | none => .error .notJson
    | '[' :: _, 0 => .error (.tooDeep "array")
    | '[' :: r, depth + 1 =>
      match skipGap r with
      | ']' :: r => .ok (list [], r)
      | r => readItems fuel depth [] r
    | '\x7b' :: _, 0 => .error (.tooDeep "object")
    | '\x7b' :: r, depth + 1 =>
      match skipGap r with
      | '\x7d' :: r => .ok (object [], r)
      | r => readMembers fuel depth [] r
    | t, _ => readAtom t

/-- The rest of a list behind its first bracket or a comma; `done` holds the items so far, the last
one first. -/
def readItems : (fuel depth : Nat) → List Value → Text → Except Fault (Value × Text)
  | 0, _, _, _ => .error .notJson
  | fuel + 1, depth, done, t =>
    match readValue fuel depth t with
    | .error fault => .error fault
    | .ok (v, r) =>
      match skipGap r with
      | ',' :: r => readItems fuel depth (v :: done) (skipGap r)
      | ']' :: r => .ok (list (v :: done).reverse, r)
      | _ => .error .notJson

/-- The rest of an object behind its first brace or a comma; `done` holds the members so far. -/
def readMembers : (fuel depth : Nat) → List (Text × Value) → Text → Except Fault (Value × Text)
  | 0, _, _, _ => .error .notJson
  | fuel + 1, depth, done, t =>
    match t with
    | '"' :: r =>
      match readText? (r.length + 1) r with
      | none => .error .notJson
      | some (key, r) =>
        match skipGap r with
        | ':' :: r =>
          match readValue fuel depth (skipGap r) with
          | .error fault => .error fault
          | .ok (v, r) =>
            match skipGap r with
            | ',' :: r => readMembers fuel depth (put key v done) (skipGap r)
            | '\x7d' :: r => .ok (object (put key v done), r)
            | _ => .error .notJson
        | _ => .error .notJson
    | _ => .error .notJson

end

/-- The value of a document. -/
def parse (t : Text) : Except Fault Value :=
  match readValue (2 * t.length + 2) maxDepth (skipGap t) with
  | .error fault => .error fault
  | .ok (v, r) => if (skipGap r).isEmpty then .ok v else .error .notJson

/-- The value of a text that is a document; none for any other. -/
def parse? (t : Text) : Option Value := (parse t).toOption

end ChangeReview.Value
