/-!
# Text

A text is its list of characters: every length, cut and position in this library counts
characters. String literals are read as texts wherever a text is expected.
-/
namespace ChangeReview

/-- A text, character by character. -/
abbrev Text := List Char

instance : Coe String Text := ⟨String.toList⟩

namespace Text

def startsWith (t p : Text) : Bool := p.isPrefixOf t

def endsWith (t p : Text) : Bool := p.isSuffixOf t

/-- The rest of `t` behind `p`, if `t` starts with `p`. -/
def dropPrefix? : (p t : Text) → Option Text
  | [], t => some t
  | _ :: _, [] => none
  | a :: p, b :: t => if a = b then dropPrefix? p t else none

/-- `t` without a leading `p`; `t` itself if it does not start with `p`. -/
def dropPrefix (p t : Text) : Text := (dropPrefix? p t).getD t

/-- Some stretch of `t` equals `p`. -/
def occurs (p : Text) : Text → Bool
  | [] => p.isEmpty
  | c :: r => p.isPrefixOf (c :: r) || occurs p r

/-- Counts the occurrences of `p` from left to right; `skip` characters still belong to the
last one found. -/
def countFrom (p : Text) (skip found : Nat) : Text → Nat
  | [] => found
  | c :: r =>
    match skip with
    | s + 1 => countFrom p s found r
    | 0 => if p.isPrefixOf (c :: r) then countFrom p (p.length - 1) (found + 1) r
           else countFrom p 0 found r

/-- The number of occurrences of the non-empty `p` in `t` that do not overlap. -/
def count (p t : Text) : Nat := countFrom p 0 0 t

/-- The part of `t` in front of its first `c`, and the part behind it. -/
def cut (c : Char) : Text → Text × Option Text
  | [] => ([], none)
  | d :: r => if d = c then ([], some r) else ((cut c r).map (d :: ·) id)

/-- The pieces of `t` between the characters that satisfy `p`; one more than there are such
characters. -/
def splitBy (p : Char → Bool) : Text → List Text
  | [] => [[]]
  | c :: r =>
    match p c, splitBy p r with
    | true, ws => [] :: ws
    | false, [] => [[c]]
    | false, w :: ws => (c :: w) :: ws

/-- The pieces of `t` between its occurrences of `c`. -/
def splitOn (c : Char) (t : Text) : List Text := splitBy (· == c) t

/-- The parts of `t` in front of and behind its last `c`, if there is one. -/
def splitLast (c : Char) (t : Text) : Option (Text × Text) :=
  let r := t.reverse
  let tail := r.takeWhile (· != c)
  match r.dropWhile (· != c) with
  | [] => none
  | _ :: front => some (front.reverse, tail.reverse)

/-- The parts one after another with `sep` between neighbours. -/
def join (sep : Text) (parts : List Text) : Text := sep.intercalate parts

/-- Every line followed by a line feed. -/
def unlines (ls : List Text) : Text := ls.flatMap (· ++ ['\n'])

/-- `t` with its first occurrence of `p` replaced by `q`. -/
def replaceFirst (p q : Text) : Text → Text
  | [] => if p.isEmpty then q else []
  | c :: r =>
    match dropPrefix? p (c :: r) with
    | some rest => q ++ rest
    | none => c :: replaceFirst p q r

/-- `t` filled up with spaces on the left to `width` characters. -/
def padLeft (width : Nat) (t : Text) : Text := List.replicate (width - t.length) ' ' ++ t

/-- `t` filled up with spaces on the right to `width` characters. -/
def padRight (width : Nat) (t : Text) : Text := t ++ List.replicate (width - t.length) ' '

/-- Order by code points, the shorter of two texts first when it starts the other. -/
def le : Text → Text → Bool
  | [], _ => true
  | _ :: _, [] => false
  | a :: s, b :: t => a.toNat < b.toNat || (a == b && le s t)

/-- The decimal digits of a number. -/
def ofNat (n : Nat) : Text := Nat.toDigits 10 n

/-- The decimal digits of an integer, behind `-` when it is negative. -/
def ofInt : Int → Text
  | .ofNat n => ofNat n
  | .negSucc n => '-' :: ofNat (n + 1)

/-- The lower-case hexadecimal digits of `n`, with zeros in front up to `width` digits. -/
def ofHex (width n : Nat) : Text :=
  let digits := Nat.toDigits 16 n
  List.replicate (width - digits.length) '0' ++ digits

/-- The first `limit` items, or all but the last `-limit` when `limit` is negative. -/
def takeLimit {α : Type} (limit : Int) (xs : List α) : List α :=
  match limit with
  | .ofNat n => xs.take n
  | .negSucc n => xs.take (xs.length - (n + 1))

end Text

end ChangeReview

namespace ChangeReview.Text

/-!
## Blanks

The characters that count as white space, and what is done with them at the ends of a text and
between its words. A zero-width space is not blank.
-/

/-- White space: the ASCII controls from tab to carriage return and from the file separator to the
unit separator, the space, and the spaces of Unicode. -/
def isBlank (c : Char) : Bool :=
  let n := c.toNat
  (9 ≤ n && n ≤ 13) || (28 ≤ n && n ≤ 32) || n == 0x85 || n == 0xA0 || n == 0x1680 ||
    (0x2000 ≤ n && n ≤ 0x200A) || n == 0x2028 || n == 0x2029 || n == 0x202F || n == 0x205F ||
    n == 0x3000

def trimLeft (t : Text) : Text := t.dropWhile isBlank

def trimRight (t : Text) : Text := (t.reverse.dropWhile isBlank).reverse

/-- `t` without the blanks at its ends. -/
def trim (t : Text) : Text := trimRight (trimLeft t)

/-- Only blanks, or nothing. -/
def isBlankText (t : Text) : Bool := t.all isBlank

/-- The maximal stretches of `t` without blanks. -/
def words (t : Text) : List Text := (splitBy isBlank t).filter (! ·.isEmpty)

/-!
## Lines

A text falls into lines at the line boundaries that Unicode names, a carriage return with its
line feed counting once; a boundary at the end opens no further line. Formats that know only the
line feed split with `Text.splitOn` instead.
-/

/-- Line feed, vertical tab, form feed, carriage return, the three information separators, next
line, line separator and paragraph separator. -/
def isLineBreak (c : Char) : Bool :=
  c == '\n' || c == '\r' || c == '\x0b' || c == '\x0c' || c == '\x1c' || c == '\x1d' ||
    c == '\x1e' || c == '\u0085' || c == '\u2028' || c == '\u2029'

/-- `c` in front of the first of the lines, which is a new one if there is none. -/
def consFirst (c : Char) : List Text → List Text
  | [] => [[c]]
  | l :: ls => (c :: l) :: ls

/-- The lines of a text, without their boundaries. -/
def lines : Text → List Text
  | [] => []
  | '\r' :: '\n' :: r => [] :: lines r
  | c :: r => if isLineBreak c then [] :: lines r else consFirst c (lines r)

/-- Every `\r\n` and every `\r` as a line feed, as a text file is read. -/
def normalizeNewlines : Text → Text
  | [] => []
  | '\r' :: '\n' :: r => '\n' :: normalizeNewlines r
  | '\r' :: r => '\n' :: normalizeNewlines r
  | c :: r => c :: normalizeNewlines r

end ChangeReview.Text
