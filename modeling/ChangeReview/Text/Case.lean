import ChangeReview.Text.Classes
import ChangeReview.Text.Tables

/-!
# Case

The full case mappings: a character may map to several, and a capital sigma at the end of a word
maps to the final form. `foldKey` is the coarser comparison of single characters that a search
ignoring case uses.
-/
namespace ChangeReview.Text

/-- The image of code point `n` under the mapping that the runs list. -/
def mapByRuns (runs : List Tables.CaseRun) (n : Nat) : Nat :=
  match runs.find? fun r => r.1 ≤ n && n ≤ r.2.1 && (n - r.1) % r.2.2.1 == 0 with
  | some r => (n + r.2.2.2).toNat
  | none => n

/-- The lower case of a character outside a word's end. -/
def lowerChar (c : Char) : Text :=
  if c.toNat < 128 then [c.toLower]
  else if c == 'İ' then ['i', '\u0307']
  else [Char.ofNat (mapByRuns Tables.lowerRuns c.toNat)]

def isCaseIgnorable (c : Char) : Bool := inRanges Tables.caseIgnorable c.toNat

def isCased (c : Char) : Bool := inRanges Tables.cased c.toNat

/-- The first character of `t` that is not skipped has case. -/
def meetsCased (t : Text) : Bool := ((t.dropWhile isCaseIgnorable).head?.map isCased).getD false

/-- The lower case of the text that follows `before`, which is given from its end. -/
def lowerAfter (before : Text) : Text → Text
  | [] => []
  | c :: r =>
    (if c == 'Σ' then if meetsCased before && !meetsCased r then ['ς'] else ['σ']
     else lowerChar c) ++ lowerAfter (c :: before) r

/-- The lower case of a text. -/
def lower (t : Text) : Text := lowerAfter [] t

/-- The upper case of a character. -/
def upperChar (c : Char) : Text :=
  if c.toNat < 128 then [c.toUpper]
  else match Tables.upperExpansions.find? (·.1 == c.toNat) with
    | some e => e.2.map Char.ofNat
    | none => [Char.ofNat (mapByRuns Tables.upperRuns c.toNat)]

/-- The upper case of a text. -/
def upper (t : Text) : Text := t.flatMap upperChar

/-- `t` with its first character in upper case. -/
def capitalize (t : Text) : Text := upper (t.take 1) ++ t.drop 1

/-- The letter that stands for `c` in a search ignoring case for ASCII letters: the long s, the
kelvin sign and the two Turkish letters i fold to ASCII. -/
def foldKey (c : Char) : Char :=
  if c == 'ſ' then 's'
  else if c == '\u212A' then 'k'
  else if c == 'ı' || c == 'İ' then 'i'
  else c.toLower

end ChangeReview.Text
