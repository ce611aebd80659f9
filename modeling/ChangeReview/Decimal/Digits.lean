import ChangeReview.Decimal.Binary64
import ChangeReview.Text.Basic

/-!
# Decimal digits of doubles

A double is written with the fewest digits that read back as the same double, or with a fixed number
of decimal places.
-/
namespace ChangeReview.Decimal

/-!
## Shortest decimal text of a double

The fewest digits that read back as the same double, and of those the nearest to it. The digits
are found on exact integers: for 1, 2, ... 17 digits the two neighbours of the value on the decimal
grid are tested against the interval of numbers that round to the double.
-/

/-- The number `p` with `10 ^ (p - 1) ≤ num / den < 10 ^ p`, for positive numbers. -/
def magnitude (num den : Nat) : Int :=
  if den ≤ num then ((Nat.toDigits 10 (num / den)).length : Int)
  else
    let l := (Nat.toDigits 10 (den / num)).length
    if num * Nat.pow 10 (l - 1) = den then 2 - (l : Int) else 1 - (l : Int)

/-- `num / den * 10 ^ shift` as a quotient. -/
def scale (num den : Nat) (shift : Int) : Nat × Nat :=
  if 0 ≤ shift then (num * Nat.pow 10 shift.toNat, den)
  else (num, den * Nat.pow 10 (-shift).toNat)

/-- Some whole number of `d` on the grid of step `10 ^ -shift` rounds to the double whose
neighbourhood is `(low, high)` around `value`, all in units of `1 / den`; the nearer of two. -/
def gridPoint? (low value high den : Nat) (closed : Bool) (shift : Int) : Option Nat :=
  let (v, d) := scale value den shift
  let (l, _) := scale low den shift
  let (h, _) := scale high den shift
  let below := v / d
  let inside (c : Nat) : Bool :=
    if closed then l ≤ c * d && c * d ≤ h else l < c * d && c * d < h
  let near := roundDiv v d
  if inside near then some near
  else if inside below then some below
  else if inside (below + 1) then some (below + 1)
  else none

/-- The first grid of `n`, `n + 1`, ... digits that has a point, as its digits and its shift. -/
def firstGrid (low value high den : Nat) (closed : Bool) (p : Int) : (fuel n : Nat) → Nat × Int
  | 0, n => (roundDiv value den, n - p)
  | fuel + 1, n =>
    match gridPoint? low value high den closed (n - p) with
    | some c => (c, n - p)
    | none => firstGrid low value high den closed p fuel (n + 1)

/-- The decimal digits of `mantissa * 2 ^ exponent` without zeros at the end, and the position of
the point behind the first digit's front: the value is `0.d₁d₂... * 10 ^ point`. -/
def shortestDigits (mantissa : Nat) (exponent : Int) : Text × Int :=
  let lowGap := if mantissa = Binary64.unit && -1074 < exponent then 1 else 2
  let (low, _) := Binary64.ratio (4 * mantissa - lowGap) (exponent - 2)
  let (high, _) := Binary64.ratio (4 * mantissa + 2) (exponent - 2)
  let (value, den) := Binary64.ratio (4 * mantissa) (exponent - 2)
  let p := magnitude value den
  let (c, shift) := firstGrid low value high den (mantissa % 2 == 0) p 17 1
  let digits := Text.ofNat c
  ((digits.reverse.dropWhile (· == '0')).reverse, (digits.length : Int) - shift)

/-- Positional between `10 ^ -4` and `10 ^ 16`, otherwise with an exponent of at least two digits
and its sign; a whole number keeps `.0`. -/
def layOut (digits : Text) (point : Int) : Text :=
  if point ≤ -4 || 16 < point then
    let e := point - 1
    let exponent := Text.ofNat e.natAbs
    digits.take 1 ++ (if digits.length ≤ 1 then [] else '.' :: digits.drop 1) ++
      ['e', if e < 0 then '-' else '+'] ++ List.replicate (2 - exponent.length) '0' ++ exponent
  else if point ≤ 0 then
    "0." ++ List.replicate (-point).toNat '0' ++ digits
  else
    let n := point.toNat
    if digits.length ≤ n then digits ++ List.replicate (n - digits.length) '0' ++ ".0"
    else digits.take n ++ '.' :: digits.drop n

/-- The spellings of the values that have no digits. -/
structure Spelling where
  nan : Text
  infinity : Text

/-- As values are shown in sentences. -/
def plainSpelling : Spelling := ⟨"nan", "inf"⟩

/-- As values are written in JSON documents. -/
def documentSpelling : Spelling := ⟨"NaN", "Infinity"⟩

/-- The shortest decimal text of a double. -/
def shortest (names : Spelling) (x : Float) : Text :=
  match Binary64.ofFloat x with
  | .nan => names.nan
  | .infinite negative => (if negative then ['-'] else []) ++ names.infinity
  | .finite negative m e =>
    let (digits, point) := if m = 0 then (['0'], 1) else shortestDigits m e
    (if negative then ['-'] else []) ++ layOut digits point

/-!
## Fixed decimal places

A double is rounded to a number of decimal places on its exact value, a tie going to the even
digit; the rounded value is either printed or read back as the nearest double.
-/

/-- The digits of `n` hundredths (or any other `places`) around the point. -/
def placePoint (places n : Nat) : Text :=
  let digits := Text.ofNat n
  let padded := List.replicate (places + 1 - digits.length) '0' ++ digits
  if places = 0 then padded
  else padded.take (padded.length - places) ++ '.' :: padded.drop (padded.length - places)

/-- The value of `x` in units of `10 ^ -places`, rounded to the nearest. -/
def roundedUnits (places mantissa : Nat) (exponent : Int) : Nat :=
  let (num, den) := Binary64.ratio mantissa exponent
  roundDiv (num * Nat.pow 10 places) den

/-- `x` with exactly `places` decimal places. -/
def fixed (places : Nat) (x : Float) : Text :=
  match Binary64.ofFloat x with
  | .nan => plainSpelling.nan
  | .infinite negative => (if negative then ['-'] else []) ++ plainSpelling.infinity
  | .finite negative m e =>
    (if negative then ['-'] else []) ++ placePoint places (roundedUnits places m e)

/-- The double nearest to `x` rounded to `places` decimal places. -/
def roundTo (places : Nat) (x : Float) : Float :=
  match Binary64.ofFloat x with
  | .finite negative m e => Binary64.ofRatio negative (roundedUnits places m e) (Nat.pow 10 places)
  | _ => x

/-- The digits of a number in groups of three from the right. -/
def groupDigits (digits : Text) : Text :=
  let rec go : Text → List Text → List Text
    | a :: b :: c :: r, groups => go r ([c, b, a] :: groups)
    | [], groups => groups
    | r, groups => r.reverse :: groups
  Text.join "," (go digits.reverse [])

/-- An integer with commas between groups of three digits. -/
def grouped (n : Int) : Text :=
  (if n < 0 then ['-'] else []) ++ groupDigits (Text.ofNat n.natAbs)

end ChangeReview.Decimal
