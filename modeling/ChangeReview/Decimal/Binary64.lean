/-!
# Binary floating point, exactly

A double is decoded into a sign, a whole mantissa and a power of two, and a quotient of whole
numbers is rounded to the nearest double, a tie going to the even mantissa. Everything that prints,
rounds or compares doubles works on these exact values.
-/
namespace ChangeReview

/-- What a double stands for: `mantissa * 2 ^ exponent` with a sign, or no number at all. -/
inductive Binary64 where
  | nan
  | infinite (negative : Bool)
  | finite (negative : Bool) (mantissa : Nat) (exponent : Int)
  deriving DecidableEq, Repr

/-- The whole number nearest to `num / den`, a tie going to the even one. -/
def roundDiv (num den : Nat) : Nat :=
  let q := num / den
  let twice := 2 * (num % den)
  if twice < den then q
  else if den < twice then q + 1
  else if q % 2 = 0 then q else q + 1

namespace Binary64

/-- The mantissa with which the next power of two begins, one above the greatest fraction. -/
def unit : Nat := Nat.pow 2 52

/-- The bit of the sign. -/
def signBit : Nat := Nat.pow 2 63

/-- What the 64 bits of a double stand for. -/
def ofBits (bits : Nat) : Binary64 :=
  let negative := bits / signBit == 1
  let biased : Nat := bits / unit % 2048
  let fraction : Nat := bits % unit
  if biased = 2047 then if fraction = 0 then .infinite negative else .nan
  else if biased = 0 then .finite negative fraction (-1074)
  else .finite negative (unit + fraction) ((biased : Int) - 1075)

def ofFloat (x : Float) : Binary64 := ofBits x.toBits.toNat

/-- The double whose bits below the sign are `magnitude`. -/
def assemble (negative : Bool) (magnitude : Nat) : Float :=
  Float.ofBits (UInt64.ofNat (magnitude + if negative then signBit else 0))

/-- The bits below the sign of infinity. -/
def infinityBits : Nat := 2047 * unit

/-- The bits below the sign of the value that is no number. -/
def nanBits : Nat := infinityBits + Nat.pow 2 51

/-- The greatest `k` with `2 ^ k ≤ num / den`, for positive numbers. -/
def floorLog2 (num den : Nat) : Int :=
  let k : Int := (num.log2 : Int) - den.log2
  let reaches := if 0 ≤ k then den * Nat.pow 2 k.toNat ≤ num
    else den ≤ num * Nat.pow 2 (-k).toNat
  if reaches then k else k - 1

/-- The bits below the sign of the double nearest to `num / den`. -/
def magnitudeOfRatio (num den : Nat) : Nat :=
  if num = 0 then 0
  else
    let e := max (floorLog2 num den - 52) (-1074)
    let m := if 0 ≤ e then roundDiv num (den * Nat.pow 2 e.toNat)
             else roundDiv (num * Nat.pow 2 (-e).toNat) den
    min ((e + 1074).toNat * unit + m) infinityBits

/-- The double nearest to `± num / den`; infinite when the quotient is out of range. -/
def ofRatio (negative : Bool) (num den : Nat) : Float :=
  assemble negative (magnitudeOfRatio num den)

/-- The double nearest to an integer, if one is in range. -/
def ofInt? (n : Int) : Option Float :=
  let magnitude := magnitudeOfRatio n.natAbs 1
  if magnitude < infinityBits then some (assemble (n < 0) magnitude) else none

/-- The double nearest to the quotient of two integers, the second not zero, if one is in range. -/
def divInts? (a b : Int) : Option Float :=
  let magnitude := magnitudeOfRatio a.natAbs b.natAbs
  if magnitude < infinityBits then some (assemble ((a < 0) != (b < 0)) magnitude) else none

/-- The absolute value of `mantissa * 2 ^ exponent` as a quotient. -/
def ratio (mantissa : Nat) (exponent : Int) : Nat × Nat :=
  if 0 ≤ exponent then (mantissa * Nat.pow 2 exponent.toNat, 1)
  else (mantissa, Nat.pow 2 (-exponent).toNat)

def signed (negative : Bool) (n : Nat) : Int := if negative then -(n : Int) else n

/-- The exact value; none for what is no finite number. -/
def value? : Binary64 → Option Rat
  | .finite negative m e => let (num, den) := ratio m e; some (mkRat (signed negative num) den)
  | _ => none

/-- The exact value of a double; none for one that is no finite number. -/
def toRat? (x : Float) : Option Rat := (ofFloat x).value?

/-- The exact value of the double nearest to a number; the number itself out of range. -/
def rounded (q : Rat) : Rat :=
  match (ofBits (magnitudeOfRatio q.num.natAbs q.den)).value? with
  | some r => if q < 0 then -r else r
  | none => q

/-- A double is exactly below a number; one that is no number never is. -/
def isBelow (x : Float) (q : Rat) : Bool :=
  match ofFloat x, toRat? x with
  | _, some r => r < q
  | .infinite negative, none => negative
  | _, none => false

/-- The integer that remains when the fraction is dropped; none for a value that is no number. -/
def truncate? (x : Float) : Option Int :=
  match ofFloat x with
  | .finite negative m e => let (num, den) := ratio m e; some (signed negative (num / den))
  | _ => none

/-- The exact comparison of a double with an integer; none when the double is no number. -/
def compareInt? (x : Float) (n : Int) : Option Ordering :=
  match ofFloat x with
  | .nan => none
  | .infinite negative => some (if negative then .lt else .gt)
  | .finite negative m e =>
    let (num, den) := ratio m e
    some (compare (signed negative num) (n * den))

end Binary64

end ChangeReview
