import ChangeReview.Decimal.Binary64
import ChangeReview.Decimal.Literal
import ChangeReview.Value.Basic

/-!
# Values as numbers and keys

What values are worth where they are counted, added up or looked up.
-/
namespace ChangeReview.Value

/-!
## Values as keys

A text, a number, a truth value or nothing can be a key; lists and objects cannot. Numbers are the
same key when they are the same number, whatever their kind, and the truth values are one and zero.
-/

/-- The number that a value stands for, if it stands for one. -/
inductive Number where
  | whole (n : Int)
  | double (x : Float)
  deriving DecidableEq

def number? : Value → Option Number
  | bool b => some (.whole (if b then 1 else 0))
  | int n => some (.whole n)
  | float x => some (.double x)
  | _ => none

namespace Number

/-- The two numbers have the same value; a double that is no number is the same as itself. -/
def same : Number → Number → Bool
  | whole a, whole b => a == b
  | whole a, double x | double x, whole a => Binary64.compareInt? x a == some .eq
  | double x, double y => x == y || (Binary64.ofFloat x == .nan && Binary64.ofFloat y == .nan)

end Number

/-- The value can be a key. -/
def isKey : Value → Bool
  | list _ | object _ => false
  | _ => true

/-- The two values are the same key. -/
def sameKey (a b : Value) : Bool :=
  match a.number?, b.number? with
  | some x, some y => x.same y
  | none, none => a == b
  | _, _ => false

/-- The keys with `v` behind them unless it is one of them already. -/
def addKey (keys : List Value) (v : Value) : Except Fault (List Value) :=
  if !v.isKey then .error (.mismatch (.notAKey v.kind))
  else if keys.any (sameKey v) then .ok keys
  else .ok (keys ++ [v])

/-!
## Sums of values

Numbers add up, truth values as one and zero; texts and lists are put together. All other pairs are
a mismatch.
-/

/-- The whole number that a truth value or whole number stands for. -/
def whole? : Value → Option Int
  | bool b => some (if b then 1 else 0)
  | int n => some n
  | _ => none

/-- The sum of two values: of numbers, or of two texts or lists, which are put together. -/
def sum (a b : Value) : Except Fault Value :=
  match whole? a, whole? b, a, b with
  | some m, some n, _, _ => .ok (int (m + n))
  | some m, _, _, float y => (Decimal.nearest m).map fun x => float (x + y)
  | _, some n, float x, _ => (Decimal.nearest n).map fun y => float (x + y)
  | _, _, float x, float y => .ok (float (x + y))
  | _, _, text s, text t => .ok (text (s ++ t))
  | _, _, list xs, list ys => .ok (list (xs ++ ys))
  | _, _, _, _ => .error (.mismatch (.notAddable a.kind b.kind))

end ChangeReview.Value
