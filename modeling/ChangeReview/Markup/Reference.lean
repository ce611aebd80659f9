import ChangeReview.Markup.Name
import ChangeReview.Value.Reader

/-!
# References

Running text refers to characters by number and to entities by name. A text falls into pieces, each
a character of its own or a reference; a reference that is not well formed leaves it without pieces.
-/
namespace ChangeReview.Markup

/-- The number that digits of the given base write; there must be some. -/
def readDigits? (base : Nat) (digits : Text) : Option Nat :=
  if digits.isEmpty then none
  else digits.foldlM (fun n c => do
    let d ← Value.hexDigit? c
    if d < base then some (base * n + d) else none) 0

/-- The character that a number stands for in a reference. -/
def charOfNumber? (n : Nat) : Option Char :=
  if n.isValidChar && isLegal (Char.ofNat n) then some (Char.ofNat n) else none

/-- A piece of running text. -/
inductive Piece where
  | char (c : Char)
  /-- A character written as a reference, which stands for itself wherever it occurs. -/
  | literal (c : Char)
  | entity (name : Text)
  deriving DecidableEq, Repr

/-- What stands between `&` and `;`. -/
def resolve? (body : Text) : Option Piece :=
  match body with
  | '#' :: 'x' :: digits => (readDigits? 16 digits >>= charOfNumber?).map .literal
  | '#' :: digits => (readDigits? 10 digits >>= charOfNumber?).map .literal
  | name =>
    match takeName? name with
    | some (_, []) => some (.entity name)
    | _ => none

/-- The pieces of a text behind those in `found`, the last of which comes first; `body` is what has
been read of a reference that is still open, last character first. -/
def piecesFrom (found : List Piece) : (body : Option Text) → Text → Option (List Piece)
  | none, [] => some found.reverse
  | some _, [] => none
  | none, '&' :: r => piecesFrom found (some []) r
  | none, c :: r => piecesFrom (.char c :: found) none r
  | some body, c :: r =>
    if c == ';' then
      match resolve? body.reverse with
      | some piece => piecesFrom (piece :: found) none r
      | none => none
    else piecesFrom found (some (c :: body)) r

/-- The pieces of a text, if all its references are well formed. -/
def pieces? (t : Text) : Option (List Piece) := piecesFrom [] none t

end ChangeReview.Markup
