import ChangeReview.Text.Basic
import ChangeReview.Text.Classes

/-!
# Scanning for patterns

The matches of a pattern in a text, from left to right and without overlap. A pattern is a function
that looks at the character in front and at the text ahead, and answers with what it read and how
many characters that took.
-/
namespace ChangeReview.Text

/-- A pattern with results in `α`. -/
abbrev Pattern (α : Type) := (prev : Option Char) → (ahead : Text) → Option (α × Nat)

/-- The matches behind `prev`, of which the first `skip` characters belong to an earlier match. -/
def matchesFrom {α : Type} (p : Pattern α) (prev : Option Char) (skip : Nat) : Text → List α
  | [] => []
  | c :: r =>
    match skip with
    | s + 1 => matchesFrom p (some c) s r
    | 0 =>
      match p prev (c :: r) with
      | some (a, n) => a :: matchesFrom p (some c) (n - 1) r
      | none => matchesFrom p (some c) 0 r

/-- All matches of a pattern. -/
def matchesOf {α : Type} (p : Pattern α) (t : Text) : List α := matchesFrom p none 0 t

/-- The blanks at the front, of which there must be some, are dropped. -/
def skipBlanks? (t : Text) : Option Text :=
  match t with
  | c :: r => if isBlank c then some (trimLeft r) else none
  | [] => none

/-- The longest stretch of characters at the front that satisfy `p`, which must not be empty, and
the rest. -/
def takeSome? (p : Char → Bool) (t : Text) : Option (Text × Text) :=
  let front := t.takeWhile p
  if front.isEmpty then none else some (front, t.drop front.length)

/-- No word character stands in front. -/
def atWordStart (prev : Option Char) : Bool :=
  match prev with
  | some c => !isWordChar c
  | none => true

/-- One of the keywords as a word of its own, blanks, and the name behind them. -/
def namedAfter (keywords : List Text) : Pattern Text := fun prev ahead =>
  if !atWordStart prev then none
  else keywords.findSome? fun keyword => do
    let rest ← skipBlanks? (← dropPrefix? keyword ahead)
    let (name, rest) ← takeSome? isWordChar rest
    some (name, ahead.length - rest.length)

end ChangeReview.Text
