import ChangeReview.Text.Scan
import Mathlib.Data.List.Infix

/-!
# Occurrences

A text occurs in another where some stretch of it equals it, and a pattern has a match in a text
only where some end of the text matches it.
-/
namespace ChangeReview.Text

theorem occurs_iff {p t : Text} : occurs p t = true ↔ p <:+: t := by
  induction t with
  | nil => simp [occurs]
  | cons c t ih =>
    rw [occurs, Bool.or_eq_true, List.isPrefixOf_iff_prefix, ih, List.infix_cons_iff]

theorem trimLeft_suffix (t : Text) : trimLeft t <:+ t := List.dropWhile_suffix isBlank

theorem takeSome?_suffix {p : Char → Bool} {t front rest : Text}
    (h : takeSome? p t = some (front, rest)) : rest <:+ t := by
  unfold takeSome? at h
  dsimp only at h
  split at h
  · exact absurd h (by simp)
  · obtain ⟨-, rfl⟩ := Prod.mk.inj (Option.some.inj h)
    exact List.drop_suffix _ t

/-! ## Matches -/

section Matches

variable {α : Type} {p : Pattern α} {a : α} {t : Text}

theorem exists_of_mem_matchesFrom {prev : Option Char} {skip : Nat}
    (h : a ∈ matchesFrom p prev skip t) :
    ∃ before ahead n, ahead <:+ t ∧ p before ahead = some (a, n) := by
  induction t generalizing prev skip with
  | nil => exact absurd h List.not_mem_nil
  | cons c r ih =>
    have hrest : ∀ {prev skip}, a ∈ matchesFrom p prev skip r →
        ∃ before ahead n, ahead <:+ c :: r ∧ p before ahead = some (a, n) := by
      intro prev skip hmem
      obtain ⟨before, ahead, n, hahead, hmatch⟩ := ih hmem
      exact ⟨before, ahead, n, hahead.trans (List.suffix_cons c r), hmatch⟩
    unfold matchesFrom at h
    split at h
    · exact hrest h
    · split at h
      · next b n hmatch =>
        rcases List.mem_cons.mp h with rfl | h
        · exact ⟨prev, c :: r, n, List.suffix_rfl, hmatch⟩
        · exact hrest h
      · exact hrest h

/-- A match of a pattern is one at some end of the text. -/
theorem exists_of_mem_matchesOf (h : a ∈ matchesOf p t) :
    ∃ before ahead n, ahead <:+ t ∧ p before ahead = some (a, n) := exists_of_mem_matchesFrom h

end Matches

end ChangeReview.Text
