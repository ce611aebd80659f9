import ChangeReview.Proofs.Text.Lines
import Mathlib.Data.List.DropRight
import Mathlib.Data.List.TakeWhile

/-!
# Blanks around a text

A text that is not blank is a neat one with blanks in front of it and behind it, and trimming leaves
the neat one. So what has been trimmed and is not empty is neat.
-/
namespace ChangeReview.Text

/-- Not empty, and without blanks at its ends. -/
structure IsNeat (t : Text) : Prop where
  ne_nil : t ≠ []
  trim_eq : trim t = t

instance (t : Text) : Decidable t.IsNeat :=
  decidable_of_iff (t ≠ [] ∧ trim t = t) ⟨fun h => ⟨h.1, h.2⟩, fun h => ⟨h.1, h.2⟩⟩

theorem isBlankText_iff {t : Text} : isBlankText t = true ↔ ∀ c ∈ t, isBlank c = true :=
  List.all_eq_true

/-- Trimming at the end takes the blanks there, which Mathlib calls `rdropWhile`. -/
theorem trimRight_eq (t : Text) : trimRight t = t.rdropWhile isBlank := rfl

theorem exists_trimRight (t : Text) : ∃ tail, t = trimRight t ++ tail ∧ isBlankText tail = true := by
  refine ⟨t.rtakeWhile isBlank, List.rdropWhile_append_rtakeWhile.symm, ?_⟩
  exact isBlankText_iff.mpr fun c hc => List.mem_rtakeWhile_imp hc

theorem exists_trimLeft (t : Text) : ∃ lead, t = lead ++ trimLeft t ∧ isBlankText lead = true :=
  ⟨t.takeWhile isBlank, List.takeWhile_append_dropWhile.symm,
    isBlankText_iff.mpr fun _ hc => List.mem_takeWhile_imp hc⟩

/-- A text is what remains of it between the blanks at its ends. -/
theorem exists_trim (t : Text) : ∃ lead tail, t = lead ++ (trim t ++ tail) ∧
    isBlankText lead = true ∧ isBlankText tail = true := by
  obtain ⟨lead, hlead, hblank⟩ := exists_trimLeft t
  obtain ⟨tail, htail, hblank'⟩ := exists_trimRight (trimLeft t)
  exact ⟨lead, tail, by rw [trim, ← htail, ← hlead], hblank, hblank'⟩

theorem trimLeft_append_blank {lead : Text} (h : isBlankText lead = true) (t : Text) :
    trimLeft (lead ++ t) = trimLeft t :=
  List.dropWhile_append_of_pos (isBlankText_iff.mp h)

theorem trimRight_append_blank {tail : Text} (h : isBlankText tail = true) (t : Text) :
    trimRight (t ++ tail) = trimRight t := by
  have hback : ∀ c ∈ tail.reverse, isBlank c = true := fun c hc =>
    isBlankText_iff.mp h c (List.mem_reverse.mp hc)
  simp [trimRight, List.dropWhile_append_of_pos hback]

theorem trim_eq_nil_iff {t : Text} : trim t = [] ↔ isBlankText t = true := by
  rw [trim, trimRight_eq, List.rdropWhile_eq_nil_iff, isBlankText_iff]
  constructor
  · intro h c hc
    obtain ⟨lead, hlead, hblank⟩ := exists_trimLeft t
    rw [hlead] at hc
    rcases List.mem_append.mp hc with hc | hc
    · exact isBlankText_iff.mp hblank c hc
    · exact h c hc
  · exact fun h c hc => h c (List.dropWhile_subset _ hc)

theorem isBlank_head_trimLeft {t r : Text} {c : Char} (h : trimLeft t = c :: r) :
    isBlank c = false := by
  have hhead := List.head?_dropWhile_not isBlank t
  rw [show t.dropWhile isBlank = c :: r from h] at hhead
  simpa using hhead

theorem trimLeft_trim (t : Text) : trimLeft (trim t) = trim t := by
  rw [trim]
  cases hstart : trimLeft t with
  | nil => rfl
  | cons c r =>
    have hc := isBlank_head_trimLeft hstart
    rw [trimRight_cons hc]
    exact List.dropWhile_cons_of_neg (by simp [hc])

theorem trim_trim (t : Text) : trim (trim t) = trim t := by
  rw [trim, trimLeft_trim]
  exact List.rdropWhile_idempotent isBlank (trimLeft t)

/-- What is left of a text that is not blank is neat. -/
theorem isNeat_trim {t : Text} (h : isBlankText t = false) : (trim t).IsNeat where
  ne_nil hnil := by simp [trim_eq_nil_iff.mp hnil] at h
  trim_eq := trim_trim t

namespace IsNeat

variable {t : Text}

theorem trimLeft_eq (h : t.IsNeat) : trimLeft t = t := by
  rw [← h.trim_eq, trimLeft_trim]

theorem trimRight_eq_self (h : t.IsNeat) : trimRight t = t := by
  have heq := h.trim_eq
  rwa [trim, h.trimLeft_eq] at heq

end IsNeat

end ChangeReview.Text
