import ChangeReview.Proofs.Change.LineCounts
import ChangeReview.Proofs.Review.SortedFixes
import ChangeReview.Proofs.Text.Occurrences

/-!
# Where credentials are mentioned

A credential word breaks no line, however its letters are written. So a diff mentions a credential
just where one of its lines does, and likewise the block of each file. Where the blocks have all the
lines of the diff, some block mentions what the diff mentions, and the fix is for the first one.
-/
namespace ChangeReview.Fix

open Diff

/-! ## Mentions -/

/-- A credential is mentioned where some stretch spells a credential word. -/
theorem mentionsCredential_iff {t : Text} :
    mentionsCredential t = true ↔ ∃ s, s <:+: t ∧ s.map Text.foldKey ∈ credentialWords := by
  simp only [mentionsCredential, List.any_eq_true, Text.occurs_iff, List.infix_map_iff]
  constructor
  · rintro ⟨word, hword, s, hs, rfl⟩
    exact ⟨s, hs, hword⟩
  · rintro ⟨s, hs, hword⟩
    exact ⟨_, hword, s, hs, rfl⟩

/-- No letter of a credential word breaks a line. -/
theorem isLineBreak_of_mem_word {c : Char} {word : Text} (hword : word ∈ credentialWords)
    (hc : Text.foldKey c ∈ word) : Text.isLineBreak c = false := by
  rw [← Bool.not_eq_true]
  intro hbreak
  have hfold : ∀ word ∈ credentialWords, Text.foldKey c ∉ word := by
    simp only [Text.isLineBreak, Bool.or_eq_true, beq_iff_eq, or_assoc] at hbreak
    rcases hbreak with rfl | rfl | rfl | rfl | rfl | rfl | rfl | rfl | rfl | rfl <;> decide
  exact hfold word hword hc

theorem mentionsCredential_iff_exists_line {t : Text} :
    mentionsCredential t = true ↔ ∃ l ∈ Text.lines t, mentionsCredential l = true := by
  have hstretch : ∀ s : Text, s.map Text.foldKey ∈ credentialWords →
      (s <:+: t ↔ ∃ l ∈ Text.lines t, s <:+: l) := by
    intro s hs
    refine Text.infix_iff_exists_line ?_ ?_
    · exact fun c hc => isLineBreak_of_mem_word hs (List.mem_map_of_mem hc)
    · rintro rfl
      exact absurd hs (by decide)
  simp only [mentionsCredential_iff]
  constructor
  · rintro ⟨s, hst, hs⟩
    obtain ⟨l, hl, hsl⟩ := (hstretch s hs).mp hst
    exact ⟨l, hl, s, hsl, hs⟩
  · rintro ⟨l, hl, s, hsl, hs⟩
    exact ⟨s, (hstretch s hs).mpr ⟨l, hl, hsl⟩, hs⟩

/-- A block mentions what its lines mention. -/
theorem mentionsCredential_block {b : Block} (h : b.IsRead) :
    mentionsCredential b.toFile.diff = true ↔ ∃ l ∈ b.lines, mentionsCredential l = true := by
  rw [mentionsCredential_iff_exists_line, ← List.countP_pos_iff, h.countP_diff (by decide),
    List.countP_pos_iff]

/-- Where all blocks are read, they mention what the diff mentions. -/
theorem mentionsCredential_iff_exists_file {t : Text} (h : AllRead (Text.lines t)) :
    mentionsCredential t = true ↔ ∃ f ∈ parse t, mentionsCredential f.diff = true := by
  rw [mentionsCredential_iff_exists_line, ← h.flatMap_blocks, parse]
  simp only [List.mem_flatMap, List.mem_map]
  constructor
  · rintro ⟨l, ⟨b, hb, hl⟩, hmention⟩
    exact ⟨_, ⟨b, hb, rfl⟩, (mentionsCredential_block (isRead_of_mem_blocks hb)).mpr ⟨l, hl, hmention⟩⟩
  · rintro ⟨_, ⟨b, hb, rfl⟩, hmention⟩
    obtain ⟨l, hl, hl'⟩ := (mentionsCredential_block (isRead_of_mem_blocks hb)).mp hmention
    exact ⟨l, ⟨b, hb, hl⟩, hl'⟩

/-! ## The fix -/

/-- The fix names the first file that mentions a credential, as long as there is one. -/
theorem file_credentialFix {t : Text} {files : List ChangedFile} {f : ChangedFile}
    (hmention : mentionsCredential t = true)
    (hf : (files.find? fun f => mentionsCredential f.diff) = some f) :
    (credentialFix t files).map Fix.file = some (.text f.path) := by
  rw [credentialFix, if_pos hmention, hf]
  rfl

/-- Where the first line opens a file and every opening line names two sides, the fix for the
credentials of a diff is missing just where no block mentions one, and is otherwise for the first
file whose block does. -/
theorem credentialFix_parse {t : Text} (h : AllRead (Text.lines t)) :
    (credentialFix t (parse t) = none ↔ ∀ f ∈ parse t, mentionsCredential f.diff = false) ∧
    (credentialFix t (parse t)).map Fix.file =
      ((parse t).find? fun f => mentionsCredential f.diff).map fun f => .text f.path := by
  have hnone : credentialFix t (parse t) = none ↔ ∀ f ∈ parse t, mentionsCredential f.diff = false := by
    rw [← Option.not_isSome_iff_eq_none, isSome_credentialFix, mentionsCredential_iff_exists_file h]
    simp
  refine ⟨hnone, ?_⟩
  cases hfound : (parse t).find? fun f => mentionsCredential f.diff with
  | none =>
    rw [hnone.mpr (by simpa using hfound)]
    rfl
  | some f =>
    have hmention : mentionsCredential f.diff = true := by simpa using List.find?_some hfound
    refine file_credentialFix ?_ hfound
    exact (mentionsCredential_iff_exists_file h).mpr
      ⟨f, List.mem_of_find?_eq_some hfound, hmention⟩

/-- A word that a form feed breaks is none, and a letter of another alphabet is as good as its own. -/
theorem credentialFix_parse_folded :
    let t : Text := "diff --git a/x.py b/x.py\n+pass\x0cword\ndiff --git a/y.py b/y.py\r\n+AP\u0130-\u212aey"
    AllRead (Text.lines t) ∧ (credentialFix t (parse t)).map Fix.file = some (.text "y.py") := by
  intro t
  have hall : AllRead (Text.lines t) := ⟨by decide +kernel, by decide +kernel⟩
  refine ⟨hall, (credentialFix_parse hall).2.trans ?_⟩
  decide +kernel

end ChangeReview.Fix
