import ChangeReview.Proofs.Change.Groups
import ChangeReview.Proofs.Text.Lines

/-!
# Blocks are independent

Where one block of a diff starts nothing is left of the one in front: a diff that is cut at an
opening line is read as its two parts, and a file's own block is read as this file alone.
-/
namespace ChangeReview.Diff

/-! ## Parts of a diff -/

theorem oneLine_opening : opening.OneLine := by decide

/-- The files of some lines in order. -/
def filesOf (ls : List Text) : List ChangedFile :=
  ((groups ls).2.filterMap block?).map Block.toFile

theorem parse_eq (diff : Text) : parse diff = filesOf (Text.lines diff) := rfl

theorem filesOf_append_opening {l : Text} (hl : isOpening l = true) (ls more : List Text) :
    filesOf (ls ++ l :: more) = filesOf ls ++ filesOf (l :: more) := by
  rw [filesOf, groups_append_opening hl, List.filterMap_append, List.map_append]
  rfl

/-- The first line of a text that starts like an opening line is one. -/
theorem exists_lines_opening {t : Text} (ht : isOpening t = true) :
    ∃ l more, Text.lines t = l :: more ∧ isOpening l = true := by
  obtain ⟨rest, rfl⟩ := List.isPrefixOf_iff_prefix.mp ht
  obtain ⟨l, more, hlines⟩ := Text.lines_oneLine_append oneLine_opening (by decide) rest
  exact ⟨opening ++ l, more, hlines, Text.startsWith_append opening l⟩

/-- A diff of which whole lines stand in front of an opening line is read part by part. -/
theorem parse_append {a b : Text} (ha : a = [] ∨ Text.endsWith a "\n" = true)
    (hb : isOpening b = true) : parse (a ++ b) = parse a ++ parse b := by
  rcases ha with rfl | ha
  · rfl
  · obtain ⟨front, rfl⟩ := List.isSuffixOf_iff_suffix.mp ha
    obtain ⟨l, more, hlines, hl⟩ := exists_lines_opening hb
    have hcut : Text.lines (front ++ "\n" ++ b) = Text.lines (front ++ "\n") ++ Text.lines b := by
      rw [List.append_assoc]
      exact Text.lines_append_break front b
    rw [parse_eq, hcut, hlines, filesOf_append_opening hl, ← hlines]
    rfl

/-! ## One block -/

/-- The text without a line feed at its end. -/
def withoutFinalBreak (t : Text) : Text := if Text.endsWith t "\n" then t.dropLast else t

namespace Block

/-- The lines of a block. -/
def lines (b : Block) : List Text := b.header :: b.body

/-- A block as a reader finds it in a diff. -/
structure IsRead (b : Block) : Prop where
  found : block? (b.header, b.body) = some b
  heads : isOpening b.header = true
  alone : ∀ l ∈ b.body, isOpening l = false
  oneLine : ∀ l ∈ b.lines, l.OneLine

variable {b : Block}

theorem diff_toFile (b : Block) : b.toFile.diff = Text.join "\n" b.lines := rfl

/-- The lines of a block are read as the block alone. -/
theorem IsRead.filesOf_lines (h : b.IsRead) : filesOf b.lines = [b.toFile] := by
  rw [filesOf, lines, groups_opening h.heads, groups_of_not_opening h.alone]
  simp [h.found]

/-- An empty line says nothing. -/
theorem step_nil (s : BlockState) : s.step [] = s := by
  rw [BlockState.step]
  cases s.inHunk <;> rfl

/-- An empty line at the end of a block changes nothing but the block's text. -/
theorem toFile_concat_nil (header old new : Text) (body : List Text) :
    (Block.mk old new header body).toFile =
      { (Block.mk old new header (body ++ [[]])).toFile with
        diff := Text.join "\n" (header :: body) } := by
  have hstate : (Block.mk old new header (body ++ [[]])).state =
      (Block.mk old new header body).state := by
    rw [state, state, List.foldl_append, List.foldl_cons, List.foldl_nil, step_nil]
  simp only [toFile, hstate]

theorem IsRead.shorten {old new header : Text} {body : List Text}
    (h : (Block.mk old new header (body ++ [[]])).IsRead) :
    (Block.mk old new header body).IsRead where
  found := by
    have hfound := h.found
    unfold block? at hfound ⊢
    obtain ⟨sides, hsides, heq⟩ := Option.map_eq_some_iff.mp hfound
    obtain ⟨rfl, rfl⟩ : sides.1 = old ∧ sides.2 = new := ⟨congrArg oldPath heq, congrArg newPath heq⟩
    exact Option.map_eq_some_iff.mpr ⟨sides, hsides, rfl⟩
  heads := h.heads
  alone l hl := h.alone l (List.mem_append_left _ hl)
  oneLine l hl := h.oneLine l (by
    rcases List.mem_cons.mp hl with rfl | hl
    · exact List.mem_cons_self
    · exact List.mem_cons_of_mem _ (List.mem_append_left _ hl))

end Block

/-- Joined lines end like the last one. -/
theorem endsWith_join_concat (ls : List Text) {l : Text} (hl : l.OneLine) (hne : l ≠ []) :
    Text.endsWith (Text.join "\n" (ls ++ [l])) "\n" = false := by
  rw [Text.join_concat, ← Bool.not_eq_true]
  intro hend
  obtain ⟨front, hfront⟩ := List.isSuffixOf_iff_suffix.mp hend
  have hlast : (Text.unlines ls ++ l).getLast? = some '\n' := by
    rw [← hfront]
    exact List.getLast?_concat
  rw [List.getLast?_append, Option.or_of_isSome (by simpa using hne)] at hlast
  exact absurd (hl '\n' (List.mem_of_getLast? hlast)) (by decide)

theorem withoutFinalBreak_break (t : Text) : withoutFinalBreak (t ++ ['\n']) = t := by
  have hend : Text.endsWith (t ++ ['\n']) "\n" = true :=
    List.isSuffixOf_iff_suffix.mpr (List.suffix_append _ _)
  rw [withoutFinalBreak, if_pos hend, List.dropLast_concat]

namespace Block.IsRead

/-- A block whose last line is not empty is read from its text as it is. -/
theorem parse_diff_of_concat {b : Block} (h : b.IsRead) {ls : List Text} {last : Text}
    (hlines : b.lines = ls ++ [last]) (hne : last ≠ []) :
    parse b.toFile.diff = [b.toFile] ∧ withoutFinalBreak b.toFile.diff = b.toFile.diff := by
  have hone : ∀ l ∈ ls ++ [last], l.OneLine := hlines ▸ h.oneLine
  have hlast : last.OneLine := hone last (by simp)
  have hend := endsWith_join_concat ls hlast hne
  have hwhole : Text.lines (Text.join "\n" (ls ++ [last])) = b.lines := by
    rw [Text.join_concat, Text.lines_unlines_append fun l hl => hone l (List.mem_append_left _ hl),
      Text.lines_of_oneLine hlast hne, hlines]
  rw [diff_toFile, hlines, withoutFinalBreak, hend, parse_eq, hwhole]
  exact ⟨h.filesOf_lines, rfl⟩

/-- An empty last line is lost with the line feed in front of it; the rest is a block as it was. -/
theorem parse_diff_of_nil {old new header : Text} {body : List Text}
    (h : (Block.mk old new header (body ++ [[]])).IsRead) :
    let f := (Block.mk old new header (body ++ [[]])).toFile
    parse f.diff = [{ f with diff := withoutFinalBreak f.diff }] := by
  have hread := h.shorten
  have hdiff : (Block.mk old new header (body ++ [[]])).toFile.diff =
      Text.unlines (header :: body) := by
    rw [diff_toFile, lines, ← List.cons_append, Text.join_concat, List.append_nil]
  have hjoin : Text.unlines (header :: body) = Text.join "\n" (header :: body) ++ ['\n'] := by
    have hconcat := Text.join_concat (header :: body) []
    rw [Text.join_append "\n" (List.cons_ne_nil _ _) (List.cons_ne_nil _ _), Text.join_singleton,
      List.append_nil, List.append_nil] at hconcat
    exact hconcat.symm
  have hone : ∀ l ∈ header :: body, l.OneLine := hread.oneLine
  have hwhole : Text.lines (Text.unlines (header :: body)) = header :: body := by
    rw [← List.append_nil (Text.unlines _), Text.lines_unlines_append hone]
    exact List.append_nil _
  have hfiles := hread.filesOf_lines
  rw [toFile_concat_nil] at hfiles
  dsimp only
  rw [hdiff, parse_eq, hwhole, hjoin, withoutFinalBreak_break]
  exact hfiles

/-- The text of a block is read as the block alone, but for an empty line at its end. -/
theorem parse_diff {b : Block} (h : b.IsRead) :
    parse b.toFile.diff = [{ b.toFile with diff := withoutFinalBreak b.toFile.diff }] := by
  obtain ⟨old, new, header, body⟩ := b
  have hheader : header ≠ [] := by
    rintro rfl
    exact absurd h.heads (by decide : ¬ isOpening [] = true)
  have hkept : ∀ (ls : List Text) {last : Text}, header :: body = ls ++ [last] → last ≠ [] →
      parse (Block.mk old new header body).toFile.diff =
        [{ (Block.mk old new header body).toFile with
          diff := withoutFinalBreak (Block.mk old new header body).toFile.diff }] := by
    intro ls last hlines hne
    obtain ⟨hparse, hdiff⟩ := h.parse_diff_of_concat hlines hne
    rw [hparse, hdiff]
  rcases body.eq_nil_or_concat with rfl | ⟨body, last, rfl⟩
  · exact hkept [] rfl hheader
  · rw [List.concat_eq_append] at h hkept ⊢
    by_cases hlast : last = []
    · subst hlast
      exact h.parse_diff_of_nil
    · exact hkept (header :: body) rfl hlast

end Block.IsRead

/-- Every block that is found in a diff has lines of the diff. -/
theorem isRead_of_mem_blocks {diff : Text} {b : Block} (hb : b ∈ blocks diff) : b.IsRead := by
  obtain ⟨g, hg, hfound⟩ := List.mem_filterMap.mp hb
  obtain ⟨sides, hsides, rfl⟩ := Option.map_eq_some_iff.mp hfound
  obtain ⟨hheads, halone⟩ := (groups_spec (Text.lines diff)).2.2 g hg
  exact ⟨hfound, hheads, halone, fun l hl => Text.oneLine_of_mem_lines (mem_of_mem_group hg hl)⟩

/-- A diff can be cut in front of any opening line, and each file read again from its own block; the
block may only lose a line feed at its end. -/
theorem blocks_are_independent :
    (∀ a b : Text, a = [] ∨ Text.endsWith a "\n" = true → isOpening b = true →
      parse (a ++ b) = parse a ++ parse b) ∧
    ∀ diff : Text, ∀ f ∈ parse diff,
      parse f.diff = [{ f with diff := withoutFinalBreak f.diff }] := by
  refine ⟨fun a b ha hb => parse_append ha hb, fun diff f hf => ?_⟩
  obtain ⟨b, hb, rfl⟩ := List.mem_map.mp hf
  exact (isRead_of_mem_blocks hb).parse_diff

/-- A block that ends in an empty line, and another one behind it. -/
theorem blocks_are_independent_twoFiles :
    let a : Text := "diff --git a/x.py b/x.py\n@@ -1 +1 @@\n+1\n\n"
    let b : Text := "diff --git a/y.py b/y.py\n-2"
    let f : ChangedFile :=
      { path := "x.py"
        additions := 1
        language := "python"
        diff := "diff --git a/x.py b/x.py\n@@ -1 +1 @@\n+1\n" }
    Text.endsWith a "\n" = true ∧ isOpening b = true ∧ parse (a ++ b) = parse a ++ parse b ∧
      f ∈ parse a ∧
        parse f.diff = [{ f with diff := "diff --git a/x.py b/x.py\n@@ -1 +1 @@\n+1" }] := by
  intro a b f
  have ha : Text.endsWith a "\n" = true := by decide
  have hb : isOpening b = true := by decide
  have hf : f ∈ parse a := by decide
  refine ⟨ha, hb, blocks_are_independent.1 a b (.inr ha) hb, hf, ?_⟩
  exact blocks_are_independent.2 a f hf

end ChangeReview.Diff
