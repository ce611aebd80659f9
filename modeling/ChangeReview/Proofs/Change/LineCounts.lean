import ChangeReview.Change.Totals
import ChangeReview.Proofs.Change.SourceLines
import ChangeReview.Proofs.Change.RoundTrip
import Mathlib.Tactic.SplitIfs

/-!
# Counted lines

A block is counted line by line as it is read, and metadata lines leave early. Whoever reads the text
of the file afterwards goes by the first characters of its lines alone. Both find the same numbers,
since no metadata line looks like an added or a removed one; and over a diff in which every block is
read, they are the numbers of the whole diff.
-/
namespace ChangeReview.Diff

/-! ## Lines that never count -/

/-- What a line that tells of the file, or opens blocks or content, starts with. -/
def marks : List Text :=
  [opening, "new file", "deleted file", "rename from", "--- ", "+++ ", "@@"]

theorem uncounted_of_mark {l mark : Text} (hmark : mark ∈ marks)
    (h : Text.startsWith l mark = true) : isAddition l = false ∧ isDeletion l = false := by
  obtain ⟨rest, rfl⟩ := List.isPrefixOf_iff_prefix.mp h
  simp only [marks, List.mem_cons, List.not_mem_nil, or_false] at hmark
  rcases hmark with rfl | rfl | rfl | rfl | rfl | rfl | rfl <;> exact ⟨rfl, rfl⟩

theorem uncounted_of_isOpening {l : Text} (h : isOpening l = true) :
    isAddition l = false ∧ isDeletion l = false :=
  uncounted_of_mark List.mem_cons_self h

/-! ## Counting while reading -/

namespace BlockState

/-- The lines that a block has counted so far. -/
def counts (s : BlockState) : Nat × Nat := (s.additions, s.deletions)

/-- Wherever a line stands, it counts by its first characters. -/
theorem counts_step (s : BlockState) (l : Text) :
    (s.step l).counts =
      (s.additions + (isAddition l).toNat, s.deletions + (isDeletion l).toNat) := by
  -- a branch that leaves early is that of a mark, and no line with a mark would count
  have hleft : ∀ mark ∈ marks, Text.startsWith l mark = true →
      s.counts = (s.additions + (isAddition l).toNat, s.deletions + (isDeletion l).toNat) := by
    intro mark hmark h
    obtain ⟨hadd, hdel⟩ := uncounted_of_mark hmark h
    rw [hadd, hdel]
    rfl
  unfold step
  rw [count_eq]
  split_ifs with hs hnew hgone hrename hold hside hrange
  · rfl
  · exact hleft _ (by simp [marks]) hnew
  · exact hleft _ (by simp [marks]) hgone
  · exact hleft _ (by simp [marks]) hrename
  · exact hleft _ (by simp [marks]) hold
  · exact hleft _ (by simp [marks]) hside
  · exact hleft _ (by simp [marks]) hrange
  · rfl

/-- Lines in a row count like each of them. -/
theorem counts_foldl (s : BlockState) (ls : List Text) :
    (ls.foldl step s).counts =
      (s.additions + ls.countP isAddition, s.deletions + ls.countP isDeletion) := by
  induction ls generalizing s with
  | nil => rfl
  | cons l ls ih =>
    obtain ⟨hadd, hdel⟩ := Prod.mk.inj (counts_step s l)
    have hcons : ∀ p : Text → Bool, (l :: ls).countP p = (p l).toNat + ls.countP p := fun p => by
      rw [List.countP_cons, Nat.add_comm]
      cases p l <;> rfl
    rw [List.foldl_cons, ih, hadd, hdel, hcons, hcons, Nat.add_assoc, Nat.add_assoc]

end BlockState

/-- A block has counted its lines by their first characters. -/
theorem Block.IsRead.counts_eq {b : Block} (h : b.IsRead) :
    b.toFile.additions = b.lines.countP isAddition ∧
      b.toFile.deletions = b.lines.countP isDeletion := by
  obtain ⟨hadd, hdel⟩ := uncounted_of_isOpening h.heads
  obtain ⟨hadds, hdels⟩ := Prod.mk.inj (BlockState.counts_foldl
    ⟨b.oldPath == nullPath, b.newPath == nullPath, none, false, 0, 0⟩ b.body)
  rw [lines, List.countP_cons_of_neg (by simp [hadd]), List.countP_cons_of_neg (by simp [hdel])]
  exact ⟨congrArg Nat.cast (hadds.trans (Nat.zero_add _)),
    congrArg Nat.cast (hdels.trans (Nat.zero_add _))⟩

/-- No count of a file of a diff is below zero. -/
theorem counts_nonneg {t : Text} {f : ChangedFile} (h : f ∈ parse t) :
    0 ≤ f.additions ∧ 0 ≤ f.deletions := by
  obtain ⟨b, -, rfl⟩ := List.mem_map.mp h
  exact ⟨Int.natCast_nonneg _, Int.natCast_nonneg _⟩

/-! ## Counting in a text -/

/-- Lines that are joined are found again, but for an empty one at the end. -/
theorem countP_lines_join {p : Text → Bool} (hp : p [] = false) {ls : List Text}
    (h : ∀ l ∈ ls, l.OneLine) : (Text.lines (Text.join "\n" ls)).countP p = ls.countP p := by
  rcases List.eq_nil_or_concat ls with rfl | ⟨front, last, hls⟩
  · rfl
  · obtain rfl := hls.trans List.concat_eq_append
    rw [Text.join_concat, Text.lines_unlines_append fun l hl => h l (List.mem_append_left _ hl),
      List.countP_append, List.countP_append]
    by_cases hlast : last = []
    · subst hlast
      rw [List.countP_cons_of_neg (by simp [hp])]
      rfl
    · rw [Text.lines_of_oneLine (h last (by simp)) hlast]

/-- The text of a file has the lines of its block. -/
theorem Block.IsRead.countP_diff {b : Block} (h : b.IsRead) {p : Text → Bool} (hp : p [] = false) :
    (Text.lines b.toFile.diff).countP p = b.lines.countP p := by
  rw [diff_toFile]
  exact countP_lines_join hp h.oneLine

theorem length_addedLines (t : Text) :
    (addedLines t).length = (Text.lines t).countP isAddition := by
  rw [addedLines, List.length_map, List.countP_eq_length_filter]
  rfl

/-! ## Counting in a diff -/

/-- Every opening line names two sides, and one stands in front. -/
structure AllRead (ls : List Text) : Prop where
  front : ∀ l ∈ ls.head?, opensFile l = true
  opens : ∀ l ∈ ls, isOpening l = true → opensFile l = true

/-- Groups whose opening lines name two sides make blocks of the same lines. -/
theorem flatMap_lines_filterMap {gs : List (Text × List Text)}
    (h : ∀ g ∈ gs, (sides? g.1).isSome = true) :
    (gs.filterMap block?).flatMap Block.lines = gs.flatMap fun g => g.1 :: g.2 := by
  induction gs with
  | nil => rfl
  | cons g gs ih =>
    obtain ⟨sides, hsides⟩ := Option.isSome_iff_exists.mp (h g List.mem_cons_self)
    have hblock : block? g = some ⟨sides.1, sides.2, g.1, g.2⟩ := by rw [block?, hsides]; rfl
    rw [List.filterMap_cons_some hblock, List.flatMap_cons, List.flatMap_cons,
      ih fun k hk => h k (List.mem_cons_of_mem g hk)]
    rfl

/-- Where every block is read, the blocks have all the lines. -/
theorem AllRead.flatMap_blocks {t : Text} (h : AllRead (Text.lines t)) :
    (blocks t).flatMap Block.lines = Text.lines t := by
  obtain ⟨hlines, -, hgroups⟩ := groups_spec (Text.lines t)
  have hfront : (groups (Text.lines t)).1 = [] := by
    cases hls : Text.lines t with
    | nil => rfl
    | cons l ls =>
      have hl : opensFile l = true := h.front l (by rw [hls]; rfl)
      rw [groups_opening (isOpening_of_opensFile hl)]
  have hsides : ∀ g ∈ (groups (Text.lines t)).2, (sides? g.1).isSome = true := fun g hg =>
    (Bool.and_eq_true_iff.mp
      (h.opens g.1 (mem_of_mem_group hg List.mem_cons_self) (hgroups g hg).1)).2
  rw [blocks, flatMap_lines_filterMap hsides]
  rwa [hfront, List.nil_append] at hlines

/-- Counts of blocks add up to the count of all their lines. -/
theorem totalOf_blocks {count : ChangedFile → Int} {p : Text → Bool} {bs : List Block}
    (h : ∀ b ∈ bs, count b.toFile = b.lines.countP p) :
    totalOf count (bs.map Block.toFile) = (bs.flatMap Block.lines).countP p := by
  induction bs with
  | nil => rfl
  | cons b bs ih =>
    have hcons : totalOf count ((b :: bs).map Block.toFile) =
        count b.toFile + totalOf count (bs.map Block.toFile) := rfl
    rw [hcons, h b List.mem_cons_self, ih fun k hk => h k (List.mem_cons_of_mem b hk),
      List.flatMap_cons, List.countP_append, Int.natCast_add]

/-- The counts of a file are those of the lines of its text, whatever these look like. Where the first
line opens a file and every opening line names two sides, the totals of a diff are the counts of all
its lines. -/
theorem counts_agree (t : Text) :
    (∀ f ∈ parse t, f.additions = (addedLines f.diff).length ∧
      f.deletions = (Text.lines f.diff).countP isDeletion) ∧
    (AllRead (Text.lines t) →
      (ChangeTotals.ofFiles (parse t)).linesAdded = (Text.lines t).countP isAddition ∧
        (ChangeTotals.ofFiles (parse t)).linesRemoved = (Text.lines t).countP isDeletion) := by
  constructor
  · intro f hf
    obtain ⟨b, hb, rfl⟩ := List.mem_map.mp hf
    have hread := isRead_of_mem_blocks hb
    rw [length_addedLines, hread.countP_diff rfl, hread.countP_diff rfl]
    exact hread.counts_eq
  · intro hall
    have hcounts : ∀ b ∈ blocks t, _ := fun b hb => (isRead_of_mem_blocks hb).counts_eq
    rw [← hall.flatMap_blocks]
    exact ⟨totalOf_blocks fun b hb => (hcounts b hb).1, totalOf_blocks fun b hb => (hcounts b hb).2⟩

/-- Two blocks with side lines, header-like content and an empty line at the end. -/
theorem counts_agree_headerLike :
    let t : Text := "diff --git a/x b/x\n--- a/x\n+++ b/x\n+0\n@@ @@\n--- 1\n-2\n+++ 3\n+4\n\n" ++
      "diff --git a/y b/y\nnew file\n@@ @@\n+++++\n+new file\n-"
    AllRead (Text.lines t) ∧ (parse t).map (fun f => (f.additions, f.deletions)) = [(2, 1), (1, 1)] ∧
      (ChangeTotals.ofFiles (parse t)).linesAdded = (Text.lines t).countP isAddition ∧
      (ChangeTotals.ofFiles (parse t)).linesRemoved = (Text.lines t).countP isDeletion := by
  intro t
  have hall : AllRead (Text.lines t) := ⟨by decide +kernel, by decide +kernel⟩
  exact ⟨hall, by decide +kernel, (counts_agree t).2 hall⟩

end ChangeReview.Diff
