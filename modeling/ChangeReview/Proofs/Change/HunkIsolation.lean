import ChangeReview.Proofs.Change.RoundTrip
import ChangeReview.Proofs.Change.SourceLines
import Mathlib.Tactic.SplitIfs

/-!
# Hunks are isolated

From the first `@@` line of a block on, its lines are content, whatever they look like. So two diffs
that are the same but for content have the same files, with the same paths, kinds of change and
languages: content is counted and kept, and only in the file of its own block.
-/
namespace ChangeReview

/-- What a file is and what happened to it, without its content. -/
def ChangedFile.outline (f : ChangedFile) : Text × FileStatus × Text × Option Text :=
  (f.path, f.status, f.language, f.oldPath)

namespace Diff

/-! ## Lines without content -/

/-- The line opens the content of a block. -/
def isRange (line : Text) : Bool := Text.startsWith line "@@"

/-- Where a line of a diff stands. -/
inductive Place where
  /-- In front of the first block, or behind an opening line that names no two sides. -/
  | apart
  /-- In a block whose content is not open yet. -/
  | metadata
  /-- In a block whose content is open. -/
  | content
  deriving DecidableEq, Repr

namespace Place

/-- The place behind an opening line. -/
def opened (header : Text) : Place := if (sides? header).isSome then metadata else apart

/-- The place behind a line that stands at a place. -/
def next (p : Place) (line : Text) : Place :=
  if isOpening line then opened line
  else if p = metadata && isRange line then content
  else p

end Place

/-- The lines that are no content, where the first one stands at a place. -/
def outsideFrom : Place → List Text → List Text
  | _, [] => []
  | p, l :: ls =>
    if p = .content && !isOpening l then outsideFrom p ls else l :: outsideFrom (p.next l) ls

/-- The lines of a diff without the content of its blocks: in a block that names two sides, every
line behind its first `@@` line that opens no other block. -/
def outsideHunks (diff : Text) : List Text := outsideFrom .apart (Text.lines diff)

example : outsideHunks "diff --git a/x b/x\n@@ @@\n-1\n@@ @@\ndiff --git a/y b/y\n+1" =
    (["diff --git a/x b/x", "@@ @@", "diff --git a/y b/y", "+1"] : List Text) := by decide +kernel

/-! ## Lines of one block -/

/-- The lines up to the one that opens the content. -/
def throughRange : List Text → List Text
  | [] => []
  | l :: ls => if isRange l then [l] else l :: throughRange ls

/-- The lines that are no content, of some that open no block. -/
def keptFrom : Place → List Text → List Text
  | .apart, ls => ls
  | .metadata, ls => throughRange ls
  | .content, _ => []

/-- A group without its content. -/
def withoutContent (g : Text × List Text) : Text × List Text := (g.1, keptFrom (.opened g.1) g.2)

theorem keptFrom_nil (p : Place) : keptFrom p [] = [] := by cases p <;> rfl

/-- A line that opens no block stays unless it is content. -/
theorem keptFrom_cons {l : Text} (hl : isOpening l = false) (p : Place) (ls : List Text) :
    keptFrom p (l :: ls) = if p = .content then [] else l :: keptFrom (p.next l) ls := by
  cases p with
  | apart => simp [keptFrom, Place.next, hl]
  | metadata => cases hrange : isRange l <;> simp [keptFrom, throughRange, Place.next, hl, hrange]
  | content => rfl

/-- The groups of the lines that are no content are the groups of all lines without their content. -/
theorem groups_outsideFrom (p : Place) (ls : List Text) :
    groups (outsideFrom p ls) =
      (keptFrom p (groups ls).1, (groups ls).2.map withoutContent) := by
  induction ls generalizing p with
  | nil => simp [outsideFrom, groups, keptFrom_nil]
  | cons l ls ih =>
    cases hl : isOpening l with
    | true =>
      have hnext : p.next l = .opened l := by rw [Place.next, if_pos hl]
      rw [outsideFrom, if_neg (by simp [hl]), hnext, groups_opening hl, groups_opening hl, ih,
        keptFrom_nil]
      rfl
    | false =>
      rw [groups_line hl, keptFrom_cons hl, outsideFrom]
      by_cases hp : p = .content
      · subst hp
        rw [if_pos (by simp [hl]), if_pos rfl, ih]
        rfl
      · rw [if_neg (by simp [hp]), if_neg hp, groups_line hl, ih]

/-! ## What a block says in front of its content -/

namespace BlockState

variable {s : BlockState}

/-- What is known of the file of a block, its counts apart. -/
def known (s : BlockState) : Bool × Bool × Option Text := (s.oldMissing, s.newMissing, s.renamedFrom)

/-- The first line of a hunk opens the content and says nothing else. -/
theorem step_of_isRange {l : Text} (h : isRange l = true) : s.step l = { s with inHunk := true } := by
  obtain ⟨range, rfl⟩ := List.isPrefixOf_iff_prefix.mp h
  exact step_range range

/-- No other line opens the content. -/
theorem inHunk_step {l : Text} (hs : s.inHunk = false) (h : isRange l = false) :
    (s.step l).inHunk = false := by
  have hrange : ¬ Text.startsWith l "@@" = true := ne_true_of_eq_false h
  unfold step
  rw [if_neg (by simp [hs]), if_neg hrange, count_eq]
  split_ifs <;> exact hs

/-- Content leaves what is known of a file as it is. -/
theorem known_foldl_content (hs : s.inHunk = true) (ls : List Text) :
    (ls.foldl step s).known = s.known := by
  rw [foldl_content ls hs]
  rfl

/-- What is known of a file is what the lines in front of the content say. -/
theorem known_foldl_throughRange (hs : s.inHunk = false) (ls : List Text) :
    ((throughRange ls).foldl step s).known = (ls.foldl step s).known := by
  induction ls generalizing s with
  | nil => rfl
  | cons l ls ih =>
    rw [throughRange]
    cases hl : isRange l with
    | true =>
      have hopen : (s.step l).inHunk = true := by rw [step_of_isRange hl]
      rw [if_pos rfl]
      exact (known_foldl_content hopen ls).symm
    | false =>
      rw [if_neg Bool.false_ne_true, List.foldl_cons, List.foldl_cons, ih (inHunk_step hs hl)]

end BlockState

/-- The outline of a file goes by the paths of its block and what is known of it. -/
theorem Block.outline_toFile {b b' : Block} (hold : b.oldPath = b'.oldPath)
    (hnew : b.newPath = b'.newPath) (h : b.state.known = b'.state.known) :
    b.toFile.outline = b'.toFile.outline := by
  unfold ChangedFile.outline toFile
  generalize b.state = s at h ⊢
  generalize b'.state = s' at h ⊢
  rw [hold, hnew]
  rcases s with ⟨missing, gone, renamed, _, _, _⟩
  rcases s' with ⟨missing', gone', renamed', _, _, _⟩
  obtain ⟨rfl, rfl, rfl⟩ : missing = missing' ∧ gone = gone' ∧ renamed = renamed' := by
    simpa [BlockState.known] using h
  rfl

/-- A group is read as a file with the same outline without its content. -/
theorem outline_withoutContent (g : Text × List Text) :
    (block? (withoutContent g)).map (fun b => b.toFile.outline) =
      (block? g).map fun b => b.toFile.outline := by
  obtain ⟨header, body⟩ := g
  unfold block? withoutContent
  dsimp only
  cases hsides : sides? header with
  | none => rfl
  | some sides =>
    have hopened : Place.opened header = .metadata := by rw [Place.opened, hsides]; rfl
    rw [hopened]
    refine congrArg some (Block.outline_toFile rfl rfl ?_)
    exact BlockState.known_foldl_throughRange rfl body

/-- The files of some lines have the outlines of those that the lines without content make. -/
theorem outline_filesOf (ls : List Text) :
    (filesOf (outsideFrom .apart ls)).map ChangedFile.outline =
      (filesOf ls).map ChangedFile.outline := by
  have hread : ∀ gs : List (Text × List Text),
      ((gs.filterMap block?).map Block.toFile).map ChangedFile.outline =
        gs.filterMap fun g => (block? g).map fun b => b.toFile.outline := by
    intro gs
    rw [List.map_map, List.map_filterMap]
    rfl
  unfold filesOf
  rw [hread, hread, groups_outsideFrom, List.filterMap_map]
  exact congrArg (List.filterMap · _) (funext outline_withoutContent)

/-! ## Files and their own blocks -/

/-- The file of a block goes by the lines of the block. -/
theorem getElem?_filesOf {ls : List Text} {i : Nat} {g : Text × List Text}
    (h : (fileGroups ls)[i]? = some g) : (filesOf ls)[i]? = (block? g).map Block.toFile := by
  have hi : ((filesOf ls).map some)[i]? =
      ((fileGroups ls).map fun g => (block? g).map Block.toFile)[i]? := by rw [map_some_filesOf]
  rw [List.getElem?_map, List.getElem?_map, h] at hi
  cases hfile : (filesOf ls)[i]? with
  | none =>
    rw [hfile] at hi
    exact absurd hi (by simp)
  | some f =>
    rw [hfile] at hi
    exact Option.some.inj hi

/-- The content of hunks has no say in anything but the counts and the text of the file of its own
block. Two diffs that are the same outside their hunks have files with the same outlines, in the same
order; and where a block has the same lines in both, its file is the same. -/
theorem hunks_are_isolated {a b : Text} (h : outsideHunks a = outsideHunks b) :
    (parse a).map ChangedFile.outline = (parse b).map ChangedFile.outline ∧
      ∀ (i : Nat) (g : Text × List Text), (fileGroups (Text.lines a))[i]? = some g →
        (fileGroups (Text.lines b))[i]? = some g → (parse a)[i]? = (parse b)[i]? := by
  constructor
  · rw [parse_eq, parse_eq, ← outline_filesOf (Text.lines a), ← outline_filesOf (Text.lines b)]
    exact congrArg (fun ls => (filesOf ls).map ChangedFile.outline) h
  · intro i g ha hb
    rw [parse_eq, parse_eq, getElem?_filesOf ha, getElem?_filesOf hb]

/-- Content that looks like header lines makes no new, gone or moved file. -/
theorem hunks_are_isolated_headerLike :
    let a : Text := "diff --git a/x b/x\n@@ @@\n-1\ndiff --git a/y b/y\n+2"
    let b : Text :=
      "diff --git a/x b/x\n@@ @@\nnew file\nrename from z\n+++ /dev/null\n+3\ndiff --git a/y b/y\n+2"
    let second : Text × List Text := ("diff --git a/y b/y", ["+2"])
    outsideHunks a = outsideHunks b ∧ (parse a).map (·.additions) = [0, 1] ∧
      (parse b).map (·.additions) = [1, 1] ∧
      (parse a).map ChangedFile.outline = (parse b).map ChangedFile.outline ∧
      (fileGroups (Text.lines a))[1]? = some second ∧
      (fileGroups (Text.lines b))[1]? = some second ∧ (parse a)[1]? = (parse b)[1]? := by
  intro a b second
  have hsame : outsideHunks a = outsideHunks b := by decide +kernel
  have ha : (fileGroups (Text.lines a))[1]? = some second := by decide +kernel
  have hb : (fileGroups (Text.lines b))[1]? = some second := by decide +kernel
  obtain ⟨houtlines, hequal⟩ := hunks_are_isolated hsame
  exact ⟨hsame, by decide +kernel, by decide +kernel, houtlines, ha, hb, hequal 1 second ha hb⟩

end Diff

end ChangeReview
