import ChangeReview.Proofs.Change.GitFormat
import ChangeReview.Proofs.Change.Groups
import ChangeReview.Proofs.Text.Prefix

/-!
# Reading the diffs that git writes

A diff that shows some changes is read as those changes, in order and each once. The opening line
gives both paths, since the first place where it can be cut is the right one; the lines in front of
the first hunk give the status; and behind it every line counts by its first characters alone,
whatever header it looks like.
-/
namespace ChangeReview.Diff

/-! ## The opening line -/

theorem isNewSide_path {new : Text} (hnew : new ≠ []) : isNewSide ("b/" ++ new) = true := by
  have hlength : 0 < new.length := List.length_pos_iff.mpr hnew
  simp [isNewSide, Text.startsWith, hlength]

/-- Behind a space of the old path there is no new side. -/
theorem isNewSide_old {old : Text} (hcut : Text.occurs " b/" (' ' :: old) = false) (new : Text) :
    isNewSide (old ++ (" b/" ++ new)) = false := by
  have hnull : (old ++ (" b/" ++ new) == nullPath) = false := by
    rw [beq_eq_false_iff_ne]
    intro h
    have hspace : ' ' ∈ nullPath := by rw [← h]; simp
    exact absurd hspace (by decide)
  have hstart : Text.startsWith (old ++ (" b/" ++ new)) "b/" = false := by
    rcases old with _ | ⟨a, _ | ⟨b, old⟩⟩
    · rfl
    · simp [Text.startsWith, List.isPrefixOf]
    · simp only [Text.occurs, Bool.or_eq_false_iff] at hcut
      simpa [Text.startsWith, List.isPrefixOf] using hcut.1
  rw [isNewSide, hnull, hstart, Bool.false_and, Bool.or_false]

/-- An old path without ` b/` in it is cut off where it ends. -/
theorem cutSides_append (seen old new : Text) (hcut : Text.occurs " b/" old = false)
    (hseen : seen ++ old ≠ []) (hnew : new ≠ []) :
    cutSides seen (old ++ (" b/" ++ new)) = some (seen.reverse ++ old, "b/" ++ new) := by
  induction old generalizing seen with
  | nil =>
    have hne : seen.isEmpty = false := by simpa using hseen
    show cutSides seen (' ' :: ("b/" ++ new)) = _
    rw [cutSides, isNewSide_path hnew, hne]
    simp
  | cons c old ih =>
    have hrest : Text.occurs " b/" old = false := by
      simp only [Text.occurs, Bool.or_eq_false_iff] at hcut
      exact hcut.2
    have hno : (c == ' ' && !seen.isEmpty && isNewSide (old ++ (" b/" ++ new))) = false := by
      by_cases hc : c = ' '
      · subst hc
        rw [isNewSide_old hcut, Bool.and_false]
      · simp [hc]
    rw [List.cons_append, cutSides, hno, if_neg Bool.false_ne_true, ih (c :: seen) hrest (by simp)]
    simp

/-- The opening line of a change names its two paths. -/
theorem FileChange.sides?_header (c : FileChange) :
    sides? c.header = some (c.old.text, c.new.text) := by
  have hcut := cutSides_append [] c.old.text c.new.text c.oneCut (by simpa using c.old.nonempty)
    c.new.nonempty
  have hnull : ("b/" ++ c.new.text == nullPath) = false := rfl
  have hrest : c.header = "diff --git " ++ ("a/" ++ (c.old.text ++ (" b/" ++ c.new.text))) := by
    unfold header
    simp
  rw [hrest]
  unfold sides?
  simp only [Text.dropPrefix?_append, Text.dropPrefix_append, hcut, hnull, Option.bind_eq_bind,
    Option.bind_some]
  rfl

/-! ## Blocks -/

/-- Blocks whose lines are known are found again. -/
theorem groups_flatMap {α : Type} (header : α → Text) (body : α → List Text) (xs : List α)
    (hheader : ∀ x, isOpening (header x) = true) (hbody : ∀ x, ∀ l ∈ body x, isOpening l = false) :
    groups (xs.flatMap fun x => header x :: body x) = ([], xs.map fun x => (header x, body x)) := by
  induction xs with
  | nil => rfl
  | cons x xs ih =>
    simp only [List.flatMap_cons, List.cons_append, groups, groups_append (hbody x), ih, hheader,
      if_true, List.append_nil, List.map_cons]

/-! ## What each line says -/

namespace BlockState

variable {s : BlockState}

/-- What is known of a block with two paths before its first line. -/
def fresh : BlockState := ⟨false, false, none, false, 0, 0⟩

theorem step_newFile (hs : s.inHunk = false) (mode : Text) :
    s.step ("new file mode " ++ mode) = { s with oldMissing := true } := by
  unfold step
  rw [hs]
  rfl

theorem step_deletedFile (hs : s.inHunk = false) (mode : Text) :
    s.step ("deleted file mode " ++ mode) = { s with newMissing := true } := by
  unfold step
  rw [hs]
  rfl

theorem step_renameFrom (hs : s.inHunk = false) (old : GitPath) :
    s.step ("rename from " ++ old.text) = { s with renamedFrom := some old.text } := by
  have hold : Text.trim (Text.dropPrefix "rename from" ("rename from " ++ old.text)) = old.text := by
    show Text.trim (' ' :: old.text) = old.text
    rw [Text.trim_blank_cons (by decide), old.trimmed]
  unfold step
  rw [hs, hold]
  rfl

theorem step_renameTo (hs : s.inHunk = false) (new : Text) : s.step ("rename to " ++ new) = s := by
  unfold step
  rw [hs]
  rfl

theorem step_headerLine (hs : s.inHunk = false) (l : HeaderLine) : s.step l.line = s := by
  unfold step HeaderLine.line
  rw [hs]
  cases l.label <;> rfl

theorem step_oldSide (hs : s.inHunk = false) (side : Text) :
    s.step ("--- " ++ side) = { s with oldMissing := s.oldMissing || Text.trim side == nullPath } := by
  unfold step
  rw [hs]
  rfl

theorem step_newSide (hs : s.inHunk = false) (side : Text) :
    s.step ("+++ " ++ side) = { s with newMissing := s.newMissing || Text.trim side == nullPath } := by
  unfold step
  rw [hs]
  rfl

/-- The first line of a hunk opens the content, and counts for nothing behind other hunks. -/
theorem step_range (range : Text) : s.step ("@@" ++ range) = { s with inHunk := true } := by
  unfold step
  rcases s with ⟨_, _, _, _ | _, _, _⟩ <;> rfl

/-- A content line counts by its first characters: no line is both added and removed. -/
theorem count_eq (line : Text) :
    s.count line = { s with
      additions := s.additions + (isAddition line).toNat
      deletions := s.deletions + (isDeletion line).toNat } := by
  unfold count isAddition isDeletion
  rcases line with _ | ⟨c, r⟩
  · rfl
  · by_cases hp : c = '+'
    · subst hp
      have hthree : Text.startsWith ('+' :: r) "+++" = Text.startsWith r "++" := rfl
      have hone : Text.startsWith ('+' :: r) "+" = true := rfl
      have hminus : Text.startsWith ('+' :: r) "-" = false := rfl
      have hnone : Text.startsWith ('+' :: r) "---" = false := rfl
      rw [hthree, hone, hminus, hnone]
      cases Text.startsWith r "++" <;> rfl
    · have hone : Text.startsWith (c :: r) "+" = false := Text.startsWith_cons_ne (Ne.symm hp) r []
      have hthree : Text.startsWith (c :: r) "+++" = false :=
        Text.startsWith_cons_ne (Ne.symm hp) r "++"
      rw [hone, hthree]
      cases Text.startsWith (c :: r) "-" <;> cases Text.startsWith (c :: r) "---" <;> rfl

/-- The content of a hunk counts line by line. -/
theorem foldl_content (lines : List Text) (hs : s.inHunk = true) :
    lines.foldl step s = { s with
      additions := s.additions + lines.countP isAddition
      deletions := s.deletions + lines.countP isDeletion } := by
  induction lines generalizing s with
  | nil => rfl
  | cons l lines ih =>
    have hl : s.step l = s.count l := by rw [step, hs, if_pos rfl]
    rw [List.foldl_cons, hl, count_eq, ih (by exact hs), List.countP_cons, List.countP_cons]
    rcases isAddition l <;> rcases isDeletion l <;> simp <;> omega

theorem foldl_hunk (h : Hunk) :
    h.lines.foldl step s = { s with
      inHunk := true
      additions := s.additions + (h.content.map ContentLine.line).countP isAddition
      deletions := s.deletions + (h.content.map ContentLine.line).countP isDeletion } := by
  rw [Hunk.lines, List.foldl_cons, step_range, foldl_content _ rfl]

/-- Hunks in a row count like their contents in a row. -/
theorem foldl_hunks (hunks : List Hunk) :
    let content := hunks.flatMap fun h => h.content.map ContentLine.line
    (hunks.flatMap Hunk.lines).foldl step s = { s with
      inHunk := s.inHunk || !hunks.isEmpty
      additions := s.additions + content.countP isAddition
      deletions := s.deletions + content.countP isDeletion } := by
  induction hunks generalizing s with
  | nil => simp
  | cons h hunks ih =>
    simp only [List.flatMap_cons, List.foldl_append, foldl_hunk, ih, List.countP_append]
    simp [Nat.add_assoc]

end BlockState

/-! ## One change -/

namespace FileChange

open BlockState

variable (c : FileChange)

/-- What the header lines of a change say. -/
def known : BlockState where
  oldMissing := c.action.status = .added
  newMissing := c.action.status = .deleted
  renamedFrom := if c.action.status = .renamed then some c.old.text else none

theorem foldl_headerLines {s : BlockState} (hs : s.inHunk = false) (ls : List HeaderLine) :
    (ls.map HeaderLine.line).foldl step s = s := by
  induction ls with
  | nil => rfl
  | cons l ls ih => rw [List.map_cons, List.foldl_cons, step_headerLine hs, ih]

theorem foldl_actionLines : (c.action.lines c.old).foldl step fresh = c.known := by
  unfold known Action.lines
  rcases c.action with mode | mode | _ | new
  · exact step_newFile (s := fresh) rfl mode.val
  · exact step_deletedFile (s := fresh) rfl mode.val
  · rfl
  · simp only [List.foldl_cons, List.foldl_nil]
    rw [step_renameFrom rfl, step_renameTo rfl]
    rfl

/-- A path on a side line is not the null path: the letter in front of it stays. -/
theorem sidePath_ne_null {d : Char} (hd : Text.isBlank d = false) (hslash : d ≠ '/') (path : Text) :
    (Text.trim (sidePath (d :: path)) == nullPath) = false := by
  have hfirst : ∃ rest, sidePath (d :: path) = d :: rest := by
    unfold sidePath
    split
    · exact ⟨path ++ ['\t'], rfl⟩
    · exact ⟨path, rfl⟩
  obtain ⟨rest, hrest⟩ := hfirst
  rw [hrest, Text.trim_cons hd, beq_eq_false_iff_ne]
  intro h
  exact hslash (List.cons.inj h).1

theorem oldSide_null : (Text.trim c.oldSide == nullPath) = c.known.oldMissing := by
  have hpath := sidePath_ne_null (d := 'a') (by decide) (by decide) ('/' :: c.old.text)
  unfold oldSide known
  rcases c.action with mode | mode | _ | new
  · rfl
  · exact hpath
  · exact hpath
  · exact hpath

theorem newSide_null : (Text.trim c.newSide == nullPath) = c.known.newMissing := by
  have hpath := sidePath_ne_null (d := 'b') (by decide) (by decide) ('/' :: c.new.text)
  unfold newSide known
  rcases c.action with mode | mode | _ | new
  · exact hpath
  · rfl
  · exact hpath
  · exact hpath

/-- The side lines say what the action line has said. -/
theorem foldl_sideLines : c.sideLines.foldl step c.known = c.known := by
  unfold sideLines
  split
  · simp only [List.foldl_cons, List.foldl_nil]
    rw [step_oldSide rfl, oldSide_null, Bool.or_self]
    rw [step_newSide rfl, newSide_null, Bool.or_self]
  · rfl

theorem foldl_metadata : c.metadata.foldl step fresh = c.known := by
  simp only [metadata, List.foldl_append]
  rw [foldl_headerLines (s := fresh) rfl, foldl_actionLines,
    foldl_headerLines (s := c.known) rfl, foldl_sideLines]

/-- The block that the lines of a change make. -/
def block (c : FileChange) : Block := ⟨c.old.text, c.new.text, c.header, c.body⟩

theorem block?_lines : block? (c.header, c.body) = some c.block := by
  rw [block?, sides?_header]
  rfl

theorem ne_nullPath (p : GitPath) : (p.text == nullPath) = false := by
  rw [beq_eq_false_iff_ne]
  intro h
  exact p.relative (by rw [h]; rfl)

theorem block_state : c.block.state = { c.known with
    inHunk := !c.hunks.isEmpty
    additions := c.content.countP isAddition
    deletions := c.content.countP isDeletion } := by
  have hstart : (⟨c.old.text == nullPath, c.new.text == nullPath, none, false, 0, 0⟩ : BlockState) =
      fresh := by
    rw [ne_nullPath, ne_nullPath]
    rfl
  rw [Block.state, block]
  dsimp only
  rw [hstart, body, List.foldl_append, foldl_metadata, foldl_hunks]
  simp [known, content]

/-- The block of a change is read as the change. -/
theorem toFile_block : c.block.toFile = c.toChangedFile := by
  unfold Block.toFile toChangedFile
  rw [block_state]
  rcases c with ⟨old, mode | mode | _ | new, before, after, sided, hunks, oneCut⟩
  · simp [known, block, path, new, Action.status, Block.statusOf, lines]
  · simp [known, block, path, Action.status, Block.statusOf, lines]
  · simp [known, block, path, new, Action.status, Block.statusOf, lines]
  · rfl

/-! ## The lines of a change -/

/-- The text can stand behind an opening line, on a line of its own. -/
def IsBodyLine (l : Text) : Prop := isOpening l = false ∧ l.OneLine ∧ l ≠ []

theorem isBodyLine_headerLine (l : HeaderLine) : IsBodyLine l.line := by
  rcases l with ⟨label, rest⟩
  have hlabel : label.text.OneLine := by cases label <;> decide
  refine ⟨by cases label <;> rfl, Text.oneLine_append.mpr ⟨hlabel, rest.2⟩, ?_⟩
  cases label <;> exact List.cons_ne_nil _ _

theorem isBodyLine_actionLine (old : GitPath) (action : Action) {l : Text}
    (hl : l ∈ action.lines old) : IsBodyLine l := by
  rcases action with mode | mode | _ | new
  · obtain rfl := List.mem_singleton.mp hl
    exact ⟨rfl, Text.oneLine_append.mpr ⟨by decide, mode.2⟩, List.cons_ne_nil _ _⟩
  · obtain rfl := List.mem_singleton.mp hl
    exact ⟨rfl, Text.oneLine_append.mpr ⟨by decide, mode.2⟩, List.cons_ne_nil _ _⟩
  · exact absurd hl List.not_mem_nil
  · rcases List.mem_cons.mp hl with rfl | hl
    · exact ⟨rfl, Text.oneLine_append.mpr ⟨by decide, old.oneLine⟩, List.cons_ne_nil _ _⟩
    · obtain rfl := List.mem_singleton.mp hl
      exact ⟨rfl, Text.oneLine_append.mpr ⟨by decide, new.oneLine⟩, List.cons_ne_nil _ _⟩

theorem oneLine_sidePath {prefixed : Text} (h : prefixed.OneLine) : (sidePath prefixed).OneLine := by
  unfold sidePath
  split
  · exact Text.oneLine_append.mpr ⟨h, by decide⟩
  · exact h

theorem oneLine_oldSide : c.oldSide.OneLine := by
  have hpath := oneLine_sidePath (Text.oneLine_append.mpr ⟨by decide, c.old.oneLine⟩ :
    Text.OneLine ("a/" ++ c.old.text))
  unfold oldSide
  split
  · decide
  · exact hpath

theorem oneLine_newSide : c.newSide.OneLine := by
  have hpath := oneLine_sidePath (Text.oneLine_append.mpr ⟨by decide, c.new.oneLine⟩ :
    Text.OneLine ("b/" ++ c.new.text))
  unfold newSide
  split
  · decide
  · exact hpath

theorem isBodyLine_sideLine {l : Text} (hl : l ∈ c.sideLines) : IsBodyLine l := by
  unfold sideLines at hl
  split at hl
  · rcases List.mem_cons.mp hl with rfl | hl
    · exact ⟨rfl, Text.oneLine_append.mpr ⟨by decide, c.oneLine_oldSide⟩, List.cons_ne_nil _ _⟩
    · obtain rfl := List.mem_singleton.mp hl
      exact ⟨rfl, Text.oneLine_append.mpr ⟨by decide, c.oneLine_newSide⟩, List.cons_ne_nil _ _⟩
  · exact absurd hl List.not_mem_nil

theorem isBodyLine_hunkLine {h : Hunk} {l : Text} (hl : l ∈ h.lines) : IsBodyLine l := by
  rcases List.mem_cons.mp hl with rfl | hl
  · exact ⟨rfl, Text.oneLine_append.mpr ⟨by decide, h.range.2⟩, List.cons_ne_nil _ _⟩
  · obtain ⟨⟨mark, rest⟩, -, rfl⟩ := List.mem_map.mp hl
    refine ⟨by cases mark <;> rfl, Text.oneLine_cons.mpr ⟨?_, rest.2⟩, List.cons_ne_nil _ _⟩
    cases mark <;> rfl

theorem isBodyLine_body {l : Text} (hl : l ∈ c.body) : IsBodyLine l := by
  simp only [body, metadata, List.mem_append, List.mem_map, List.mem_flatMap] at hl
  rcases hl with (((⟨h, -, rfl⟩ | hl) | ⟨h, -, rfl⟩) | hl) | ⟨h, -, hl⟩
  · exact isBodyLine_headerLine h
  · exact isBodyLine_actionLine c.old c.action hl
  · exact isBodyLine_headerLine h
  · exact c.isBodyLine_sideLine hl
  · exact isBodyLine_hunkLine hl

theorem oneLine_header : c.header.OneLine := by
  unfold header
  simp only [Text.oneLine_append]
  exact ⟨⟨⟨by decide, c.old.oneLine⟩, by decide⟩, c.new.oneLine⟩

theorem lines_readable {l : Text} (hl : l ∈ c.lines) : l.OneLine ∧ l ≠ [] := by
  rcases List.mem_cons.mp hl with rfl | hl
  · exact ⟨c.oneLine_header, List.cons_ne_nil _ _⟩
  · exact (c.isBodyLine_body hl).2

end FileChange

/-- The diff that git writes for some changes is read as these changes. -/
theorem parse_render (changes : List FileChange) :
    parse (render changes) = changes.map FileChange.toChangedFile := by
  have hlines : Text.lines (render changes) = changes.flatMap FileChange.lines := by
    refine Text.lines_join fun l hl => ?_
    obtain ⟨c, -, hc⟩ := List.mem_flatMap.mp hl
    exact c.lines_readable hc
  have hgroups : groups (changes.flatMap FileChange.lines) =
      ([], changes.map fun c => (c.header, c.body)) :=
    groups_flatMap FileChange.header FileChange.body changes (fun c => rfl)
      fun c l hl => (c.isBodyLine_body hl).1
  have hblocks : blocks (render changes) = changes.map FileChange.block := by
    rw [blocks, hlines, hgroups, List.filterMap_map]
    rw [← List.filterMap_eq_map]
    congr 1
    funext c
    exact c.block?_lines
  rw [parse, hblocks, List.map_map]
  exact List.map_congr_left fun c _ => c.toFile_block

end ChangeReview.Diff
