import ChangeReview.Proofs.Change.Independence
import ChangeReview.Proofs.Change.RoundTrip
import ChangeReview.Proofs.Text.Occurrences
import Mathlib.Tactic.ByContra
import Mathlib.Tactic.SplitIfs

/-!
# Blocks of one path

The opening line of a file that keeps its path names it twice, with nothing to tell where the first
name ends. It is cut at the first place where a new side can begin: that is the end of the first name
just where no ` b/` stands behind the first character of the path. Otherwise the file goes by a path
that is too long, or by one that is too short.
-/
namespace ChangeReview.Diff

/-- The opening line of a change that keeps its path. -/
def sameNameHeader (p : Text) : Text := "diff --git a/" ++ p ++ " b/" ++ p

/-! ## The cut -/

/-- A place where an opening line can be cut is not passed by. -/
theorem exists_cutSides {seen front : Text} (hseen : seen ++ front ≠ []) {rest : Text}
    (hrest : isNewSide rest = true) :
    ∃ old new, cutSides seen (front ++ ' ' :: rest) = some (old, new) ∧
      old.length ≤ seen.length + front.length ∧
      old.length + new.length = seen.length + front.length + rest.length := by
  induction front generalizing seen with
  | nil =>
    have hne : seen.isEmpty = false := by simpa using hseen
    exact ⟨seen.reverse, rest, by simp [cutSides, hne, hrest], by simp, by simp⟩
  | cons c front ih =>
    rw [List.cons_append, cutSides]
    split_ifs with hcut
    · exact ⟨_, _, rfl, by simp, by simp; omega⟩
    · have hnext : c :: seen ++ front ≠ [] := List.cons_ne_nil _ _
      obtain ⟨old, new, hnames, hfront, hlength⟩ := ih hnext
      simp only [List.length_cons] at hfront hlength ⊢
      exact ⟨old, new, hnames, by omega, by omega⟩

theorem sides?_sameNameHeader (p : Text) :
    sides? (sameNameHeader p) = (cutSides [] (p ++ (" b/" ++ p))).map fun s =>
      (s.1, if s.2 == nullPath then s.2 else Text.dropPrefix "b/" s.2) := by
  have hrest : sameNameHeader p = "diff --git " ++ ("a/" ++ (p ++ (" b/" ++ p))) := by
    unfold sameNameHeader
    simp
  rw [hrest, sides?]
  simp only [Text.dropPrefix?_append, Option.bind_eq_bind, Option.bind_some]
  cases cutSides [] (p ++ (" b/" ++ p)) <;> rfl

section Names

variable {p : Text}

/-- Without a new side inside it, a path is read twice. -/
theorem sides?_of_cuttable (hne : p ≠ []) (hcut : Text.occurs " b/" p.tail = false) :
    sides? (sameNameHeader p) = some (p, p) := by
  obtain ⟨c, p, rfl⟩ := List.exists_cons_of_ne_nil hne
  have hfirst : cutSides [] (c :: p ++ (" b/" ++ c :: p)) =
      cutSides [c] (p ++ (" b/" ++ c :: p)) := by
    rw [List.cons_append, cutSides]
    simp
  have hnull : ("b/" ++ c :: p == nullPath) = false := rfl
  rw [sides?_sameNameHeader, hfirst, cutSides_append [c] p (c :: p) hcut (by simp) hne,
    Option.map_some, hnull, if_neg Bool.false_ne_true, Text.dropPrefix_append]
  rfl

theorem length_le_dropPrefix (q t : Text) : t.length ≤ (Text.dropPrefix q t).length + q.length := by
  rw [Text.dropPrefix]
  cases h : Text.dropPrefix? q t with
  | none => simp
  | some rest => simp [Text.eq_append_of_dropPrefix? h, Nat.add_comm]

/-- With a new side inside it, the path is cut too early. -/
theorem exists_sides?_of_not_cuttable (hcut : Text.occurs " b/" p.tail = true) :
    ∃ old new, sides? (sameNameHeader p) = some (old, new) ∧
      old.length < p.length ∧ p.length < new.length := by
  obtain ⟨front, back, htail⟩ := Text.occurs_iff.mp hcut
  obtain ⟨c, q, rfl⟩ := List.exists_cons_of_ne_nil (show p ≠ [] by rintro rfl; simp at htail)
  obtain rfl : front ++ " b/" ++ back = q := htail
  have hside : isNewSide ("b/" ++ (back ++ (" b/" ++ c :: (front ++ " b/" ++ back)))) = true :=
    isNewSide_path (by simp)
  have hsome : [] ++ c :: front ≠ [] := List.cons_ne_nil _ _
  obtain ⟨old, new, hnames, hfront, hlength⟩ := exists_cutSides hsome hside
  have htext : c :: (front ++ " b/" ++ back) ++ (" b/" ++ c :: (front ++ " b/" ++ back)) =
      c :: front ++ ' ' :: ("b/" ++ (back ++ (" b/" ++ c :: (front ++ " b/" ++ back)))) := by
    simp
  rw [sides?_sameNameHeader, htext, hnames]
  refine ⟨_, _, rfl, ?_, ?_⟩
  · simp at hfront ⊢
    omega
  · have hdrop := length_le_dropPrefix "b/" new
    simp at hfront hlength hdrop ⊢
    split_ifs <;> omega

/-- The opening line always names two sides: the path on both, or a part of it and more than it. -/
theorem exists_sides?_sameNameHeader (hne : p ≠ []) :
    ∃ old new, sides? (sameNameHeader p) = some (old, new) ∧
      (Text.occurs " b/" p.tail = false ∧ old = p ∧ new = p ∨
        Text.occurs " b/" p.tail = true ∧ old.length < p.length ∧ p.length < new.length) := by
  cases hcut : Text.occurs " b/" p.tail with
  | false => exact ⟨p, p, sides?_of_cuttable hne hcut, .inl ⟨rfl, rfl, rfl⟩⟩
  | true =>
    obtain ⟨old, new, hsides, hold, hnew⟩ := exists_sides?_of_not_cuttable hcut
    exact ⟨old, new, hsides, .inr ⟨rfl, hold, hnew⟩⟩

theorem oneLine_sameNameHeader (hone : p.OneLine) : (sameNameHeader p).OneLine := by
  unfold sameNameHeader
  simp only [Text.oneLine_append]
  exact ⟨⟨⟨by decide, hone⟩, by decide⟩, hone⟩

end Names

/-! ## The file of a block -/

namespace BlockState

variable {s : BlockState}

/-- No line but one that says so changes where the file was renamed from. -/
theorem renamedFrom_step {l : Text} (h : Text.startsWith l "rename from" = false) :
    (s.step l).renamedFrom = s.renamedFrom := by
  have hno : Text.startsWith l "rename from" ≠ true := Bool.eq_false_iff.mp h
  unfold step
  rw [count_eq]
  split_ifs <;> rfl

theorem renamedFrom_foldl {ls : List Text}
    (h : ∀ l ∈ ls, Text.startsWith l "rename from" = false) :
    (ls.foldl step s).renamedFrom = s.renamedFrom := by
  induction ls generalizing s with
  | nil => rfl
  | cons l ls ih =>
    obtain ⟨hl, hls⟩ := List.forall_mem_cons.mp h
    rw [List.foldl_cons, ih hls, renamedFrom_step hl]

end BlockState

namespace Block

variable {b : Block}

theorem path_toFile (b : Block) : b.toFile.path = b.oldPath ∨ b.toFile.path = b.newPath := by
  unfold toFile
  dsimp only
  split_ifs <;> simp

theorem oldPath_toFile (hstatus : b.toFile.status ≠ .renamed) (hpath : b.oldPath = b.toFile.path) :
    b.toFile.oldPath = none := by
  have hold : b.toFile.oldPath =
      if b.toFile.status = .renamed then b.state.renamedFrom
      else if b.oldPath != b.toFile.path && !b.state.oldMissing then some b.oldPath else none := rfl
  rw [hold, if_neg hstatus, if_neg (by simp [hpath])]

/-- Only a line that says so renames a file. -/
theorem exists_of_renamed (h : b.toFile.status = .renamed) :
    ∃ l ∈ b.body, Text.startsWith l "rename from" = true := by
  by_contra hnone
  have hlines : ∀ l ∈ b.body, Text.startsWith l "rename from" = false := fun l hl =>
    Bool.eq_false_iff.mpr fun hrename => hnone ⟨l, hl, hrename⟩
  have hstate : b.state.renamedFrom = none := BlockState.renamedFrom_foldl hlines
  have hstatus : b.toFile.status = statusOf b.state := rfl
  rw [hstatus, statusOf, hstate] at h
  split_ifs at h with hold hnew hname
  exact Bool.false_ne_true hname

end Block

/-- The lines of a block are read as the block, wherever they stand in a diff. -/
theorem parse_block {b : Block} (h : b.IsRead) {front rest : Text}
    (hfront : front = [] ∨ Text.endsWith front "\n" = true)
    (hrest : rest = [] ∨ isOpening rest = true) :
    parse (front ++ (Text.unlines b.lines ++ rest)) = parse front ++ b.toFile :: parse rest := by
  have hopening : isOpening (Text.unlines b.lines ++ rest) = true := by
    have hheader : b.header <+: Text.unlines b.lines ++ rest := by
      simp [Block.lines, Text.unlines]
    exact List.isPrefixOf_iff_prefix.mpr ((List.isPrefixOf_iff_prefix.mp h.heads).trans hheader)
  have hblock : parse (Text.unlines b.lines ++ rest) = b.toFile :: parse rest := by
    rw [parse_eq, Text.lines_unlines_append h.oneLine]
    rcases hrest with rfl | hrest
    · rw [Text.lines, List.append_nil, h.filesOf_lines]
      rfl
    · obtain ⟨l, more, hlines, hl⟩ := exists_lines_opening hrest
      rw [hlines, filesOf_append_opening hl, h.filesOf_lines, ← hlines]
      rfl
  rw [parse_append hfront hopening, hblock]

/-- A block whose opening line names one path twice is read as one file, wherever it stands; only a
rename line in it renames the file; and if it is not renamed, it has this path and no other before
just where no new side stands behind the first character of the path. -/
theorem sameName_iff {p : Text} (hne : p ≠ []) (hone : p.OneLine) {body : List Text}
    (hbody : ∀ l ∈ body, l.OneLine ∧ isOpening l = false) :
    ∃ f : ChangedFile,
      (∀ front rest : Text, (front = [] ∨ Text.endsWith front "\n" = true) →
        (rest = [] ∨ isOpening rest = true) →
          parse (front ++ (Text.unlines (sameNameHeader p :: body) ++ rest)) =
            parse front ++ f :: parse rest) ∧
      (f.status = .renamed → ∃ l ∈ body, Text.startsWith l "rename from" = true) ∧
      (f.status ≠ .renamed →
        (f.path = p ∧ f.oldPath = none ↔ Text.occurs " b/" p.tail = false)) := by
  obtain ⟨old, new, hsides, hnames⟩ := exists_sides?_sameNameHeader hne
  have hread : (Block.mk old new (sameNameHeader p) body).IsRead := by
    refine ⟨by rw [block?, hsides]; rfl, rfl, fun l hl => (hbody l hl).2, ?_⟩
    exact List.forall_mem_cons.mpr ⟨oneLine_sameNameHeader hone, fun l hl => (hbody l hl).1⟩
  refine ⟨_, fun front rest => parse_block hread, Block.exists_of_renamed, fun hstatus => ?_⟩
  have hpath := (Block.mk old new (sameNameHeader p) body).path_toFile
  rcases hnames with ⟨hcut, rfl, rfl⟩ | ⟨hcut, hold, hnew⟩
  · have hpath := hpath.elim id id
    exact iff_of_true ⟨hpath, Block.oldPath_toFile hstatus hpath.symm⟩ hcut
  · refine iff_of_false (fun h => ?_) (by rw [hcut]; decide)
    have hlength : p.length = old.length ∨ p.length = new.length :=
      hpath.imp (fun hp => congrArg List.length (h.1.symm.trans hp))
        fun hp => congrArg List.length (h.1.symm.trans hp)
    omega

/-- A deleted file whose path is full of what could end it. -/
theorem sameName_iff_trap :
    let p : Text := "a/ b b /dev/null"
    let body : List Text := ["deleted file mode 100644", "--- a/a/ b b /dev/null", "+++ /dev/null"]
    p ≠ [] ∧ p.OneLine ∧ (∀ l ∈ body, l.OneLine ∧ isOpening l = false) ∧
      ∃ f : ChangedFile, parse ([] ++ (Text.unlines (sameNameHeader p :: body) ++ [])) = [f] ∧
        f.status ≠ .renamed ∧ f.path = p ∧ f.oldPath = none := by
  intro p body
  have hne : p ≠ [] := by decide
  have hone : p.OneLine := by decide
  have hbody : ∀ l ∈ body, l.OneLine ∧ isOpening l = false := by decide
  obtain ⟨f, hparse, hrename, hnames⟩ := sameName_iff hne hone hbody
  have hstatus : f.status ≠ .renamed := fun h => absurd (hrename h) (by decide)
  exact ⟨hne, hone, hbody, f, hparse [] [] (.inl rfl) (.inl rfl), hstatus,
    (hnames hstatus).mpr (by decide)⟩

/-- A folder whose name ends in ` b` cuts the path short. -/
theorem sameName_misread :
    ¬ ∀ (p : Text) (body : List Text), p ≠ [] → p.head? ≠ some '/' → p.OneLine →
      (∀ l ∈ body, l.OneLine ∧ isOpening l = false ∧ Text.startsWith l "rename from" = false) →
        (parse (Text.unlines (sameNameHeader p :: body))).map (fun f => (f.path, f.oldPath)) =
          [(p, none)] := by
  intro h
  have hmisread := h "src b/main.py" ["index 1a2b3c4..5d6e7f8 100644", "--- a/src b/main.py\t",
    "+++ b/src b/main.py\t", "@@ -1 +1 @@", "-x = 1", "+x = 2"] (by decide) (by decide) (by decide)
    (by decide)
  exact absurd hmisread (by decide)

end ChangeReview.Diff
