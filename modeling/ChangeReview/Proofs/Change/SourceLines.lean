import ChangeReview.Proofs.Change.Independence

/-!
# Lines of a diff and lines of its reader

A diff is a sequence of lines that end in line feeds, but its reader breaks them at every boundary
that Unicode names. What it takes for records are the records of the diff as long as no line is
broken in front of a header of its own: content can hold such a break, and then it opens a file.
-/
namespace ChangeReview.Diff

/-- The lines that the reader makes of one line of a diff. -/
def parts (l : Text) : List Text := Text.lines (l ++ ['\n'])

/-- The line opens a block and names its two sides. -/
def opensFile (l : Text) : Bool := isOpening l && (sides? l).isSome

theorem isOpening_of_opensFile {l : Text} (h : opensFile l = true) : isOpening l = true :=
  (Bool.and_eq_true_iff.mp h).1

/-- The groups that make a file. -/
def fileGroups (ls : List Text) : List (Text × List Text) :=
  (groups ls).2.filter fun g => opensFile g.1

/-- The reader of the lines finds a file for every header line and no other, in order, and each has
the lines from its header line up to the next opening line. -/
def KeepsRecords (ls : List Text) : Prop :=
  (parse (Text.unlines ls)).map ChangedFile.diff =
    (fileGroups ls).map fun g => Text.join "\n" ((g.1 :: g.2).flatMap parts)

/-- The parts of the line do what the line does. The first part of a header line is a header, and no
other part opens a block; no part of an opening line without sides is a header; and no part of any
other line opens a block. -/
def IsInert (l : Text) : Prop :=
  if opensFile l then
    ∃ part more, parts l = part :: more ∧ opensFile part = true ∧ ∀ p ∈ more, isOpening p = false
  else if isOpening l then ∀ part ∈ parts l, opensFile part = false
  else ∀ part ∈ parts l, isOpening part = false

/-! ## Files and their groups -/

theorem fileGroups_cons (l : Text) (ls : List Text) :
    fileGroups (l :: ls) =
      if opensFile l then (l, (groups ls).1) :: fileGroups ls else fileGroups ls := by
  unfold fileGroups
  cases hl : isOpening l with
  | true => rw [groups_opening hl, List.filter_cons]
  | false =>
    have hfile : opensFile l = false := by rw [opensFile, hl, Bool.false_and]
    rw [groups_line hl, hfile]
    rfl

theorem fileGroups_append {front : List Text} (h : ∀ l ∈ front, opensFile l = false)
    (rest : List Text) : fileGroups (front ++ rest) = fileGroups rest := by
  induction front with
  | nil => rfl
  | cons l front ih =>
    rw [List.cons_append, fileGroups_cons, h l List.mem_cons_self, if_neg Bool.false_ne_true,
      ih fun k hk => h k (List.mem_cons_of_mem l hk)]

theorem opensFile_of_mem_fileGroups {ls : List Text} {g : Text × List Text}
    (h : g ∈ fileGroups ls) : opensFile g.1 = true :=
  (List.mem_filter.mp h).2

/-- A line that names two sides makes a file wherever it stands. -/
theorem exists_fileGroups {ls : List Text} {l : Text} (hl : l ∈ ls) (hfile : opensFile l = true) :
    ∃ g ∈ fileGroups ls, g.1 = l := by
  have hhead : l ∈ (groups ls).2.map Prod.fst := by
    rw [map_fst_groups]
    exact List.mem_filter.mpr ⟨hl, isOpening_of_opensFile hfile⟩
  obtain ⟨g, hg, rfl⟩ := List.mem_map.mp hhead
  exact ⟨g, List.mem_filter.mpr ⟨hg, hfile⟩, rfl⟩

/-- There is a file for every line that names two sides. -/
theorem length_fileGroups (ls : List Text) : (fileGroups ls).length = ls.countP opensFile := by
  induction ls with
  | nil => rfl
  | cons l ls ih =>
    rw [fileGroups_cons, List.countP_cons, ← ih]
    cases opensFile l <;> simp

/-- Each block that makes a file makes it of its own lines. -/
theorem map_some_filesOf (ls : List Text) :
    (filesOf ls).map some = (fileGroups ls).map fun g => (block? g).map Block.toFile := by
  have hheads : ∀ g ∈ (groups ls).2, isOpening g.1 = true := fun g hg =>
    ((groups_spec ls).2.2 g hg).1
  unfold filesOf fileGroups
  generalize (groups ls).2 = gs at hheads ⊢
  induction gs with
  | nil => rfl
  | cons g gs ih =>
    have hrest := ih fun k hk => hheads k (List.mem_cons_of_mem g hk)
    have hfile : opensFile g.1 = (block? g).isSome := by
      rw [opensFile, hheads g List.mem_cons_self, Bool.true_and, block?, Option.isSome_map]
    rw [List.filter_cons, hfile, List.filterMap_cons]
    cases hblock : block? g with
    | none => exact hrest
    | some b =>
      rw [Option.isSome_some, if_pos rfl, List.map_cons, List.map_cons, List.map_cons, hrest, hblock]
      rfl

/-- The files of some lines have the texts of the groups. -/
theorem map_diff_filesOf (ls : List Text) :
    (filesOf ls).map ChangedFile.diff = (fileGroups ls).map fun g => Text.join "\n" (g.1 :: g.2) := by
  have hread : ∀ g ∈ fileGroups ls, ((block? g).map Block.toFile).map ChangedFile.diff =
      some (Text.join "\n" (g.1 :: g.2)) := by
    intro g hg
    obtain ⟨sides, hsides⟩ := Option.isSome_iff_exists.mp
      (Bool.and_eq_true_iff.mp (opensFile_of_mem_fileGroups hg)).2
    rw [block?, hsides]
    rfl
  have hsome := congrArg (List.map (Option.map ChangedFile.diff)) (map_some_filesOf ls)
  rw [List.map_map, List.map_map] at hsome
  refine (List.map_inj_right fun x y h => Option.some.inj h).mp ?_
  rw [List.map_map, List.map_map]
  exact hsome.trans (List.map_congr_left hread)

/-- The reader sees every line of a text in its parts. -/
theorem lines_unlines (ls : List Text) : Text.lines (Text.unlines ls) = ls.flatMap parts := by
  induction ls with
  | nil => rfl
  | cons l ls ih =>
    have hcons : Text.unlines (l :: ls) = l ++ '\n' :: Text.unlines ls := by simp [Text.unlines]
    rw [hcons, Text.lines_append_break, ih, List.flatMap_cons]
    rfl

theorem keepsRecords_iff_fileGroups (ls : List Text) :
    KeepsRecords ls ↔ (fileGroups (ls.flatMap parts)).map (fun g => Text.join "\n" (g.1 :: g.2)) =
      (fileGroups ls).map fun g => Text.join "\n" ((g.1 :: g.2).flatMap parts) := by
  rw [KeepsRecords, parse_eq, lines_unlines, map_diff_filesOf]

/-! ## Lines that do no harm -/

theorem oneLine_of_mem_parts {l part : Text} (h : part ∈ parts l) : part.OneLine :=
  Text.oneLine_of_mem_lines h

theorem parts_of_oneLine {l : Text} (h : l.OneLine) : parts l = [l] :=
  Text.lines_append_newline h []

/-- An opening line opens a block at its first part. -/
theorem exists_parts_opening {l : Text} (h : isOpening l = true) :
    ∃ part more, parts l = part :: more ∧ isOpening part = true := by
  obtain ⟨rest, rfl⟩ := List.isPrefixOf_iff_prefix.mp h
  refine exists_lines_opening (t := opening ++ rest ++ ['\n']) ?_
  rw [List.append_assoc]
  exact Text.startsWith_append opening _

theorem isInert_of_oneLine {l : Text} (h : l.OneLine) : IsInert l := by
  unfold IsInert
  rw [parts_of_oneLine h]
  split
  · next hfile => exact ⟨l, [], rfl, hfile, fun p hp => absurd hp List.not_mem_nil⟩
  · next hfile =>
    split
    · intro part hpart
      rw [List.mem_singleton.mp hpart]
      simpa using hfile
    · next hopening =>
      intro part hpart
      rw [List.mem_singleton.mp hpart]
      simpa using hopening

/-- The parts of harmless lines fall into the groups of the lines. -/
theorem groups_flatMap_parts {ls : List Text} (h : ∀ l ∈ ls, IsInert l) :
    (groups (ls.flatMap parts)).1 = (groups ls).1.flatMap parts ∧
      (fileGroups (ls.flatMap parts)).map (fun g => g.1 :: g.2) =
        (fileGroups ls).map fun g => (g.1 :: g.2).flatMap parts := by
  induction ls with
  | nil => exact ⟨rfl, rfl⟩
  | cons l ls ih =>
    obtain ⟨hfront, hgroups⟩ := ih fun k hk => h k (List.mem_cons_of_mem l hk)
    have hl : IsInert l := h l List.mem_cons_self
    unfold IsInert at hl
    rw [List.flatMap_cons, fileGroups_cons]
    by_cases hfile : opensFile l = true
    · rw [if_pos hfile] at hl ⊢
      obtain ⟨part, more, hparts, hpart, hmore⟩ := hl
      have hquiet : ∀ p ∈ more, opensFile p = false := fun p hp => by
        rw [opensFile, hmore p hp, Bool.false_and]
      rw [hparts, List.cons_append, groups_opening (isOpening_of_opensFile hpart),
        groups_opening (isOpening_of_opensFile hfile), fileGroups_cons, if_pos hpart,
        groups_append hmore, fileGroups_append hquiet, hfront]
      refine ⟨rfl, ?_⟩
      rw [List.map_cons, List.map_cons, hgroups, List.flatMap_cons, hparts, List.cons_append]
    · rw [if_neg hfile] at hl ⊢
      by_cases hopening : isOpening l = true
      · rw [if_pos hopening] at hl
        obtain ⟨part, more, hparts, hpart⟩ := exists_parts_opening hopening
        rw [fileGroups_append hl, hparts, List.cons_append, groups_opening hpart,
          groups_opening hopening]
        exact ⟨rfl, hgroups⟩
      · rw [if_neg hopening] at hl
        have hquiet : ∀ p ∈ parts l, opensFile p = false := fun p hp => by
          rw [opensFile, hl p hp, Bool.false_and]
        rw [groups_append hl, fileGroups_append hquiet, groups_line (by simpa using hopening),
          hfront]
        exact ⟨rfl, hgroups⟩

theorem keepsRecords_of_isInert {ls : List Text} (h : ∀ l ∈ ls, IsInert l) : KeepsRecords ls := by
  have hgroups := congrArg (List.map (Text.join "\n")) (groups_flatMap_parts h).2
  rw [List.map_map, List.map_map] at hgroups
  exact (keepsRecords_iff_fileGroups ls).mpr hgroups

/-! ## Lines that forge -/

/-- Lines are known from their text. -/
theorem eq_of_join_eq {l : Text} {as bs : List Text} (ha : ∀ k ∈ l :: as, k.OneLine)
    (hb : ∀ k ∈ bs, k.OneLine) (hne : bs ≠ []) (h : Text.join "\n" (l :: as) = Text.join "\n" bs) :
    l :: as = bs := by
  have hbreak : ∀ k : Text, k.OneLine → '\n' ∉ k := fun k hk hmem =>
    absurd (hk '\n' hmem) (by decide)
  rw [← Text.splitOn_join (List.cons_ne_nil l as) fun k hk => hbreak k (ha k hk), h,
    Text.splitOn_join hne fun k hk => hbreak k (hb k hk)]

section Forged

variable {l : Text}

/-- The parts of a line that opens nothing stay with the block in front of it. -/
theorem isInert_of_front {header : Text} (hone : header.OneLine) (hopening : isOpening l = false)
    (h : Text.join "\n" (header :: (groups (parts l)).1) = Text.join "\n" (header :: parts l)) :
    IsInert l := by
  have hlines : ∀ k ∈ header :: parts l, k.OneLine :=
    List.forall_mem_cons.mpr ⟨hone, fun k hk => oneLine_of_mem_parts hk⟩
  have hfront : ∀ k ∈ header :: (groups (parts l)).1, k.OneLine :=
    List.forall_mem_cons.mpr ⟨hone, fun k hk => oneLine_of_mem_parts (mem_of_mem_front hk)⟩
  have heq := (List.cons.inj (eq_of_join_eq hfront hlines (List.cons_ne_nil _ _) h)).2
  have hfile : opensFile l = false := by rw [opensFile, hopening, Bool.false_and]
  rw [IsInert, hfile, hopening, ← heq]
  exact (groups_spec (parts l)).2.1

/-- The parts of a header line are the one block that they make. -/
theorem isInert_of_single (hfile : opensFile l = true)
    (h : (fileGroups (parts l)).map (fun g => Text.join "\n" (g.1 :: g.2)) =
      [Text.join "\n" (parts l)]) : IsInert l := by
  obtain ⟨part, more, hparts, -⟩ := exists_parts_opening (isOpening_of_opensFile hfile)
  obtain ⟨g, hg, hjoin⟩ := List.map_eq_singleton_iff.mp h
  have hmem : g ∈ fileGroups (parts l) := by rw [hg]; exact List.mem_singleton_self g
  have hlines : ∀ k ∈ g.1 :: g.2, k.OneLine := fun k hk =>
    oneLine_of_mem_parts (mem_of_mem_group (List.mem_filter.mp hmem).1 hk)
  have heq := eq_of_join_eq hlines (fun k hk => oneLine_of_mem_parts hk) (by simp [hparts]) hjoin
  rw [IsInert, if_pos hfile]
  exact ⟨g.1, g.2, heq.symm, opensFile_of_mem_fileGroups hmem,
    ((groups_spec (parts l)).2.2 g (List.mem_filter.mp hmem).1).2⟩

/-- Behind a header of one line, the records are those of the lines only if the line behind it does
no harm. -/
theorem isInert_of_keepsRecords {header : Text} (hone : header.OneLine)
    (hheader : opensFile header = true) (h : KeepsRecords [header, l]) : IsInert l := by
  rw [keepsRecords_iff_fileGroups, List.flatMap_cons, List.flatMap_cons, List.flatMap_nil,
    List.append_nil, parts_of_oneLine hone, List.singleton_append, fileGroups_cons,
    if_pos hheader, fileGroups_cons header, if_pos hheader, List.map_cons, List.map_cons,
    List.flatMap_cons, parts_of_oneLine hone] at h
  obtain ⟨hfirst, hrest⟩ := List.cons.inj h
  rw [fileGroups_cons] at hrest
  by_cases hfile : opensFile l = true
  · rw [if_pos hfile] at hrest
    refine isInert_of_single hfile (hrest.trans ?_)
    simp [groups, fileGroups]
  · rw [if_neg hfile] at hrest
    by_cases hopening : isOpening l = true
    · have hnone : fileGroups (parts l) = [] := by
        simpa [groups, fileGroups] using hrest
      rw [IsInert, if_neg hfile, if_pos hopening]
      intro part hpart
      rw [← Bool.not_eq_true]
      intro hforged
      obtain ⟨g, hg, -⟩ := exists_fileGroups hpart hforged
      rw [hnone] at hg
      exact List.not_mem_nil hg
    · have hopening : isOpening l = false := by simpa using hopening
      refine isInert_of_front hone hopening (hfirst.trans ?_)
      rw [groups_line hopening]
      simp [groups]

end Forged

/-- Kept records are as many as the header lines. -/
theorem KeepsRecords.length_parse {ls : List Text} (h : KeepsRecords ls) :
    (parse (Text.unlines ls)).length = ls.countP opensFile := by
  have hlength := congrArg List.length h
  rwa [List.length_map, List.length_map, length_fileGroups] at hlength

/-- Among texts made of some lines, a clean header line among them, the reader keeps to the records
just where every line is read in parts that do what the line does; it then finds as many files as
there are header lines. -/
theorem keepsRecords_iff {allowed : Text → Prop}
    (hheader : ∃ header, allowed header ∧ header.OneLine ∧ opensFile header = true) :
    ((∀ ls, (∀ l ∈ ls, allowed l) → KeepsRecords ls) ↔ ∀ l, allowed l → IsInert l) ∧
      ∀ ls, KeepsRecords ls → (parse (Text.unlines ls)).length = ls.countP opensFile := by
  refine ⟨⟨?_, ?_⟩, fun ls h => h.length_parse⟩
  · intro h l hl
    obtain ⟨header, hallowed, hone, hfile⟩ := hheader
    refine isInert_of_keepsRecords hone hfile (h [header, l] ?_)
    simpa using ⟨hallowed, hl⟩
  · exact fun h ls hls => keepsRecords_of_isInert fun l hl => h l (hls l hl)

/-- Lines without any break of their own, one of which looks like a header behind a plus sign. -/
theorem keepsRecords_oneLine :
    let header : Text := "diff --git a/x.py b/x.py"
    let ls : List Text := [header, "@@ -1 +1 @@", "+diff --git a/y.py b/y.py", "diff --git oops"]
    (header.OneLine ∧ opensFile header = true) ∧ (∀ l ∈ ls, l.OneLine) ∧ KeepsRecords ls ∧
      (parse (Text.unlines ls)).length = 1 := by
  intro header ls
  have hheader : header.OneLine ∧ opensFile header = true := by decide
  have hls : ∀ l ∈ ls, l.OneLine := by decide
  have hexists : ∃ header : Text, header.OneLine ∧ header.OneLine ∧ opensFile header = true :=
    ⟨header, hheader.1, hheader⟩
  have hrecords := keepsRecords_iff hexists
  have hkept : KeepsRecords ls := hrecords.1.mpr (fun l hl => isInert_of_oneLine hl) ls hls
  exact ⟨hheader, hls, hkept, (hrecords.2 ls hkept).trans (by decide)⟩

/-- An added line can forge a file with a form feed. -/
theorem forged_file :
    ¬ ∀ ls : List Text, (∀ l ∈ ls, '\n' ∉ l) →
      (parse (Text.unlines ls)).length = ls.countP opensFile := by
  intro h
  have hforged := h ["diff --git a/notes.txt b/notes.txt", "--- a/notes.txt", "+++ b/notes.txt",
    "@@ -1 +1,2 @@", " x", "+y\x0cdiff --git a/forged.py b/forged.py"] (by decide)
  exact absurd hforged (by decide)

end ChangeReview.Diff
