import ChangeReview.Proofs.Change.LineCounts
import ChangeReview.Proofs.Workflow.ReportLaws
import Mathlib.Algebra.Order.BigOperators.Group.List
import Mathlib.Algebra.Order.Ring.Int
import Mathlib.Data.List.Perm.Basic

/-!
# Counts of files and totals of a change

A report has one analysis for each path, that of the last file with it, while the totals of a change
go over all its files. So the counts of the analyses and the totals differ by the files behind which
another one of the same path stands, and agree where these have no counts that matter. A change of
type is written as two blocks with one path, and loses the counts of the first.
-/
namespace ChangeReview

/-! ## Files behind which others of their paths stand -/

namespace ChangedFile

/-- The files behind which another one with their path stands. -/
def superseded : List ChangedFile → List ChangedFile
  | [] => []
  | f :: files => if f.path ∈ files.map (·.path) then f :: superseded files else superseded files

theorem superseded_sublist (files : List ChangedFile) : (superseded files).Sublist files := by
  induction files with
  | nil => exact .slnil
  | cons f files ih =>
    rw [superseded]
    split
    · exact ih.cons_cons f
    · exact ih.cons f

/-- The path of some file is that of a last one. -/
theorem exists_lastAt {path : Text} {files : List ChangedFile} (h : path ∈ files.map (·.path)) :
    ∃ f, lastAt path files = some f := by
  obtain ⟨f, hf, rfl⟩ := List.mem_map.mp h
  exact Option.isSome_iff_exists.mp
    (List.find?_isSome.mpr ⟨f, List.mem_reverse.mpr hf, beq_self_eq_true _⟩)

theorem lastAt_cons (path : Text) (f : ChangedFile) (files : List ChangedFile) :
    lastAt path (f :: files) = (lastAt path files).or (if f.path = path then some f else none) := by
  unfold lastAt
  rw [List.reverse_cons, List.find?_append]
  by_cases hpath : f.path = path <;> simp [hpath]

/-- Where a path is that of a file behind, the last file with it stands behind. -/
theorem lastAt_cons_of_mem {path : Text} {f : ChangedFile} {files : List ChangedFile}
    (h : path ∈ files.map (·.path)) : lastAt path (f :: files) = lastAt path files := by
  obtain ⟨g, hg⟩ := exists_lastAt h
  rw [lastAt_cons, hg, Option.some_or]

theorem filterMap_lastAt_cons {f : ChangedFile} {files : List ChangedFile} {paths : List Text}
    (h : ∀ path ∈ paths, path ∈ files.map (·.path)) :
    paths.filterMap (lastAt · (f :: files)) = paths.filterMap (lastAt · files) :=
  List.filterMap_congr fun path hpath => lastAt_cons_of_mem (h path hpath)

theorem lastAt_cons_of_not_mem {f : ChangedFile} {files : List ChangedFile}
    (h : f.path ∉ files.map (·.path)) : lastAt f.path (f :: files) = some f := by
  have hnone : lastAt f.path files = none :=
    List.find?_eq_none.mpr fun g hg hpath =>
      h (List.mem_map.mpr ⟨g, List.mem_reverse.mp hg, by simpa using hpath⟩)
  rw [lastAt_cons, hnone, Option.none_or, if_pos rfl]

/-- Every file is the last with its path, or another one stands behind it. -/
theorem perm_superseded {files : List ChangedFile} {paths : List Text} (hnodup : paths.Nodup)
    (hpaths : ∀ path, path ∈ paths ↔ path ∈ files.map (·.path)) :
    (paths.filterMap (lastAt · files) ++ superseded files).Perm files := by
  induction files generalizing paths with
  | nil =>
    obtain rfl := List.eq_nil_iff_forall_not_mem.mpr fun path hpath =>
      List.not_mem_nil ((hpaths path).mp hpath)
    exact .nil
  | cons f files ih =>
    rw [superseded]
    by_cases hf : f.path ∈ files.map (·.path)
    · -- the paths are those of the files behind, and each has its last file there
      have hsame : ∀ path, path ∈ paths ↔ path ∈ files.map (·.path) := by
        intro path
        rw [hpaths, List.map_cons, List.mem_cons]
        exact or_iff_right_of_imp fun heq => heq ▸ hf
      rw [if_pos hf, filterMap_lastAt_cons fun path => (hsame path).mp]
      exact List.perm_middle.trans ((ih hnodup hsame).cons f)
    · -- the path of the file is one more than those of the files behind
      have hmem : f.path ∈ paths := (hpaths f.path).mpr List.mem_cons_self
      have hrest : ∀ path, path ∈ paths.erase f.path ↔ path ∈ files.map (·.path) := by
        intro path
        rw [hnodup.mem_erase_iff, hpaths, List.map_cons, List.mem_cons]
        constructor
        · exact fun ⟨hne, h⟩ => h.resolve_left hne
        · exact fun h => ⟨fun heq => hf (heq ▸ h), .inr h⟩
      have hfirst : (paths.filterMap (lastAt · (f :: files))).Perm
          (f :: (paths.erase f.path).filterMap (lastAt · files)) := by
        have hperm := (List.perm_cons_erase hmem).filterMap (lastAt · (f :: files))
        have hhead : lastAt f.path (f :: files) = some f := lastAt_cons_of_not_mem hf
        rwa [List.filterMap_cons, hhead,
          filterMap_lastAt_cons fun path => (hrest path).mp] at hperm
      rw [if_neg hf]
      exact (hfirst.append_right _).trans ((ih (hnodup.erase _) hrest).cons f)

end ChangedFile

/-! ## Totals -/

theorem totalOf_eq_sum (count : ChangedFile → Int) (files : List ChangedFile) :
    totalOf count files = (files.map count).sum := by
  induction files with
  | nil => rfl
  | cons f files ih =>
    rw [List.map_cons, List.sum_cons, ← ih]
    rfl

/-- The counts of the last files are the total without the files that they stand behind. -/
theorem totalOf_last (count : ChangedFile → Int) {files : List ChangedFile} {paths : List Text}
    (hnodup : paths.Nodup) (hpaths : ∀ path, path ∈ paths ↔ path ∈ files.map (·.path)) :
    totalOf count (paths.filterMap (ChangedFile.lastAt · files)) =
      totalOf count files - totalOf count (ChangedFile.superseded files) := by
  have hsum := ((ChangedFile.perm_superseded hnodup hpaths).map count).sum_eq
  rw [List.map_append, List.sum_append] at hsum
  simp only [totalOf_eq_sum]
  omega

/-- Counts that are not below zero add up to zero only if there are none. -/
theorem totalOf_eq_zero_iff {count : ChangedFile → Int} {files : List ChangedFile}
    (h : ∀ f ∈ files, 0 ≤ count f) : totalOf count files = 0 ↔ ∀ f ∈ files, count f = 0 := by
  rw [totalOf_eq_sum]
  constructor
  · intro hsum f hf
    refine List.all_zero_of_le_zero_le_of_sum_eq_zero ?_ hsum (List.mem_map_of_mem hf)
    exact List.forall_mem_map.mpr h
  · exact fun hzero => List.sum_eq_zero (List.forall_mem_map.mpr hzero)

/-! ## Sums over a report -/

namespace Report

/-- A count added up over the analyses of a report. -/
def sumOf (count : FileEntry → Value) (entries : List (Text × FileEntry)) : Except Fault Value :=
  entries.foldlM (fun n e => Value.sum n (count e.2)) (.int 0)

theorem sumOf_eq {count : FileEntry → Value} {entries : List (Text × FileEntry)} {ns : List Int}
    (h : entries.map (fun e => count e.2) = ns.map Value.int) :
    sumOf count entries = .ok (.int ns.sum) := by
  have hfrom : ∀ start : Int,
      entries.foldlM (fun n e => Value.sum n (count e.2)) (Value.int start) =
        .ok (.int (start + ns.sum)) := by
    induction entries generalizing ns with
    | nil =>
      obtain rfl := List.map_eq_nil_iff.mp h.symm
      intro start
      rw [List.sum_nil, Int.add_zero]
      rfl
    | cons e entries ih =>
      obtain ⟨n, ns, rfl, hn, hns⟩ := List.map_eq_cons_iff.mp h.symm
      intro start
      have hcount : count e.2 = .int n := hn.symm
      have hstep : (Value.int start).sum (count e.2) = .ok (.int (start + n)) := by
        rw [hcount]
        rfl
      rw [List.foldlM_cons, hstep, List.sum_cons, ← Int.add_assoc]
      exact ih hns.symm (start + n)
  rw [sumOf, hfrom, Int.zero_add]

/-- The line counts of the analyses add up to the totals of a change. -/
structure AddsUp (report : Report) (totals : ChangeTotals) : Prop where
  added : sumOf (·.additions) report.files = .ok (.int totals.linesAdded)
  removed : sumOf (·.deletions) report.files = .ok (.int totals.linesRemoved)

theorem ok_int_sub_eq_iff (a b : Int) :
    (Except.ok (.int (a - b)) : Except Fault Value) = .ok (.int a) ↔ b = 0 := by
  rw [Except.ok.injEq, Value.int.injEq]
  exact sub_eq_self

/-- Sums that are short of the totals add up to them only if nothing is missing. -/
theorem addsUp_iff_of_short {report : Report} {totals : ChangeTotals} {added removed : Int}
    (hadded : sumOf (·.additions) report.files = .ok (.int (totals.linesAdded - added)))
    (hremoved : sumOf (·.deletions) report.files = .ok (.int (totals.linesRemoved - removed))) :
    report.AddsUp totals ↔ added = 0 ∧ removed = 0 := by
  rw [← ok_int_sub_eq_iff totals.linesAdded added, ← ok_int_sub_eq_iff totals.linesRemoved removed,
    ← hadded, ← hremoved]
  exact ⟨fun h => ⟨h.added, h.removed⟩, fun h => ⟨h.1, h.2⟩⟩

end Report

namespace Workflow

section Sums

variable {files : List ChangedFile} {calls : List Exchange}
  {entries : List (Text × Report.FileEntry)}

/-- Entries that state a count of the last files with their paths add up to what these do. -/
theorem sumOf_last {read : Report.FileEntry → Value} {count : ChangedFile → Int}
    (h : ∀ e ∈ entries, ∃ f, ChangedFile.lastAt e.1 files = some f ∧ read e.2 = .int (count f)) :
    Report.sumOf read entries =
      .ok (.int (totalOf count ((entries.map Prod.fst).filterMap (ChangedFile.lastAt · files)))) := by
  rw [totalOf_eq_sum]
  refine Report.sumOf_eq ?_
  induction entries with
  | nil => rfl
  | cons e entries ih =>
    obtain ⟨f, hlast, hread⟩ := h e List.mem_cons_self
    rw [List.map_cons, List.map_cons, List.filterMap_cons, hlast, hread,
      ih fun k hk => h k (List.mem_cons_of_mem e hk)]
    rfl

/-- Measured counts add up to the totals of the files without those that others stand behind. -/
theorem StatesMeasured.sums (h : StatesMeasured files calls entries)
    (hnodup : (entries.map Prod.fst).Nodup) :
    Report.sumOf (·.additions) entries = .ok (.int (totalOf (·.additions) files -
        totalOf (·.additions) (ChangedFile.superseded files))) ∧
      Report.sumOf (·.deletions) entries = .ok (.int (totalOf (·.deletions) files -
        totalOf (·.deletions) (ChangedFile.superseded files))) := by
  have hpaths : ∀ path, path ∈ entries.map Prod.fst ↔ path ∈ files.map (·.path) := fun path => by
    rw [h.paths, List.mem_eraseDups]
  rw [← totalOf_last _ hnodup hpaths, ← totalOf_last _ hnodup hpaths]
  constructor
  · refine sumOf_last fun e he => ?_
    obtain ⟨f, -, hlast, -, -, hadditions, -⟩ := h.entries e he
    exact ⟨f, hlast, hadditions⟩
  · refine sumOf_last fun e he => ?_
    obtain ⟨f, -, hlast, -, -, -, hdeletions, -⟩ := h.entries e he
    exact ⟨f, hlast, hdeletions⟩

end Sums

section Completed

variable {σ : Type} {w : World σ} {d : Disk} {origin : Origin} {c : Context} {run : Run σ}
  {report : Report}

/-- Over a change of no more files than are analyzed, the counts of a report add up to the totals of
the change without the files behind which others of their paths stand. So they add up to the totals
just where these files have counts that come to nothing, which in a change that is read from its diff
means that none of them has a line added or removed. -/
theorem files_add_up_iff (h : Completes w d origin c run report)
    (hfew : c.changedFiles.length ≤ maxAnalyzed) :
    let totals := ChangeTotals.ofFiles c.changedFiles
    let lost := ChangedFile.superseded c.changedFiles
    (Report.sumOf (·.additions) report.files =
        .ok (.int (totals.linesAdded - totalOf (·.additions) lost)) ∧
      Report.sumOf (·.deletions) report.files =
        .ok (.int (totals.linesRemoved - totalOf (·.deletions) lost))) ∧
    (report.AddsUp totals ↔ totalOf (·.additions) lost = 0 ∧ totalOf (·.deletions) lost = 0) ∧
    (c.files = [] →
      (report.AddsUp totals ↔ ∀ f ∈ lost, f.additions = 0 ∧ f.deletions = 0)) := by
  intro totals lost
  have hall : analyzedFiles c = c.changedFiles := List.take_of_length_le hfew
  have hstates := h.statesMeasured
  rw [hall] at hstates
  obtain ⟨hadded, hremoved⟩ := hstates.sums (isLawful_of_completes h).1.nodup_files
  have hiff : report.AddsUp totals ↔
      totalOf (·.additions) lost = 0 ∧ totalOf (·.deletions) lost = 0 :=
    Report.addsUp_iff_of_short hadded hremoved
  refine ⟨⟨hadded, hremoved⟩, hiff, fun hnone => hiff.trans ?_⟩
  have hcounts : ∀ f ∈ lost, 0 ≤ f.additions ∧ 0 ≤ f.deletions := by
    intro f hf
    have hmem := (ChangedFile.superseded_sublist _).mem hf
    rw [Context.changedFiles, hnone] at hmem
    exact Diff.counts_nonneg hmem
  rw [totalOf_eq_zero_iff fun f hf => (hcounts f hf).1,
    totalOf_eq_zero_iff fun f hf => (hcounts f hf).2]
  exact forall₂_and.symm

end Completed

/-! ## A change of type -/

/-- The lines of a diff in which a file is gone, up to those that remove its content. -/
def fileGone : List Text := ["diff --git a/link b/link", "deleted file mode 100644"]

/-- The lines of a diff in which a link with the path of the file is new. -/
def linkMade : List Text := ["diff --git a/link b/link", "new file mode 120000", "--- /dev/null",
  "+++ b/link", "@@ -0,0 +1 @@", "+target"]

/-- A change that makes a link of a file, whose content is removed by some lines. -/
def linked (removal : List Text) : Context where
  diff := Text.unlines (fileGone ++ removal ++ linkMade)
  wantsScan := false

def linkedRun (removal : List Text) : Ended Unit :=
  runQuick talkative () {} ⟨.text "any", .text "any"⟩ (linked removal)

/-- Where an empty file becomes a link, nothing is lost with its block. -/
theorem files_add_up_iff_empty : ∃ report,
    Completes talkative {} ⟨.text "any", .text "any"⟩ (linked []) (linkedRun []).run report ∧
      (linked []).changedFiles.length ≤ maxAnalyzed ∧ (linked []).files = [] ∧
      (ChangedFile.superseded (linked []).changedFiles).map (·.path) = ["link"] ∧
      report.AddsUp (ChangeTotals.ofFiles (linked []).changedFiles) := by
  have hends : (linkedRun []).report.toOption.isSome = true := by decide +kernel
  obtain ⟨report, hreport⟩ := Option.isSome_iff_exists.mp hends
  have hrun : linkedRun [] = ⟨(linkedRun []).run, .ok report⟩ := by
    rw [← eq_ok_of_toOption hreport]
  have hcompletes := Completes.quick hrun
  obtain ⟨hfew, hpaths, hlost⟩ : (linked []).changedFiles.length ≤ maxAnalyzed ∧
      (ChangedFile.superseded (linked []).changedFiles).map (·.path) = ["link"] ∧
      ∀ f ∈ ChangedFile.superseded (linked []).changedFiles,
        f.additions = 0 ∧ f.deletions = 0 := by
    decide +kernel
  obtain ⟨-, -, hparsed⟩ := files_add_up_iff hcompletes hfew
  exact ⟨report, hcompletes, hfew, rfl, hpaths, (hparsed rfl).mpr hlost⟩

/-- The lines that remove the content of a file of one line. -/
def oneLineGone : List Text := ["--- a/link", "+++ /dev/null", "@@ -1 +0,0 @@", "-old"]

/-- Where a file of one line becomes a link, the report has lost the line that is removed. -/
theorem removed_line_lost : ∃ report,
    Completes talkative {} ⟨.text "any", .text "any"⟩ (linked oneLineGone)
        (linkedRun oneLineGone).run report ∧
      (linked oneLineGone).changedFiles.length ≤ 15 ∧
      (ChangeTotals.ofFiles (linked oneLineGone).changedFiles).linesRemoved = 1 ∧
      Report.sumOf (·.deletions) report.files = .ok (.int 0) ∧
      ¬ report.AddsUp (ChangeTotals.ofFiles (linked oneLineGone).changedFiles) := by
  have hends : ((linkedRun oneLineGone).report.toOption.map fun r =>
      (Report.sumOf (·.deletions) r.files).toOption) = some (some (.int 0)) := by
    decide +kernel
  obtain ⟨report, hreport, hsum⟩ := Option.map_eq_some_iff.mp hends
  have hsum := eq_ok_of_toOption hsum
  have hrun : linkedRun oneLineGone = ⟨(linkedRun oneLineGone).run, .ok report⟩ := by
    rw [← eq_ok_of_toOption hreport]
  obtain ⟨hfew, hremoved⟩ : (linked oneLineGone).changedFiles.length ≤ 15 ∧
      (ChangeTotals.ofFiles (linked oneLineGone).changedFiles).linesRemoved = 1 := by
    decide +kernel
  refine ⟨report, .quick hrun, hfew, hremoved, hsum, fun hadds => ?_⟩
  have hequal := hadds.removed.symm.trans hsum
  rw [hremoved] at hequal
  exact absurd hequal (by decide)

end Workflow

end ChangeReview
