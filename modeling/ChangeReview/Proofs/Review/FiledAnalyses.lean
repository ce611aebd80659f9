import ChangeReview.Proofs.Order.FirstSeen
import ChangeReview.Proofs.Review.DefaultAnalyses
import ChangeReview.Reply.Answers
import Mathlib.Data.List.Nodup

/-!
# Filed analyses

Analyses are filed: no path comes twice, each analysis stands under its own path, and every score is
between one and five. Default analyses are filed under the distinct paths of their files, in the order
in which these came first, and each is that of the last file with its path. They stay filed when those
of a reply are put over them. A reply can neither add a path nor move one, the line counts stay those
of the file, and the analysis of a path that it does not name stays the default one.
-/
namespace ChangeReview

theorem clampScore_bounds (n : Int) : 1 ≤ clampScore n ∧ clampScore n ≤ 5 := by
  unfold clampScore
  omega

/-- An analysis is about a path and has a score between one and five. -/
structure FileAnalysis.IsAbout (a : FileAnalysis) (path : Text) : Prop where
  path_eq : a.path = path
  one_le : 1 ≤ a.complexity
  le_five : a.complexity ≤ 5

/-- The default analysis of a file is about its path. -/
theorem FileAnalysis.isAbout_ofFile {f : ChangedFile} {a : FileAnalysis} (h : ofFile f = .ok a) :
    a.IsAbout f.path := by
  unfold ofFile at h
  obtain ⟨summary, -, h⟩ := exists_of_bind_eq_ok h
  obtain ⟨complexity, hcomplexity, h⟩ := exists_of_bind_eq_ok h
  obtain ⟨_, -, rfl⟩ := exists_of_map_eq_ok hcomplexity
  obtain rfl := Except.ok.inj h
  exact ⟨rfl, (clampScore_bounds _).1, (clampScore_bounds _).2⟩

namespace FileAnalyses

variable {analyses : FileAnalyses} {path : Text} {a : FileAnalysis}

def paths (analyses : FileAnalyses) : List Text := analyses.map Prod.fst

/-- A path that is new comes last. -/
theorem paths_put (analyses : FileAnalyses) (path : Text) (a : FileAnalysis) :
    (analyses.put path a).paths =
      if path ∈ analyses.paths then analyses.paths else analyses.paths ++ [path] := by
  induction analyses with
  | nil => rfl
  | cons e rest ih =>
    obtain ⟨p, b⟩ := e
    unfold paths at ih
    by_cases hp : p = path
    · simp [put, paths, hp]
    · simp only [put, if_neg hp, paths, List.map_cons, List.mem_cons, Ne.symm hp, false_or, ih]
      split <;> rfl

theorem length_put_le (analyses : FileAnalyses) (path : Text) (a : FileAnalysis) :
    (analyses.put path a).length ≤ analyses.length + 1 := by
  have hpaths := congrArg List.length (paths_put analyses path a)
  rw [paths, List.length_map] at hpaths
  rw [hpaths]
  split <;> simp [paths]

theorem mem_put {e : Text × FileAnalysis} (he : e ∈ analyses.put path a) :
    e = (path, a) ∨ e ∈ analyses := by
  induction analyses with
  | nil => exact .inl (List.mem_singleton.mp he)
  | cons e' rest ih =>
    obtain ⟨p, b⟩ := e'
    unfold put at he
    split at he
    · next hp =>
      subst hp
      rcases List.mem_cons.mp he with rfl | he
      · exact .inl rfl
      · exact .inr (List.mem_cons_of_mem _ he)
    · rcases List.mem_cons.mp he with rfl | he
      · exact .inr List.mem_cons_self
      · exact (ih he).imp id (List.mem_cons_of_mem _)

/-- No path comes twice, and each analysis is about the path that it stands under. -/
structure IsFiled (analyses : FileAnalyses) : Prop where
  nodup : analyses.paths.Nodup
  isAbout : ∀ e ∈ analyses, e.2.IsAbout e.1

theorem isFiled_nil : IsFiled [] := ⟨List.nodup_nil, by simp⟩

theorem IsFiled.put (h : analyses.IsFiled) (ha : a.IsAbout path) : (analyses.put path a).IsFiled := by
  constructor
  · rw [paths_put]
    split
    · exact h.nodup
    · next hnew => simpa using h.nodup.concat hnew
  · intro e he
    rcases mem_put he with rfl | he
    · exact ha
    · exact h.isAbout e he

/-- Default analyses are filed, and there are no more of them than files. -/
theorem isFiled_ofFiles {files : List ChangedFile} {all : FileAnalyses} (h : ofFiles files = .ok all) :
    all.IsFiled ∧ all.length ≤ files.length := by
  refine ofFiles_induction (P := fun files all => all.IsFiled ∧ all.length ≤ files.length)
    ⟨isFiled_nil, Nat.le_refl 0⟩ (fun seen done f a hseen ha => ?_) h
  obtain ⟨hfiled, hlength⟩ := hseen
  have hput := length_put_le done f.path a
  refine ⟨hfiled.put (FileAnalysis.isAbout_ofFile ha), ?_⟩
  rw [List.length_append, List.length_singleton]
  omega

/-- Analyses of paths that are there already leave the paths as they are. -/
theorem IsFiled.update {newer : FileAnalyses} (h : analyses.IsFiled)
    (hnewer : ∀ e ∈ newer, e.2.IsAbout e.1 ∧ e.1 ∈ analyses.paths) :
    (analyses.update newer).IsFiled ∧ (analyses.update newer).paths = analyses.paths := by
  induction newer generalizing analyses with
  | nil => exact ⟨h, rfl⟩
  | cons e newer ih =>
    obtain ⟨⟨habout, hold⟩, hrest⟩ := List.forall_mem_cons.mp hnewer
    have hpaths : (analyses.put e.1 e.2).paths = analyses.paths := by
      rw [paths_put, if_pos hold]
    obtain ⟨hfiled, hsame⟩ := ih (h.put habout) (by rwa [hpaths])
    exact ⟨hfiled, hsame.trans hpaths⟩

theorem mem_paths_of_lookup (h : analyses.lookup path = some a) : path ∈ analyses.paths := by
  obtain ⟨front, back, rfl, -⟩ := List.lookup_eq_some_iff.mp h
  simp [paths]

end FileAnalyses

namespace Reply

theorem isAbout_analysisOf {path : Text} {entry : List (Text × Value)} {base a : FileAnalysis}
    (h : analysisOf path entry base = .ok a) : a.IsAbout path := by
  obtain ⟨score, hscore, rfl⟩ := exists_of_map_eq_ok h
  obtain ⟨_, -, rfl⟩ := exists_of_map_eq_ok hscore
  exact ⟨rfl, (clampScore_bounds _).1, (clampScore_bounds _).2⟩

/-- The analyses of a reply are about paths that have a default one. -/
theorem isAbout_analysesOf {defaults deep : FileAnalyses} {members : List (Text × Value)}
    (h : analysesOf defaults members = .ok deep) :
    ∀ e ∈ deep, e.2.IsAbout e.1 ∧ e.1 ∈ defaults.paths := by
  induction members generalizing deep with
  | nil =>
    obtain rfl := Except.ok.inj h
    simp
  | cons member members ih =>
    obtain ⟨path, v⟩ := member
    unfold analysesOf at h
    split at h
    · next base entry hbase =>
      obtain ⟨a, ha, h⟩ := exists_of_bind_eq_ok h
      obtain ⟨more, hmore, h⟩ := exists_of_bind_eq_ok h
      obtain rfl := Except.ok.inj h
      refine List.forall_mem_cons.mpr ⟨⟨isAbout_analysisOf ha, ?_⟩, ih hmore⟩
      exact FileAnalyses.mem_paths_of_lookup hbase
    · exact ih h

theorem isAbout_fileAnalyses {t : Text} {defaults deep : FileAnalyses}
    (h : fileAnalyses t defaults = .ok deep) :
    ∀ e ∈ deep, e.2.IsAbout e.1 ∧ e.1 ∈ defaults.paths := by
  unfold fileAnalyses at h
  split at h
  · exact isAbout_analysesOf h
  · exact absurd h (by simp)

end Reply

/-! ## What stays as it was measured -/

/-- The last of some files with this path. -/
def ChangedFile.lastAt (path : Text) (files : List ChangedFile) : Option ChangedFile :=
  files.reverse.find? fun f => f.path == path

theorem ChangedFile.lastAt_concat (path : Text) (files : List ChangedFile) (f : ChangedFile) :
    lastAt path (files ++ [f]) = if f.path = path then some f else lastAt path files := by
  unfold lastAt
  rw [List.reverse_concat, List.find?_cons]
  by_cases hpath : f.path = path
  · simp [hpath]
  · have hbeq : (f.path == path) = false := beq_eq_false_iff_ne.mpr hpath
    rw [hbeq, if_neg hpath]

namespace FileAnalyses

/-- Default analyses stand under the distinct paths of their files. -/
theorem paths_ofFiles {files : List ChangedFile} {all : FileAnalyses} (h : ofFiles files = .ok all) :
    all.paths = (files.map (·.path)).eraseDups := by
  refine ofFiles_induction (P := fun files all => all.paths = (files.map (·.path)).eraseDups) rfl
    (fun seen done f a hseen _ => ?_) h
  rw [paths_put, hseen, List.map_append, List.map_singleton, Order.eraseDups_concat]
  simp only [List.mem_eraseDups]

/-! ## Members -/

/-- Each path has the default analysis of the last file with it. -/
theorem lookup_ofFiles_eq {files : List ChangedFile} {all : FileAnalyses}
    (h : ofFiles files = .ok all) {path : Text} {a : FileAnalysis} (ha : all.lookup path = some a) :
    ∃ f, ChangedFile.lastAt path files = some f ∧ FileAnalysis.ofFile f = .ok a := by
  refine ofFiles_induction (P := fun files all => ∀ a, all.lookup path = some a →
    ∃ f, ChangedFile.lastAt path files = some f ∧ FileAnalysis.ofFile f = .ok a) (by simp)
    (fun seen done f b hseen hb a ha => ?_) h a ha
  rw [lookup_put_eq] at ha
  rw [ChangedFile.lastAt_concat]
  by_cases hpath : f.path = path
  · rw [if_pos hpath.symm] at ha
    obtain rfl := Option.some.inj ha
    exact ⟨f, if_pos hpath, hb⟩
  · rw [if_neg (Ne.symm hpath)] at ha
    rw [if_neg hpath]
    exact hseen a ha

theorem mem_update {analyses newer : FileAnalyses} {e : Text × FileAnalysis}
    (he : e ∈ analyses.update newer) : e ∈ analyses ∨ e ∈ newer := by
  induction newer generalizing analyses with
  | nil => exact .inl he
  | cons first newer ih =>
    rcases ih he with he | he
    · rcases mem_put he with rfl | he
      · exact .inr List.mem_cons_self
      · exact .inl he
    · exact .inr (List.mem_cons_of_mem _ he)

/-- What is filed is found under its path. -/
theorem IsFiled.lookup {analyses : FileAnalyses} (h : analyses.IsFiled) {path : Text}
    {a : FileAnalysis} (ha : (path, a) ∈ analyses) : analyses.lookup path = some a := by
  obtain ⟨front, back, rfl⟩ := List.append_of_mem ha
  refine List.lookup_eq_some_iff.mpr ⟨front, back, rfl, fun e he => ?_⟩
  have hnodup := h.nodup
  rw [paths, List.map_append, List.map_cons] at hnodup
  have hfresh := (List.nodup_append.mp hnodup).2.2 e.1 (List.mem_map_of_mem he) path List.mem_cons_self
  exact bne_iff_ne.mpr (Ne.symm hfresh)

end FileAnalyses

namespace Reply

/-- An analysis of a reply is made of an object that the reply has under its path. -/
theorem mem_analysesOf {defaults deep : FileAnalyses} {members : List (Text × Value)}
    (h : analysesOf defaults members = .ok deep) {path : Text} {a : FileAnalysis}
    (ha : (path, a) ∈ deep) : ∃ base entry, defaults.lookup path = some base ∧
      (path, .object entry) ∈ members ∧ analysisOf path entry base = .ok a := by
  induction members generalizing deep with
  | nil =>
    obtain rfl := Except.ok.inj h
    exact absurd ha List.not_mem_nil
  | cons member members ih =>
    obtain ⟨first, v⟩ := member
    unfold analysesOf at h
    split at h
    · next base entry hbase =>
      obtain ⟨b, hb, h⟩ := exists_of_bind_eq_ok h
      obtain ⟨more, hmore, h⟩ := exists_of_bind_eq_ok h
      obtain rfl := Except.ok.inj h
      rcases List.mem_cons.mp ha with heq | ha
      · obtain ⟨rfl, rfl⟩ := Prod.mk.inj heq
        exact ⟨base, entry, hbase, List.mem_cons_self, hb⟩
      · obtain ⟨base', entry', hbase', hmember, hentry⟩ := ih hmore ha
        exact ⟨base', entry', hbase', List.mem_cons_of_mem _ hmember, hentry⟩
    · obtain ⟨base, entry, hbase, hmember, hentry⟩ := ih h ha
      exact ⟨base, entry, hbase, List.mem_cons_of_mem _ hmember, hentry⟩

/-- Whatever an entry says, the line counts stay. -/
theorem counts_analysisOf {path : Text} {entry : List (Text × Value)} {base a : FileAnalysis}
    (h : analysisOf path entry base = .ok a) :
    a.additions = base.additions ∧ a.deletions = base.deletions := by
  obtain ⟨score, -, rfl⟩ := exists_of_map_eq_ok h
  exact ⟨rfl, rfl⟩

end Reply

end ChangeReview
