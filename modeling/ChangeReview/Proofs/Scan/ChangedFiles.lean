import ChangeReview.Proofs.Scan.SoundReports
import ChangeReview.Proofs.Text.NormalPaths
import ChangeReview.Proofs.Text.Occurrences

/-!
# Findings in changed files

A finding is kept or passed over by its own path, so the findings that are kept have the order in
which they were given, and a path more among the changed ones passes none over. The scanner may
write the path of a changed file as it is or below any folder: its finding is kept.
-/
namespace ChangeReview.Finding

open Scan (isAbout keep_inv requires_keep)
open Text (IsPlainPath)

/-- The path leads to the file `p`: it is `p`, or `p` in a folder, such as `./p`. -/
inductive LeadsTo (p : Text) : Text → Prop where
  | itself : LeadsTo p p
  | inside (folder : Text) : LeadsTo p (folder ++ '/' :: p)

variable {findings kept : List Finding} {changed : List Text}

/-- There is a result just if all findings have paths, also those that are not kept. -/
theorem inChangedFiles_ok_iff :
    (∃ kept, inChangedFiles findings changed = .ok kept) ↔ ∀ f ∈ findings, f.path.IsTextual :=
  (requires_keep (normalPaths changed) findings).ok_iff

theorem inChangedFiles_inv (h : inChangedFiles findings changed = .ok kept) :
    kept = findings.filter fun f => isAbout (normalPaths changed) f.path := keep_inv h

theorem inChangedFiles_eq (h : ∀ f ∈ findings, f.path.IsTextual) (changed : List Text) :
    inChangedFiles findings changed =
      .ok (findings.filter fun f => isAbout (normalPaths changed) f.path) := by
  obtain ⟨kept, hkept⟩ : ∃ kept, inChangedFiles findings changed = .ok kept :=
    inChangedFiles_ok_iff.mpr h
  rw [hkept, inChangedFiles_inv hkept]

theorem keep_append (changed : List Text) (front back : List Finding) :
    keep changed (front ++ back) = keep changed front >>= fun kept =>
      (keep changed back).map fun more => kept ++ more := by
  induction front with
  | nil => cases hback : keep changed back <;> simp [keep, hback, Except.map, ok_bind]
  | cons f front ih =>
    rw [List.cons_append, Scan.keep_cons, Scan.keep_cons, ih]
    cases f.concerns changed with
    | error fault => rfl
    | ok about =>
      cases keep changed front with
      | error fault => rfl
      | ok kept =>
        cases keep changed back with
        | error fault => rfl
        | ok more => cases about <;> rfl

/-! ## Changed paths -/

theorem normalPaths_subset {more : List Text} (h : changed ⊆ more) :
    normalPaths changed ⊆ normalPaths more :=
  List.map_subset _ (List.filter_subset _ h)

theorem isAbout_mono {more : List Text} (h : changed ⊆ more) {v : Value}
    (habout : isAbout changed v = true) : isAbout more v = true := by
  cases v with
  | text path =>
    obtain ⟨hpath, hmatch⟩ := Bool.and_eq_true_iff.mp habout
    obtain ⟨c, hc, hoccurs⟩ := List.any_eq_true.mp hmatch
    exact Bool.and_eq_true_iff.mpr ⟨hpath, List.any_eq_true.mpr ⟨c, h hc, hoccurs⟩⟩
  | _ => exact absurd habout Bool.false_ne_true

/-- The normal form of a path to a plain file ends in the file's own path. -/
theorem LeadsTo.suffix {p path : Text} (h : LeadsTo p path) (hp : IsPlainPath p) :
    p <:+ Text.normalizePath path := by
  cases h with
  | itself => rw [Text.normalizePath_plain hp]
  | inside folder => exact Text.suffix_normalizePath hp folder

theorem LeadsTo.ne_nil {p path : Text} (h : LeadsTo p path) (hp : IsPlainPath p) : path ≠ [] := by
  cases h with
  | itself => exact hp.ne_nil
  | inside folder => simp

/-- A path to a changed file is about it. -/
theorem LeadsTo.isAbout {p path : Text} (h : LeadsTo p path) (hp : IsPlainPath p)
    (hchanged : p ∈ changed) : isAbout (normalPaths changed) (.text path) = true := by
  have hnormal : p ∈ normalPaths changed := by
    refine List.mem_map.mpr ⟨p, List.mem_filter.mpr ⟨hchanged, ?_⟩, Text.normalizePath_plain hp⟩
    simpa using hp.ne_nil
  have hmatch : pathsMatch (normalPaths changed) path = true := by
    refine List.any_eq_true.mpr ⟨p, hnormal, Bool.or_eq_true_iff.mpr (.inr ?_)⟩
    exact Text.occurs_iff.mpr (h.suffix hp).isInfix
  refine Bool.and_eq_true_iff.mpr ⟨?_, hmatch⟩
  simpa using h.ne_nil hp

/-- No finding in a changed file is lost. There is a result just if all findings have paths;
findings in a row are kept as those in front and those behind are; those that are kept stay in
order, none is lost to a further changed path, and the findings whose path leads to a changed file
are among them as often as they were given. -/
theorem changed_files_keep_findings (findings : List Finding) (changed : List Text) :
    ((∃ kept, inChangedFiles findings changed = .ok kept) ↔ ∀ f ∈ findings, f.path.IsTextual) ∧
    (∀ front back, findings = front ++ back → inChangedFiles findings changed = do
      let kept ← inChangedFiles front changed
      let more ← inChangedFiles back changed
      return kept ++ more) ∧
    ∀ kept, inChangedFiles findings changed = .ok kept →
      kept.Sublist findings ∧
      (∀ paths, changed ⊆ paths →
        ∃ more, inChangedFiles findings paths = .ok more ∧ kept.Sublist more) ∧
      ∀ p ∈ changed, IsPlainPath p → ∀ f ∈ findings,
        (∃ path, f.path = .text path ∧ LeadsTo p path) → kept.count f = findings.count f := by
  refine ⟨inChangedFiles_ok_iff, ?_, ?_⟩
  · rintro front back rfl
    refine (keep_append (normalPaths changed) front back).trans ?_
    unfold inChangedFiles
    cases keep (normalPaths changed) back <;> rfl
  intro kept hkept
  have hpaths : ∀ f ∈ findings, f.path.IsTextual := inChangedFiles_ok_iff.mp ⟨kept, hkept⟩
  obtain rfl := inChangedFiles_inv hkept
  refine ⟨List.filter_sublist, ?_, ?_⟩
  · intro paths hmore
    refine ⟨_, inChangedFiles_eq hpaths paths, List.monotone_filter_right findings fun f => ?_⟩
    exact isAbout_mono (normalPaths_subset hmore)
  · rintro p hchanged hp f hf ⟨path, hpath, hleads⟩
    refine List.count_filter ?_
    rw [hpath]
    exact hleads.isAbout hp hchanged

end ChangeReview.Finding
