import ChangeReview.Proofs.Decimal.QuotientRange
import ChangeReview.Proofs.Faults
import ChangeReview.Review.FileAnalysis

/-!
# Default analyses

A file has a default analysis as long as its line counts can be written and its score is in the
range of doubles. Default analyses of files are found under the paths of the files and no others.
-/
namespace ChangeReview

/-- A whole number has no more digits than a numeral may have. -/
def Decimal.HasNumeral (n : Int) : Prop := n.natAbs < 10 ^ maxDigits

theorem Decimal.numeral_of_hasNumeral {n : Int} (h : HasNumeral n) :
    numeral n = .ok (Text.ofInt n) := by
  have hlt : n.natAbs < Nat.pow 10 maxDigits := h
  rw [numeral, if_pos hlt]

theorem Decimal.numeral_of_not_hasNumeral {n : Int} (h : ¬ HasNumeral n) :
    numeral n = .error (.tooLongToWrite maxDigits) := by
  have hlt : ¬ n.natAbs < Nat.pow 10 maxDigits := h
  rw [numeral, if_neg hlt]

theorem Decimal.numeral_ok_iff (n : Int) : (∃ t, numeral n = .ok t) ↔ HasNumeral n := by
  by_cases h : HasNumeral n
  · exact iff_of_true ⟨_, numeral_of_hasNumeral h⟩ h
  · exact iff_of_false (by rw [numeral_of_not_hasNumeral h]; simp) h

namespace ChangedFile

/-- The line counts of a file can be written. -/
def HasNumerals (f : ChangedFile) : Prop :=
  Decimal.HasNumeral f.additions ∧ Decimal.HasNumeral f.deletions

/-- The score that a file's size stands for, before it is clamped. -/
def rawScore (f : ChangedFile) : Int := Int.fdiv f.totalChanges linesPerPoint + 1

/-- A file whose counts are in the range of what a default analysis shows and scores. -/
def Fits (f : ChangedFile) : Prop := f.HasNumerals ∧ f.rawScore.natAbs < Binary64.wholeLimit

theorem changeSummary_ok_iff (f : ChangedFile) : (∃ t, f.changeSummary = .ok t) ↔ f.HasNumerals :=
  bind_ok_iff (Decimal.numeral_ok_iff f.additions) fun _ _ =>
    (bind_pure_ok_iff _).trans (Decimal.numeral_ok_iff f.deletions)

theorem defaultComplexity_ok_iff (f : ChangedFile) :
    (∃ n, f.defaultComplexity = .ok n) ↔ f.rawScore.natAbs < Binary64.wholeLimit :=
  (map_ok_iff _).trans (Decimal.nearest_eq_ok_iff f.rawScore)

end ChangedFile

theorem FileAnalysis.ofFile_ok_iff (f : ChangedFile) : (∃ a, ofFile f = .ok a) ↔ f.Fits :=
  bind_ok_iff f.changeSummary_ok_iff fun _ _ => (bind_pure_ok_iff _).trans f.defaultComplexity_ok_iff

namespace FileAnalyses

theorem lookup_put_eq (analyses : FileAnalyses) (path : Text) (a : FileAnalysis) (p : Text) :
    (analyses.put path a).lookup p = if p = path then some a else analyses.lookup p := by
  induction analyses with
  | nil =>
    by_cases hp : p = path
    · simp [put, hp]
    · have hne : (p == path) = false := beq_eq_false_iff_ne.mpr hp
      simp [put, List.lookup_cons, hp, hne]
  | cons e analyses ih =>
    obtain ⟨q, b⟩ := e
    rw [put]
    split
    · next hq =>
      subst hq
      by_cases hp : p = q
      · simp [hp]
      · have hne : (p == q) = false := beq_eq_false_iff_ne.mpr hp
        simp [List.lookup_cons, hp, hne]
    · next hq =>
      rw [List.lookup_cons, List.lookup_cons, ih]
      by_cases hp : p = q
      · have hne : q ≠ path := hq
        simp [hp, hne]
      · have hne : (p == q) = false := beq_eq_false_iff_ne.mpr hp
        rw [hne]

theorem lookup_put (analyses : FileAnalyses) (path : Text) (a : FileAnalysis) (p : Text) :
    ((analyses.put path a).lookup p).isSome = true ↔ (analyses.lookup p).isSome = true ∨ p = path := by
  rw [lookup_put_eq]
  by_cases hp : p = path <;> simp [hp]

/-- One file more has its default analysis put behind those of the others. -/
def step (done : FileAnalyses) (f : ChangedFile) : Except Fault FileAnalyses :=
  (FileAnalysis.ofFile f).map fun a => done.put f.path a

theorem step_ok_iff (done : FileAnalyses) (f : ChangedFile) :
    (∃ all, step done f = .ok all) ↔ f.Fits := by
  rw [← FileAnalysis.ofFile_ok_iff]
  exact map_ok_iff _

/-- Default analyses exist where every file fits. -/
theorem ofFiles_ok_iff (files : List ChangedFile) :
    (∃ all, ofFiles files = .ok all) ↔ ∀ f ∈ files, f.Fits :=
  foldlM_ok_iff step_ok_iff files []

/-- What holds of no analyses and is kept by one more default analysis holds of those of files. -/
theorem ofFiles_induction {P : List ChangedFile → FileAnalyses → Prop} {files : List ChangedFile}
    {all : FileAnalyses} (hnone : P [] [])
    (hput : ∀ seen done f a, P seen done → FileAnalysis.ofFile f = .ok a →
      P (seen ++ [f]) (done.put f.path a)) (h : ofFiles files = .ok all) : P files all := by
  refine foldlM_induction (f := step) hnone (fun seen done f done' hseen hstep => ?_) h
  obtain ⟨a, ha, rfl⟩ := exists_of_map_eq_ok hstep
  exact hput seen done f a hseen ha

/-- The paths with a default analysis are those of the files. -/
theorem lookup_ofFiles {files : List ChangedFile} {all : FileAnalyses} (h : ofFiles files = .ok all)
    (path : Text) : (all.lookup path).isSome = true ↔ path ∈ files.map (·.path) := by
  refine ofFiles_induction (P := fun files all =>
    (all.lookup path).isSome = true ↔ path ∈ files.map (·.path)) (by simp)
    (fun seen done f a hseen _ => ?_) h
  rw [lookup_put, hseen, List.map_append, List.mem_append, List.map_singleton, List.mem_singleton]

end FileAnalyses

end ChangeReview
