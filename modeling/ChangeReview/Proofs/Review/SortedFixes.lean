import ChangeReview.Proofs.Review.ModelFixes
import ChangeReview.Scan.Finding

/-!
# Sorted fixes

Sorting lists fixes by severity, and a list that is cut to a limit is still sorted. Neither makes up
a fix, so the fixes of one source stay those of one source.
-/
namespace ChangeReview.Fix

/-- No fix stands behind one that is less urgent. -/
def IsSorted (fixes : List Fix) : Prop :=
  fixes.Pairwise fun a b => a.severity.rank ≤ b.severity.rank

/-- All fixes come from one source. -/
def AllFrom (source : FixSource) (fixes : List Fix) : Prop := ∀ f ∈ fixes, f.source = source

theorem isSorted_sort (fixes : List Fix) : IsSorted (sort fixes) := by
  have hsorted : (sort fixes).Pairwise fun a b =>
      decide (a.severity.rank ≤ b.severity.rank) = true :=
    List.pairwise_mergeSort (by simp; omega) (by simp; omega) fixes
  simpa [IsSorted] using hsorted

theorem mem_sort {fixes : List Fix} {f : Fix} : f ∈ sort fixes ↔ f ∈ fixes := List.mem_mergeSort

/-- A limit takes fixes from the end only. -/
theorem prioritize_sublist (fixes : List Fix) (limit : Option Int) :
    (prioritize fixes limit).Sublist (sort fixes) := by
  unfold prioritize Text.takeLimit
  rcases limit with _ | (n | n)
  · exact List.Sublist.refl _
  · exact List.take_sublist _ _
  · exact List.take_sublist _ _

theorem isSorted_prioritize (fixes : List Fix) (limit : Option Int) :
    IsSorted (prioritize fixes limit) :=
  (isSorted_sort fixes).sublist (prioritize_sublist fixes limit)

section AllFrom

variable {source : FixSource} {fixes : List Fix}

theorem AllFrom.sort (h : AllFrom source fixes) : AllFrom source (sort fixes) :=
  fun f hf => h f (mem_sort.mp hf)

theorem AllFrom.prioritize (h : AllFrom source fixes) (limit : Option Int) :
    AllFrom source (prioritize fixes limit) :=
  fun f hf => h.sort f ((prioritize_sublist fixes limit).subset hf)

theorem allFrom_findings (findings : List Finding) :
    AllFrom .scanner (findings.map Finding.toFix) := by
  intro f hf
  obtain ⟨finding, -, rfl⟩ := List.mem_map.mp hf
  rfl

/-- What an entry of a reply describes is a fix of the model. -/
theorem source_ofEntry {entry : Value} {f : Fix} (h : ofEntry entry = .ok (some f)) :
    f.source = .model := by
  rcases ofEntry_cases entry with ⟨fix, hread, -, htidy, -⟩ | ⟨fault, hread, -⟩
  · obtain rfl := Except.ok.inj (hread.symm.trans h)
    exact (htidy f rfl).source
  · exact absurd (hread.symm.trans h) (by simp)

theorem allFrom_ofEntries {entries : List Value} (h : ofEntries entries = .ok fixes) :
    AllFrom .model fixes := by
  intro f hf
  obtain ⟨entry, -, hentry⟩ := exists_entry_of_mem h hf
  exact source_ofEntry hentry

end AllFrom

/-- The fix for credentials is critical, and counts as one of the model. -/
theorem credentialFix_kind {diff : Text} {files : List ChangedFile} {f : Fix}
    (h : credentialFix diff files = some f) : f.severity = .critical ∧ f.source = .model := by
  unfold credentialFix at h
  split at h
  · obtain rfl := Option.some.inj h
    exact ⟨rfl, rfl⟩
  · exact absurd h (by simp)

/-- There is a fix for credentials just if the diff mentions some. -/
theorem isSome_credentialFix (diff : Text) (files : List ChangedFile) :
    (credentialFix diff files).isSome = mentionsCredential diff := by
  unfold credentialFix
  cases mentionsCredential diff <;> rfl

end ChangeReview.Fix
