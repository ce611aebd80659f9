import ChangeReview.Proofs.Faults
import ChangeReview.Proofs.Order.StableSort
import ChangeReview.Proofs.Workflow.CallProtocol
import ChangeReview.Proofs.Review.SortedFixes

/-!
# Counting findings and listing them

The counts of findings are taken one finding at a time, and their fixes are sorted all at once. Both
go by the level, of which each severity has one, so the counts are those of the fixes: per severity,
sorting lists the fixes in the order of their findings.
-/
namespace ChangeReview

namespace FindingLevel

/-- Each severity belongs to one level. -/
theorem severity_injective : Function.Injective severity := by
  intro a b h
  cases a <;> cases b <;> first | rfl | exact absurd h (by decide)

end FindingLevel

/-! ## Counts -/

/-- The counts are those of the findings. -/
structure FindingsSummary.Tallies (s : FindingsSummary) (findings : List Finding) : Prop where
  total : s.total = findings.length
  errors : s.errors = findings.countP fun f => f.level = .error
  warnings : s.warnings = findings.countP fun f => f.level = .warning
  infos : s.infos = findings.countP fun f => f.level = .info
  critical : s.critical = findings.filter fun f => f.level = .error

namespace FindingsSummary

theorem tallies_nil : Tallies {} [] := ⟨rfl, rfl, rfl, rfl, rfl⟩

theorem Tallies.add {s s' : FindingsSummary} {seen : List Finding} {f : Finding}
    (h : s.Tallies seen) (hadd : s.add f = .ok s') : s'.Tallies (seen ++ [f]) := by
  obtain ⟨categories, -, hadd⟩ := exists_of_bind_eq_ok hadd
  obtain ⟨files, -, hadd⟩ := exists_of_bind_eq_ok hadd
  obtain rfl := Except.ok.inj hadd
  constructor
  · simp [h.total]
  · simp [h.errors, List.countP_cons]
  · simp [h.warnings, List.countP_cons]
  · simp [h.infos, List.countP_cons]
  · rw [List.filter_append, ← h.critical]
    by_cases herror : f.level = .error <;> simp [herror]

/-- The summary of findings has their counts. -/
theorem tallies_ofFindings {findings : List Finding} {s : FindingsSummary}
    (h : ofFindings findings = .ok s) : s.Tallies findings :=
  foldlM_induction (P := fun seen s => Tallies s seen) tallies_nil
    (fun _ _ _ _ hseen hadd => hseen.add hadd) h

end FindingsSummary

/-! ## Findings that are kept -/

/-- The findings are kept in the order in which the scanner gave them. -/
theorem Finding.keep_eq_filter {changed : List Text} {findings kept : List Finding}
    (h : keep changed findings = .ok kept) :
    kept = findings.filter fun f => (f.concerns changed).toOption == some true := by
  induction findings generalizing kept with
  | nil => exact (Except.ok.inj h).symm
  | cons f rest ih =>
    unfold keep at h
    split at h
    · exact absurd h (by simp)
    · next concerned hf =>
      split at h
      · exact absurd h (by simp)
      · next more hmore =>
        obtain rfl := Except.ok.inj h
        rw [List.filter_cons, hf, ← ih hmore]
        cases concerned <;> rfl

/-! ## Sorting -/

/-- A stable sort leaves things that it cannot tell apart in their order. -/
theorem Order.filter_mergeSort {α : Type} {le : α → α → Bool} {p : α → Bool}
    (trans : ∀ a b c, le a b = true → le b c = true → le a c = true)
    (total : ∀ a b, (le a b || le b a) = true)
    (halike : ∀ a b, p a = true → p b = true → le a b = true) (l : List α) :
    (l.mergeSort le).filter p = l.filter p := by
  have hordered : (l.filter p).Pairwise fun a b => le a b = true :=
    List.pairwise_of_forall_mem_list fun a ha b hb =>
      halike a b (List.mem_filter.mp ha).2 (List.mem_filter.mp hb).2
  have hsub : (l.filter p).Sublist ((l.mergeSort le).filter p) := by
    simpa using (List.sublist_mergeSort trans total hordered List.filter_sublist).filter p
  refine (hsub.eq_of_length ?_).symm
  exact ((List.mergeSort_perm l le).filter p).length_eq.symm

/-- Fixes of one severity are listed in their order. -/
theorem Fix.filter_sort (fixes : List Fix) (severity : Severity) :
    (sort fixes).filter (fun f => f.severity = severity) =
      fixes.filter fun f => f.severity = severity := by
  refine Order.filter_mergeSort (by simp; omega) (by simp; omega) (fun a b ha hb => ?_) fixes
  simp only [decide_eq_true_eq] at ha hb ⊢
  rw [ha, hb]

end ChangeReview
