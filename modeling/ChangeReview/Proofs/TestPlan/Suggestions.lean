import ChangeReview.Proofs.Text.Occurrences
import ChangeReview.TestPlan.Suggest

/-!
# Which files are suggested for testing

A code file calls for a test by its own path and size, unless a test of the change mentions it, and
nothing is suggested where the tests are no fewer than the code files. So a test that is added can
only take suggestions away, and a file that is neither code nor a test bears on none.
-/
namespace ChangeReview

/-- The second list is the first with further items that satisfy `P` at any places. -/
inductive Inserted {α : Type} (P : α → Prop) : List α → List α → Prop where
  | nil : Inserted P [] []
  | keep (a : α) {xs ys : List α} : Inserted P xs ys → Inserted P (a :: xs) (a :: ys)
  | insert {a : α} {xs ys : List α} : P a → Inserted P xs ys → Inserted P xs (a :: ys)

namespace Inserted

variable {α : Type} {P : α → Prop} {xs ys : List α}

theorem refl (xs : List α) : Inserted P xs xs := by
  induction xs with
  | nil => exact .nil
  | cons a xs ih => exact .keep a ih

/-- A single item is inserted behind any others. -/
theorem middle {a : α} (ha : P a) (front back : List α) :
    Inserted P (front ++ back) (front ++ a :: back) := by
  induction front with
  | nil => exact .insert ha (refl back)
  | cons b front ih => exact .keep b ih

theorem sublist (h : Inserted P xs ys) : xs.Sublist ys := by
  induction h with
  | nil => exact List.Sublist.refl []
  | keep a _ ih => exact ih.cons_cons a
  | insert _ _ ih => exact ih.cons _

/-- A filter that lets none of the further items through does not tell the lists apart. -/
theorem filter_eq {q : α → Bool} (h : Inserted P xs ys) (hq : ∀ a, P a → q a = false) :
    ys.filter q = xs.filter q := by
  induction h with
  | nil => rfl
  | keep a _ ih => rw [List.filter_cons, List.filter_cons, ih]
  | insert ha _ ih => rw [List.filter_cons_of_neg (by simp [hq _ ha]), ih]

end Inserted

namespace TestPlan

/-- The tests of a change are no fewer than its code files. -/
def TestsAbound (files : List ChangedFile) : Prop :=
  (codeFiles files).length ≤ (testPaths files).length

instance (files : List ChangedFile) : Decidable (TestsAbound files) :=
  inferInstanceAs (Decidable (_ ≤ _))

/-- The file is code that a change should have brought a test for. -/
structure CallsForTest (files : List ChangedFile) (f : ChangedFile) : Prop where
  code : isCodeFile f.path = true
  notTest : isTestFile f.path = false
  large : 5 < f.additions
  unmentioned : ∀ t ∈ files, isTestFile t.path = true →
    ¬ Text.lower (Text.stem f.path) <:+: Text.lower t.path

/-- The framework that is given, or the one that the repository shows. -/
def frameworkOf (given : Option Framework) (d : Disk) (repository : Value) :
    Except Fault Framework :=
  match given with
  | some framework => .ok framework
  | none => repository.toPath >>= Framework.detect d

/-- The tests suggested for a change under the framework that is given or, if none is, under the one
that the repository shows. -/
def suggestUnder (given : Option Framework) (d : Disk) (repository : Value)
    (files : List ChangedFile) : Except Fault (List Suggestion) :=
  match given with
  | some framework => .ok (suggestions framework files)
  | none => suggestFor d repository files

section Change

variable {files more : List ChangedFile} {f : ChangedFile} {given : Option Framework} {d : Disk}
  {repository : Value}

theorem mem_codeFiles_iff :
    f ∈ codeFiles files ↔ f ∈ files ∧ isCodeFile f.path = true ∧ isTestFile f.path = false := by
  simp [codeFiles]

theorem isCovered_iff {f : ChangedFile} : isCovered (testPaths files) f = true ↔
    ∃ t ∈ files, isTestFile t.path = true ∧
      Text.lower (Text.stem f.path) <:+: Text.lower t.path := by
  simp [isCovered, testPaths, Text.occurs_iff]

theorem untested_of_testsAbound (h : TestsAbound files) : untested files = [] := if_pos h

theorem untested_of_not_testsAbound (h : ¬ TestsAbound files) :
    untested files = (codeFiles files).filter fun f =>
      !isCovered (testPaths files) f && minAdditions < f.additions := if_neg h

theorem mem_untested_iff :
    f ∈ untested files ↔ ¬ TestsAbound files ∧ f ∈ files ∧ CallsForTest files f := by
  by_cases habound : TestsAbound files
  · rw [untested_of_testsAbound habound]
    simp [habound]
  · have hcovered : isCovered (testPaths files) f = false ↔ ∀ t ∈ files,
        isTestFile t.path = true → ¬ Text.lower (Text.stem f.path) <:+: Text.lower t.path := by
      rw [← Bool.not_eq_true, isCovered_iff]
      simp
    rw [untested_of_not_testsAbound habound, List.mem_filter, mem_codeFiles_iff, Bool.and_eq_true,
      Bool.not_eq_true', hcovered, decide_eq_true_eq]
    constructor
    · rintro ⟨⟨hf, hcode, htest⟩, hfree, hlarge⟩
      exact ⟨habound, hf, hcode, htest, hlarge, hfree⟩
    · rintro ⟨-, hf, hcalls⟩
      exact ⟨⟨hf, hcalls.code, hcalls.notTest⟩, hcalls.unmentioned, hcalls.large⟩

/-- The framework is asked for only where the code files outnumber the tests. -/
theorem suggestUnder_eq : suggestUnder given d repository files =
    if TestsAbound files then .ok []
    else (frameworkOf given d repository).map (suggestions · files) := by
  cases given with
  | some framework =>
    split
    · next habound => simp [suggestUnder, suggestions, untested_of_testsAbound habound]
    · rfl
  | none =>
    show suggestFor d repository files = _
    unfold suggestFor
    by_cases habound : TestsAbound files
    · rw [if_pos habound]
      exact if_pos habound
    · rw [if_neg habound]
      refine (if_neg habound).trans ?_
      show _ = Except.map _ (repository.toPath >>= Framework.detect d)
      cases repository.toPath with
      | error fault => rfl
      | ok path => exact (map_eq_pure_bind _ (Framework.detect d path)).symm

theorem suggestUnder_eq_ok_iff {ss : List Suggestion} :
    suggestUnder given d repository files = .ok ss ↔
      TestsAbound files ∧ ss = [] ∨ ¬ TestsAbound files ∧ ∃ framework,
        frameworkOf given d repository = .ok framework ∧ ss = suggestions framework files := by
  rw [suggestUnder_eq]
  split
  · next habound => simp [habound, eq_comm]
  · next habound =>
    cases frameworkOf given d repository <;> simp [habound, Except.map, eq_comm]

/-- The suggestions are those for the files that call for a test. -/
theorem mem_suggestUnder_iff {ss : List Suggestion} {s : Suggestion}
    (h : suggestUnder given d repository files = .ok ss) : s ∈ ss ↔ ¬ TestsAbound files ∧
      ∃ framework, frameworkOf given d repository = .ok framework ∧
        ∃ f ∈ files, CallsForTest files f ∧ suggest framework f = s := by
  rcases suggestUnder_eq_ok_iff.mp h with ⟨habound, rfl⟩ | ⟨-, framework, hframework, rfl⟩
  · exact iff_of_false List.not_mem_nil fun h => h.1 habound
  · simp only [suggestions, List.mem_map, mem_untested_iff]
    constructor
    · rintro ⟨f, ⟨hfew, hf, hcalls⟩, hs⟩
      exact ⟨hfew, framework, hframework, f, hf, hcalls, hs⟩
    · rintro ⟨hfew, framework', hframework', f, hf, hcalls, hs⟩
      obtain rfl := Except.ok.inj (hframework.symm.trans hframework')
      exact ⟨f, ⟨hfew, hf, hcalls⟩, hs⟩

/-! ## Further files -/

section Tests

variable (h : Inserted (fun f => isTestFile f.path = true) files more)

include h

/-- Tests that are added leave the code files. -/
theorem codeFiles_inserted : codeFiles more = codeFiles files :=
  h.filter_eq fun f hf => by simp [hf]

end Tests

end Change

end TestPlan

end ChangeReview
