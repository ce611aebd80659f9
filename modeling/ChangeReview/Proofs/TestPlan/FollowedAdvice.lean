import ChangeReview.Proofs.Repository.SameFiles
import ChangeReview.Proofs.TestPlan.Suggestions
import ChangeReview.Proofs.TestPlan.TestNames

/-!
# Adding a suggested test

A file at the path of a suggested test settles the suggestion where its name is one by which tests
are told: it mentions the file it is for, or makes the tests as many as the code files. Where it is
not, the file is no test of the change, and its own file is suggested for testing as before.
-/
namespace ChangeReview.TestPlan

/-- What stands in front of the base name in a test's path shows no case, so the base name is
mentioned. A capital sigma at its end is told from a final one by what follows. -/
theorem IsTestFor.mentions {path t : Text} (h : IsTestFor path t)
    (hclose : Text.extension path = ".go" ∨ ¬ Text.ClosesInSigma (Text.stem path)) :
    Text.lower (Text.stem path) <:+: Text.lower t := by
  obtain ⟨lead, front, back, hlead, haffix, rfl⟩ := h
  have hfolder : Text.meetsCased lead.reverse = false := by
    cases hlead with
    | nil => rfl
    | slash front =>
      rw [List.reverse_append, List.reverse_singleton, List.singleton_append]
      exact Text.meetsCased_bar (by decide +kernel) (by decide +kernel) _
  have hfront : Text.meetsCased (lead ++ front).reverse = false := by
    rw [List.reverse_append]
    cases haffix with
    | python => exact Text.meetsCased_bar (c := '_') (by decide +kernel) (by decide +kernel) _
    | go => exact hfolder
    | plain => exact hfolder
    | script => exact hfolder
  have hback : Text.meetsCased (back ++ Text.extension path) = false ∨
      ¬ Text.ClosesInSigma (Text.stem path) := by
    refine hclose.imp_left fun hgo => ?_
    cases haffix with
    | python hext => exact absurd (hext.symm.trans hgo) (by decide)
    | go => rw [hgo]; decide +kernel
    | plain _ hext => exact absurd hgo hext
    | script hext => rw [hgo] at hext; exact absurd hext (by decide)
  have hparts : lead ++ (front ++ Text.stem path ++ back ++ Text.extension path) =
      lead ++ front ++ (Text.stem path ++ (back ++ Text.extension path)) := by
    simp only [List.append_assoc]
  rw [hparts]
  exact Text.lower_infix hfront hback

section Added

variable {front back : List ChangedFile} {f g : ChangedFile}

theorem sublist_added : (front ++ back).Sublist (front ++ g :: back) :=
  (List.sublist_cons_self g back).append_left front

theorem mem_added (h : f ∈ front ++ back) : f ∈ front ++ g :: back := sublist_added.subset h

/-- A test is one more test, and leaves the code files. -/
theorem testsAbound_test_iff (hg : isTestFile g.path = true) :
    TestsAbound (front ++ g :: back) ↔
      (codeFiles (front ++ back)).length ≤ (testPaths (front ++ back)).length + 1 := by
  have htests : (testPaths (front ++ g :: back)).length =
      (testPaths (front ++ back)).length + 1 := by
    simp [testPaths, hg, Nat.add_assoc]
  have hcode : codeFiles (front ++ g :: back) = codeFiles (front ++ back) :=
    codeFiles_inserted (.middle (P := fun f => isTestFile f.path = true) hg front back)
  rw [TestsAbound, htests, hcode]

/-- A file that is no test leaves the tests, and the code files as many or more. -/
theorem not_testsAbound_untold (hg : isTestFile g.path = false)
    (h : ¬ TestsAbound (front ++ back)) : ¬ TestsAbound (front ++ g :: back) := by
  have htests : testPaths (front ++ g :: back) = testPaths (front ++ back) := by
    simp [testPaths, hg]
  have hcode : (codeFiles (front ++ back)).length ≤ (codeFiles (front ++ g :: back)).length :=
    (sublist_added.filter _).length_le
  rw [TestsAbound, htests]
  exact fun habound => h (hcode.trans habound)

theorem callsForTest_added_iff : CallsForTest (front ++ g :: back) f ↔
    CallsForTest (front ++ back) f ∧
      (isTestFile g.path = true → ¬ Text.lower (Text.stem f.path) <:+: Text.lower g.path) := by
  have hmem : ∀ t, t ∈ front ++ g :: back ↔ t = g ∨ t ∈ front ++ back := by
    intro t
    simp [or_left_comm]
  constructor
  · intro h
    refine ⟨⟨h.code, h.notTest, h.large, fun t ht => h.unmentioned t ?_⟩, h.unmentioned g ?_⟩
    · exact (hmem t).mpr (.inr ht)
    · exact (hmem g).mpr (.inl rfl)
  · rintro ⟨h, hfree⟩
    refine ⟨h.code, h.notTest, h.large, fun t ht => ?_⟩
    rcases (hmem t).mp ht with rfl | ht
    · exact hfree
    · exact h.unmentioned t ht

/-- Adding a file takes an untested one off the list just if it is a test that mentions it or makes
the tests as many as the code files. -/
theorem untested_added_iff (h : f ∈ untested (front ++ back)) :
    f ∈ untested (front ++ g :: back) ↔ (isTestFile g.path = true →
      ¬ ((codeFiles (front ++ back)).length ≤ (testPaths (front ++ back)).length + 1 ∨
        Text.lower (Text.stem f.path) <:+: Text.lower g.path)) := by
  obtain ⟨hfew, hf, hcalls⟩ := mem_untested_iff.mp h
  have hmem : f ∈ front ++ g :: back := mem_added hf
  rw [mem_untested_iff, callsForTest_added_iff]
  cases hg : isTestFile g.path with
  | true => simp [testsAbound_test_iff hg, hmem, hcalls]
  | false => simp [not_testsAbound_untold hg hfew, hmem, hcalls]

end Added

section Change

variable {files : List ChangedFile} {f : ChangedFile} {given : Option Framework} {d : Disk}
  {repository : Value} {ss : List Suggestion}

theorem suggestUnder_forFile_iff (h : suggestUnder given d repository files = .ok ss)
    {path : Text} : (∃ s ∈ ss, s.forFile = path) ↔ ∃ f ∈ untested files, f.path = path := by
  rcases suggestUnder_eq_ok_iff.mp h with ⟨habound, rfl⟩ | ⟨-, framework, -, rfl⟩
  · simp [untested_of_testsAbound habound]
  · simp [suggestions, suggest]

/-- Whether a suggestion is for a large file of the change is up to that file, not to others of its
path. -/
theorem exists_untested_iff (hf : f ∈ files) (hlarge : 5 < f.additions) :
    (∃ f' ∈ untested files, f'.path = f.path) ↔ f ∈ untested files := by
  constructor
  · rintro ⟨f', hf', hpath⟩
    obtain ⟨hfew, -, hcalls⟩ := mem_untested_iff.mp hf'
    refine mem_untested_iff.mpr ⟨hfew, hf, ?_⟩
    exact ⟨hpath ▸ hcalls.code, hpath ▸ hcalls.notTest, hlarge, hpath ▸ hcalls.unmentioned⟩
  · intro h
    exact ⟨f, h, rfl⟩

/-- Where the framework is known, every change gets its suggestions, if only an empty list. -/
theorem exists_suggestUnder {framework : Framework}
    (h : frameworkOf given d repository = .ok framework) (files : List ChangedFile) :
    ∃ ss, suggestUnder given d repository files = .ok ss := by
  rw [suggestUnder_eq, h]
  split
  · exact ⟨_, rfl⟩
  · exact ⟨_, rfl⟩

/-- A repository without configuration files gets its suggestions under no known framework. -/
theorem suggestUnder_bare {root : Text} (h : d.IsBare root) (files : List ChangedFile) :
    suggestUnder none d (.text root) files = .ok (suggestions .unknown files) := by
  have hframework : frameworkOf none d (.text root) = .ok .unknown := h.detect
  rw [suggestUnder_eq, hframework]
  split
  · next habound => simp [suggestions, untested_of_testsAbound habound]
  · rfl

end Change

/-- A modified file with six further lines. -/
def sixLines (path : Text) : ChangedFile := { path, additions := 6 }

/-- A file that comes with the change. -/
def newFile (path : Text) : ChangedFile := { path, status := .added }

theorem newFile_path (path : Text) : (newFile path).path = path := rfl

/-- When a file is added at the path of a suggested test, anywhere in the change, its own file gets
no suggestion any more just if tests of its extension are told by their names, and the test mentions
it or makes the tests as many as the code files. The test mentions it unless the base name closes in
a capital sigma. -/
theorem following_resolves_iff {given : Option Framework} {d : Disk} {repository : Value}
    {front back : List ChangedFile} {ss : List Suggestion} {s : Suggestion} {g : ChangedFile}
    (h : suggestUnder given d repository (front ++ back) = .ok ss) (hs : s ∈ ss)
    (hg : g.path = s.path) :
    ∃ more, suggestUnder given d repository (front ++ g :: back) = .ok more ∧
      ((∀ r ∈ more, r.forFile ≠ s.forFile) ↔ HasToldTests s.forFile ∧
        ((codeFiles (front ++ back)).length ≤ (testPaths (front ++ back)).length + 1 ∨
          Text.lower (Text.stem s.forFile) <:+: Text.lower s.path)) ∧
      (HasToldTests s.forFile → Text.extension s.forFile = ".go" ∨
        ¬ Text.ClosesInSigma (Text.stem s.forFile) → ∀ r ∈ more, r.forFile ≠ s.forFile) := by
  obtain ⟨hfew, framework, hframework, f, hmem, hcalls, rfl⟩ := (mem_suggestUnder_iff h).mp hs
  obtain ⟨more, hmore⟩ := exists_suggestUnder hframework (front ++ g :: back)
  have hf : f ∈ untested (front ++ back) := mem_untested_iff.mpr ⟨hfew, hmem, hcalls⟩
  have hadded : f ∈ front ++ g :: back := mem_added hmem
  have htest : IsTestFor f.path g.path := hg ▸ isTestFor_testPath f.path framework
  have htold : isTestFile g.path = true ↔ HasToldTests f.path :=
    htest.isTestFile_iff hcalls.code hcalls.notTest
  have hresolved : (∀ r ∈ more, r.forFile ≠ f.path) ↔ HasToldTests f.path ∧
      ((codeFiles (front ++ back)).length ≤ (testPaths (front ++ back)).length + 1 ∨
        Text.lower (Text.stem f.path) <:+: Text.lower g.path) := by
    have hnone : (∀ r ∈ more, r.forFile ≠ f.path) ↔ ¬ ∃ r ∈ more, r.forFile = f.path := by simp
    rw [hnone, suggestUnder_forFile_iff hmore, exists_untested_iff hadded hcalls.large,
      untested_added_iff hf, htold, Classical.not_imp, not_not]
  refine ⟨more, hmore, hg ▸ hresolved, fun hknown hclose => ?_⟩
  exact hresolved.mpr ⟨hknown, .inr (htest.mentions hclose)⟩

/-- Two scripts are suggested for testing; a test of the first, added between them, resolves its
suggestion. -/
theorem following_resolves_script :
    let pricing := sixLines "src/pricing.ts"
    let cart := sixLines "src/cart.ts"
    let s := suggest .unknown pricing
    suggestUnder none {} (.text ".") ([pricing] ++ [cart]) =
        .ok [s, suggest .unknown cart] ∧
      s.path = "src/pricing.test.ts" ∧ HasToldTests pricing.path ∧
      ¬ Text.ClosesInSigma (Text.stem pricing.path) ∧
      ∃ more, suggestUnder none {} (.text ".") ([pricing] ++ newFile s.path :: [cart]) = .ok more ∧
        ∀ r ∈ more, r.forFile ≠ pricing.path := by
  intro pricing cart s
  have huntested : untested ([pricing] ++ [cart]) = [pricing, cart] := by decide +kernel
  have hss : suggestUnder none {} (.text ".") ([pricing] ++ [cart]) =
      .ok [s, suggest .unknown cart] := by
    rw [suggestUnder_bare isBare_empty, suggestions, huntested]
    rfl
  have hpath : s.path = "src/pricing.test.ts" := by decide +kernel
  have htold : HasToldTests pricing.path := by decide
  have hopen : ¬ Text.ClosesInSigma (Text.stem pricing.path) :=
    Text.not_closesInSigma (by decide)
  obtain ⟨more, hmore, -, hresolved⟩ :=
    following_resolves_iff hss List.mem_cons_self (newFile_path s.path)
  exact ⟨hss, hpath, htold, hopen, more, hmore, hresolved htold (.inr hopen)⟩

/-- The test that is suggested for a Ruby file is not told as a test, so the file is suggested for
testing again. -/
theorem ruby_suggestion_stays :
    let pricing := sixLines "lib/pricing.rb"
    let s := suggest .unknown pricing
    suggestFor {} (.text ".") [pricing] = .ok [s] ∧ s.path = "lib/pricing.test.rb" ∧
      suggestFor {} (.text ".") [pricing, newFile s.path] = .ok [s] := by
  intro pricing s
  have hsuggests : ∀ files, untested files = [pricing] →
      suggestFor {} (.text ".") files = .ok [s] := by
    intro files huntested
    have h := suggestUnder_bare isBare_empty files
    rw [suggestions, huntested] at h
    exact h
  have hpath : s.path = "lib/pricing.test.rb" := by decide +kernel
  exact ⟨hsuggests _ (by decide +kernel), hpath, hsuggests _ (by decide +kernel)⟩

end ChangeReview.TestPlan
