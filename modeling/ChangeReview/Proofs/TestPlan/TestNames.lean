import ChangeReview.Proofs.Text.FileNames
import ChangeReview.Proofs.Text.LowerCase
import ChangeReview.TestPlan.Suggest

/-!
# The names of tests

A test is told by its extension and what stands in front of it. The test suggested for a file has
the file's own extension, whatever it is, and so is told as a test just where that extension is one
of a few, in lower case; in Python no line feed may stand in the name.
-/
namespace ChangeReview

namespace PathPattern

variable {front e : Text}

theorem endpoints_extension (hline : '\n' ∉ e) (front : Text) :
    endpoints (front ++ '.' :: e) = [front ++ '.' :: e] := by
  have hlast : ∀ rest, (front ++ '.' :: e).reverse ≠ '\n' :: rest := by
    intro rest hrest
    cases hreverse : e.reverse with
    | nil => simp [hreverse] at hrest
    | cons c r =>
      have hc : c ∈ e := List.mem_reverse.mp (by simp [hreverse])
      rw [List.reverse_append, List.reverse_cons, hreverse, List.cons_append,
        List.cons_append] at hrest
      obtain ⟨rfl, -⟩ := List.cons.inj hrest
      exact hline hc
  unfold endpoints
  split
  · next rest hrest => exact absurd hrest (hlast rest)
  · rfl

/-- An ending that holds one point agrees with the extension from there on. -/
theorem suffix_extension_iff {x y : Text} (he : '.' ∉ e) (hy : '.' ∉ y) :
    x ++ '.' :: y <:+ front ++ '.' :: e ↔ y = e ∧ x <:+ front := by
  constructor
  · rintro ⟨r, hr⟩
    rw [← List.append_assoc] at hr
    have hsplit := Text.splitLast_append hy (r ++ x)
    rw [hr, Text.splitLast_append he] at hsplit
    obtain ⟨rfl, rfl⟩ := Prod.mk.inj (Option.some.inj hsplit)
    exact ⟨rfl, List.suffix_append r x⟩
  · rintro ⟨rfl, r, rfl⟩
    exact ⟨r, by simp⟩

theorem endsWith_extension_iff {x y : Text} (he : '.' ∉ e) (hy : '.' ∉ y) :
    Text.endsWith (front ++ '.' :: e) (x ++ '.' :: y) = true ↔ y = e ∧ x <:+ front :=
  List.isSuffixOf_iff_suffix.trans (suffix_extension_iff he hy)

/-- Endings with a point tell a path by its extension and the marks in front of it. -/
theorem accepts_endsIn_iff {marks : List (Text × Text)} (he : '.' ∉ e) (hline : '\n' ∉ e)
    (hmarks : ∀ m ∈ marks, '.' ∉ m.2) :
    (endsIn (marks.map fun m => m.1 ++ '.' :: m.2)).accepts (front ++ '.' :: e) = true ↔
      ∃ mark, (mark, e) ∈ marks ∧ mark <:+ front := by
  simp only [accepts, endpoints_extension hline, List.any_cons, List.any_nil, Bool.or_false,
    List.any_map, List.any_eq_true, Function.comp_apply]
  constructor
  · rintro ⟨⟨mark, y⟩, hm, hends⟩
    obtain ⟨rfl, hfront⟩ := (endsWith_extension_iff he (hmarks _ hm)).mp hends
    exact ⟨mark, hm, hfront⟩
  · rintro ⟨mark, hm, hfront⟩
    exact ⟨(mark, e), hm, (endsWith_extension_iff he he).mpr ⟨rfl, hfront⟩⟩

/-- A fragment in front of an ending tells a path by its extension and its last line. -/
theorem accepts_spans_iff {fragment y : Text} (he : '.' ∉ e) (hline : '\n' ∉ e) (hy : '.' ∉ y) :
    (spans fragment ['.' :: y]).accepts (front ++ '.' :: e) = true ↔
      y = e ∧ fragment <:+: lastLine front := by
  have hends : Text.endsWith (front ++ '.' :: e) ('.' :: y) = true ↔ y = e := by
    refine (endsWith_extension_iff (x := []) he hy).trans ?_
    simp only [List.nil_suffix, and_true]
  simp only [accepts, endpoints_extension hline, List.any_cons, List.any_nil, Bool.or_false,
    dropEnding?]
  by_cases hext : y = e
  · subst hext
    rw [if_pos (hends.mpr rfl)]
    simp [Text.occurs_iff]
  · rw [if_neg fun h => hext (hends.mp h)]
    simp [hext]

/-! ## The last line -/

theorem lastLine_append {s : Text} (h : '\n' ∉ s) (t : Text) :
    lastLine (t ++ s) = lastLine t ++ s := by
  have hline : ∀ c ∈ s.reverse, (c != '\n') = true := by
    intro c hc
    rw [bne_iff_ne]
    rintro rfl
    exact h (List.mem_reverse.mp hc)
  rw [lastLine, List.reverse_append, List.takeWhile_append_of_pos hline, List.reverse_append,
    List.reverse_reverse]
  rfl

theorem lastLine_append_of_mem {s : Text} (h : '\n' ∈ s) (t : Text) :
    lastLine (t ++ s) = lastLine s := by
  obtain ⟨front, back, rfl, hback⟩ := Text.exists_splitLast h
  have hsplit : ∀ u : Text, lastLine (u ++ '\n' :: back) = back := by
    intro u
    have hbreak : u ++ '\n' :: back = (u ++ ['\n']) ++ back := by simp
    rw [hbreak, lastLine_append hback]
    simp [lastLine]
  rw [← List.append_assoc, hsplit, hsplit]

end PathPattern

namespace TestPlan

open PathPattern (lastLine)

/-- What a path ends in that has a mark in front of its extension. -/
def ending (m : Text × Text) : Text := m.1 ++ '.' :: m.2

/-- The extensions of scripts behind what the names of their tests end in. -/
def scriptMarks (mark : Text) : List (Text × Text) :=
  [(mark, "js"), (mark, "jsx"), (mark, "ts"), (mark, "tsx")]

/-- What the names of Python tests end in. -/
def pythonMarks : List (Text × Text) := [("_test", "py")]

/-- What the names of the tests of compiled code end in, and the extensions. -/
def compiledMarks : List (Text × Text) :=
  [(".test", "go"), ("_test", "go"), ("Test", "java"), (".test", "rs")]

/-- What the names of tests end in, and the extension behind it. -/
def testMarks : List (Text × Text) :=
  scriptMarks ".test" ++ (scriptMarks ".spec" ++ (pythonMarks ++ compiledMarks))

/-- Which paths are those of tests. -/
theorem isTestFile_iff {front e : Text} (he : '.' ∉ e) (hline : '\n' ∉ e) :
    isTestFile (front ++ '.' :: e) = true ↔
      (∃ mark, (mark, e) ∈ testMarks ∧ mark <:+ front) ∨
        e = "py" ∧ "test_" <:+: lastLine front := by
  have hpatterns : testPatterns = [
      .endsIn ((scriptMarks ".test").map ending), .endsIn ((scriptMarks ".spec").map ending),
      .endsIn (pythonMarks.map ending), .spans "test_" ['.' :: "py"],
      .endsIn (compiledMarks.map ending)] := rfl
  have hends : ∀ marks : List (Text × Text), (∀ m ∈ marks, m ∈ testMarks) →
      ((PathPattern.endsIn (marks.map ending)).accepts (front ++ '.' :: e) = true ↔
        ∃ mark, (mark, e) ∈ marks ∧ mark <:+ front) := by
    intro marks hmarks
    refine PathPattern.accepts_endsIn_iff he hline fun m hm => ?_
    exact (by decide : ∀ m ∈ testMarks, '.' ∉ m.2) m (hmarks m hm)
  have htest := hends (scriptMarks ".test") (by decide)
  have hspec := hends (scriptMarks ".spec") (by decide)
  have hpython := hends pythonMarks (by decide)
  have hcompiled := hends compiledMarks (by decide)
  have hspans : (PathPattern.spans "test_" ['.' :: "py"]).accepts (front ++ '.' :: e) = true ↔
      "py" = e ∧ "test_" <:+: lastLine front :=
    PathPattern.accepts_spans_iff he hline (by decide)
  unfold isTestFile
  simp only [hpatterns, List.any_cons, List.any_nil, Bool.or_eq_true, Bool.false_eq_true, or_false,
    htest, hspec, hpython, hspans, hcompiled, testMarks, List.mem_append, or_and_right, exists_or,
    or_assoc]
  rw [or_comm (a := ("py" : Text) = e ∧ _), eq_comm (a := e)]

/-! ## The test of a file -/

/-- What a test's name has in front of and behind the base name of a file with the extension. -/
inductive IsAffix (ext : Text) : Text → Text → Prop where
  | python : ext = ".py" → IsAffix ext "test_" []
  | go : ext = ".go" → IsAffix ext [] "_test"
  | plain : ext ≠ ".py" → ext ≠ ".go" → IsAffix ext [] ".test"
  | script : isScript ext = true → IsAffix ext [] ".spec"

theorem exists_testName (base ext : Text) : ∃ front back, IsAffix ext front back ∧
    testName base ext = front ++ base ++ back ++ ext := by
  unfold testName
  split
  · next hpython =>
    obtain rfl := eq_of_beq hpython
    exact ⟨_, _, .python rfl, by simp⟩
  · next hpython =>
    split
    · next hgo =>
      obtain rfl := eq_of_beq hgo
      exact ⟨_, _, .go rfl, by simp⟩
    · next hgo =>
      exact ⟨_, _, .plain (by simpa using hpython) (by simpa using hgo), by simp⟩

theorem isAffix_script {ext : Text} (h : isScript ext = true) : IsAffix ext [] ".test" := by
  have hscripts : ∀ x ∈ scriptExtensions, x ≠ ".py" ∧ x ≠ ".go" := by decide
  obtain ⟨hpython, hgo⟩ := hscripts ext (List.contains_iff_mem.mp h)
  exact .plain hpython hgo

/-- The path has the base name and the extension of the file with an affix, in some folder. -/
def IsTestFor (path t : Text) : Prop :=
  ∃ lead front back, Text.IsLead lead ∧ IsAffix (Text.extension path) front back ∧
    t = lead ++ (front ++ Text.stem path ++ back ++ Text.extension path)

theorem isTestFor_joinPath {path front back : Text} (h : IsAffix (Text.extension path) front back)
    (parent : Text) : IsTestFor path
      (Text.joinPath parent (front ++ Text.stem path ++ back ++ Text.extension path)) := by
  obtain ⟨lead, hlead, hjoin⟩ :=
    Text.exists_joinPath parent (front ++ Text.stem path ++ back ++ Text.extension path)
  exact ⟨lead, front, back, hlead, h, hjoin⟩

theorem isTestFor_testPath (path : Text) (framework : Framework) :
    IsTestFor path (testPath path framework) := by
  obtain ⟨folder, hsplit⟩ := Text.exists_isSplit path
  obtain ⟨front, back, haffix, hname⟩ := exists_testName (Text.stem path) (Text.extension path)
  have hbeside := isTestFor_joinPath haffix (Text.directory path)
  rw [← hname] at hbeside
  unfold testPath
  rw [hsplit.base]
  dsimp only
  split
  · exact hbeside
  · next hscript =>
    have hscript : isScript (Text.extension path) = true := by simpa using hscript
    cases framework with
    | jest => exact isTestFor_joinPath (isAffix_script hscript) _
    | vitest => exact isTestFor_joinPath (isAffix_script hscript) _
    | mocha => exact isTestFor_joinPath (.script hscript) _
    | pytest => exact hbeside
    | other name => exact hbeside

/-- The extensions of files whose tests are told by them. -/
def toldExtensions : List Text := [".ts", ".tsx", ".js", ".jsx", ".go", ".rs"]

/-- The tests of the file have names by which tests are told. -/
def HasToldTests (path : Text) : Prop :=
  Text.extension path ∈ toldExtensions ∨ Text.extension path = ".py" ∧ '\n' ∉ Text.stem path

instance (path : Text) : Decidable (HasToldTests path) :=
  inferInstanceAs (Decidable (_ ∨ _ ∧ _))

theorem exists_extension {path : Text} (h : isCodeFile path = true) :
    ∃ e, Text.extension path = '.' :: e ∧ '.' ∉ e ∧ '\n' ∉ e := by
  have hlower : Text.lower (Text.extension path) ∈ codeExtensions :=
    List.contains_iff_mem.mp (Bool.and_eq_true_iff.mp h).2
  have hcode : ∀ x ∈ codeExtensions, x ≠ [] ∧ '\n' ∉ x := by decide
  obtain ⟨hne, hline⟩ := hcode _ hlower
  obtain ⟨folder, hsplit⟩ := Text.exists_isSplit path
  rcases hsplit.point with hempty | ⟨e, he, hpoint⟩
  · rw [hempty] at hne
    exact absurd rfl hne
  · refine ⟨e, he, hpoint, fun hmem => hline (Text.mem_lower (by decide) (by decide) ?_)⟩
    rw [he]
    exact List.mem_cons_of_mem _ hmem

theorem suffix_of_append {mark t s : Text} (hmark : '\n' ∉ mark) (hs : '\n' ∈ s)
    (h : mark <:+ t ++ s) : mark <:+ s := by
  rcases List.suffix_or_suffix_of_suffix h (List.suffix_append t s) with hinside | haround
  · exact hinside
  · exact absurd (haround.subset hs) hmark

section Told

variable {path : Text}

/-- A Python test that is not told by its mark has a line feed in its name. -/
theorem told_python_iff (hext : Text.extension path = ".py") (hpath : isTestFile path = false)
    {front : Text} (hfront : front = "test_") (lead : Text) :
    isTestFile (lead ++ (front ++ Text.stem path ++ [] ++ Text.extension path)) = true ↔
      '\n' ∉ Text.stem path := by
  have hmarks : ∀ mark, (mark, "py".toList) ∈ testMarks ↔ mark = "_test" := by
    intro mark
    simp [testMarks, scriptMarks, pythonMarks, compiledMarks]
  have htold : ∀ whole : Text, isTestFile (whole ++ Text.extension path) = true ↔
      "_test" <:+ whole ∨ "test_" <:+: lastLine whole := by
    intro whole
    rw [hext]
    refine (isTestFile_iff (e := "py") (by decide) (by decide)).trans ?_
    simp only [hmarks, exists_eq_left, true_and]
  obtain ⟨folder, hsplit⟩ := Text.exists_isSplit path
  have huntold : ¬ ("_test" <:+ folder ++ Text.stem path ∨
      "test_" <:+: lastLine (folder ++ Text.stem path)) := by
    rw [← htold, List.append_assoc, ← hsplit.eq, hpath]
    exact Bool.false_ne_true
  rw [List.append_nil, ← List.append_assoc, htold]
  constructor
  · intro h hline
    refine huntold ?_
    rw [← List.append_assoc, PathPattern.lastLine_append_of_mem hline] at h
    rw [PathPattern.lastLine_append_of_mem hline]
    refine h.imp_left fun hmark => ?_
    exact (suffix_of_append (by decide) hline hmark).trans (List.suffix_append _ _)
  · intro hline
    have hname : '\n' ∉ front ++ Text.stem path := by
      rw [hfront]
      simpa using hline
    rw [PathPattern.lastLine_append hname, ← hfront]
    exact .inr ((List.prefix_append _ _).isInfix.trans (List.suffix_append _ _).isInfix)

section Extension

variable {e : Text} (he : Text.extension path = '.' :: e) (hpoint : '.' ∉ e) (hline : '\n' ∉ e)

include he hpoint hline

/-- A name that starts with the base name is told by what stands behind it. -/
theorem told_iff (lead back : Text) :
    isTestFile (lead ++ ([] ++ Text.stem path ++ back ++ Text.extension path)) = true ↔
      (∃ mark, (mark, e) ∈ testMarks ∧ mark <:+ lead ++ (Text.stem path ++ back)) ∨
        e = "py" ∧ "test_" <:+: lastLine (lead ++ (Text.stem path ++ back)) := by
  have hparts : lead ++ ([] ++ Text.stem path ++ back ++ Text.extension path) =
      lead ++ (Text.stem path ++ back) ++ '.' :: e := by
    rw [he]
    simp
  rw [hparts, isTestFile_iff hpoint hline]

theorem told_of_mark {mark : Text} (hmark : (mark, e) ∈ testMarks) (lead : Text) :
    isTestFile (lead ++ ([] ++ Text.stem path ++ mark ++ Text.extension path)) = true := by
  refine (told_iff he hpoint hline lead mark).mpr (.inl ⟨mark, hmark, ?_⟩)
  exact (List.suffix_append _ _).trans (List.suffix_append _ _)

/-- Under the plain form the extension alone tells a test. -/
theorem told_plain_iff (hpython : Text.extension path ≠ ".py") (hgo : Text.extension path ≠ ".go")
    (lead : Text) :
    isTestFile (lead ++ ([] ++ Text.stem path ++ (".test" : Text) ++ Text.extension path)) = true ↔
      Text.extension path ∈ toldExtensions := by
  have hmarks : ∀ m ∈ testMarks, '.' :: m.2 = ".py" ∨ '.' :: m.2 = ".go" ∨ m.1 = "Test" ∨
      '.' :: m.2 ∈ toldExtensions := by decide
  have hknown : ∀ x ∈ toldExtensions, x = ".go" ∨ ((".test" : Text), x.tail) ∈ testMarks := by
    decide
  constructor
  · intro h
    rcases (told_iff he hpoint hline lead ".test").mp h with ⟨mark, hmark, hends⟩ | ⟨rfl, -⟩
    · have hmark := hmarks _ hmark
      rw [← he] at hmark
      rcases hmark with hext | hext | rfl | hext
      · exact absurd hext hpython
      · exact absurd hext hgo
      · -- Both the mark and `.test` would end the name, which differ in their first letters.
        have hdot : ".test".toList <:+ lead ++ (Text.stem path ++ ".test".toList) :=
          (List.suffix_append _ _).trans (List.suffix_append _ _)
        have hinside : "Test".toList <:+ ".test".toList :=
          List.suffix_of_suffix_length_le hends hdot (by decide)
        exact absurd hinside (by decide)
      · exact hext
    · exact absurd he hpython
  · intro hext
    rcases hknown _ hext with hext | hmark
    · exact absurd hext hgo
    · rw [he, List.tail_cons] at hmark
      exact told_of_mark he hpoint hline hmark lead

end Extension

/-- A test suggested for a code file is told as one just if the tests of such files are. -/
theorem IsTestFor.isTestFile_iff {t : Text} (h : IsTestFor path t) (hcode : isCodeFile path = true)
    (hpath : isTestFile path = false) : isTestFile t = true ↔ HasToldTests path := by
  obtain ⟨lead, front, back, -, haffix, rfl⟩ := h
  obtain ⟨e, he, hpoint, hline⟩ := exists_extension hcode
  have htail : (Text.extension path).tail = e := by rw [he, List.tail_cons]
  cases haffix with
  | python hext =>
    rw [told_python_iff hext hpath rfl, HasToldTests, hext]
    simp [toldExtensions]
  | go hext =>
    have hgo : (".go" : Text) ∈ toldExtensions ∧ (("_test" : Text), "go".toList) ∈ testMarks := by
      decide
    rw [hext] at htail
    obtain rfl : "go".toList = e := htail
    exact iff_of_true (told_of_mark he hpoint hline hgo.2 lead) (.inl (hext ▸ hgo.1))
  | script hscript =>
    have hscripts : ∀ x ∈ scriptExtensions,
        x ∈ toldExtensions ∧ ((".spec" : Text), x.tail) ∈ testMarks := by decide
    obtain ⟨hknown, hmark⟩ := hscripts _ (List.contains_iff_mem.mp hscript)
    rw [htail] at hmark
    exact iff_of_true (told_of_mark he hpoint hline hmark lead) (.inl hknown)
  | plain hpython hgo =>
    rw [told_plain_iff he hpoint hline hpython hgo]
    exact (or_iff_left fun h => hpython h.1).symm

end Told

end TestPlan

end ChangeReview
