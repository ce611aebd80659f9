import ChangeReview.Proofs.Decimal.QuotientRange
import ChangeReview.Proofs.Faults
import ChangeReview.Proofs.Repository.Entries
import ChangeReview.Proofs.Repository.SameFiles
import ChangeReview.Proofs.Value.ReadFaults

/-!
# Reports that break off

A file that holds no report is passed over, whatever its bytes. A search for the coverage breaks off
only at a document beyond reading, in the manifest or in a summary, and at a tracefile in which some
count of hits is too large a multiple of its count of lines; and only if no file before it holds a
report. Rates never break off.
-/
namespace ChangeReview

namespace Disk

/-! ## Paths that are not too long -/

/-- A path that no disk finds too long: neither it nor a name along it has too many bytes. -/
structure IsShort (path : Text) : Prop where
  whole : (Text.toUtf8 (Text.tidyPath path)).size ≤ maxPathBytes
  names : ∀ name ∈ Text.pathComponents path, (Text.toUtf8 name).size ≤ maxNameBytes

theorem follow_ne_nameTooLong (d : Disk) {names : List Text}
    (h : ∀ name ∈ names, (Text.toUtf8 name).size ≤ maxNameBytes) (here : Place) :
    d.follow here names ≠ .error .nameTooLong := by
  induction names generalizing here with
  | nil => simp [follow]
  | cons name rest ih =>
    obtain ⟨hname, hrest⟩ := List.forall_mem_cons.mp h
    unfold follow
    split
    · simp
    · simp
    · split
      · exact ih hrest _
      · rw [if_neg (Nat.not_lt.mpr hname)]
        exact ih hrest _

/-- Every disk can be asked for what stands at a short path. -/
theorem IsShort.isFile {path : Text} (h : IsShort path) (d : Disk) :
    ∃ found, d.isFile path = .ok found := by
  have hlocate : d.locate path ≠ .error .nameTooLong := by
    unfold locate
    split
    · next hroute =>
      obtain ⟨-, rfl⟩ := route_eq_ok hroute
      exact follow_ne_nameTooLong d h.names _
    · next hroute =>
      unfold route at hroute
      rw [if_neg (Nat.not_lt.mpr h.whole)] at hroute
      split at hroute
      · rw [← Except.error.inj hroute]
        simp
      · exact absurd hroute (by simp)
  have hfind : d.find path ≠ .error .nameTooLong := by
    unfold find
    split
    · next fault hfault =>
      rintro heq
      exact hlocate (hfault.trans (congrArg _ (Except.error.inj heq)))
    · split <;> simp
  unfold Disk.isFile Disk.node
  split
  · exact ⟨_, rfl⟩
  · next hlong => exact absurd hlong hfind
  · exact ⟨_, rfl⟩

end Disk

namespace Value

/-- The text is beyond reading: it is refused, and not for its form. -/
def IsBeyondReading (t : Text) : Prop := ∃ fault, parse t = .error fault ∧ fault ≠ .notJson

/-- Only long numbers and deep brackets are beyond reading. -/
theorem IsModest.not_isBeyondReading {t : Text} (h : IsModest t) : ¬ IsBeyondReading t := by
  rintro ⟨fault, hfault, hform⟩
  exact hform (h.parse_error hfault)

end Value

namespace Coverage

/-! ## Formats -/

theorem ofSummary_ok_iff (t : Text) :
    (∃ report, ofSummary t = .ok report) ↔ ¬ Value.IsBeyondReading t := by
  unfold ofSummary Value.IsBeyondReading
  cases hparse : Value.parse t with
  | error fault =>
    by_cases hform : fault = .notJson
    · subst hform
      exact iff_of_true ⟨none, rfl⟩ (by simp)
    · refine iff_of_false ?_ (not_not_intro ⟨fault, rfl, hform⟩)
      rintro ⟨report, h⟩
      split at h
      · next heq => exact hform (Except.error.inj heq)
      · exact absurd h (by simp)
      · next heq => exact absurd heq (by simp)
      · next heq => exact absurd heq (by simp)
  | ok v =>
    refine iff_of_true ?_ (by simp)
    split
    · next heq => exact absurd heq (by simp)
    · next heq => exact absurd heq (by simp)
    · split <;> exact ⟨_, rfl⟩
    · exact ⟨_, rfl⟩

/-- So many hits on so few lines that no double is near to their quotient. -/
def Overflows (hit found : Int) : Prop :=
  found ≠ 0 ∧ Binary64.wholeLimit * found.natAbs ≤ hit.natAbs

theorem hitPercentage_ok_iff (hit found : Int) :
    (∃ p, hitPercentage hit found = .ok p) ↔ ¬ Overflows hit found := by
  unfold hitPercentage Overflows
  by_cases hzero : found = 0
  · rw [if_pos (beq_iff_eq.mpr hzero)]
    exact iff_of_true ⟨_, rfl⟩ fun h => h.1 hzero
  · have hrange := Binary64.divInts?_isSome hzero hit
    rw [if_neg (by simpa using hzero)]
    cases hquotient : Binary64.divInts? hit found with
    | some ratio =>
      rw [hquotient] at hrange
      exact iff_of_true ⟨_, rfl⟩ fun h => absurd (hrange.mp rfl) (Nat.not_lt.mpr h.2)
    | none =>
      rw [hquotient] at hrange
      refine iff_of_false (by simp) (not_not_intro ⟨hzero, Nat.not_lt.mp fun h => ?_⟩)
      exact Bool.false_ne_true (hrange.mpr h)

/-- The counts of all records, or those of one that is listed, overflow. -/
def IsUnrated (records : List Trace) : Prop :=
  Overflows (totalOf (·.hit) records) (totalOf (·.found) records) ∨
    ∃ r ∈ records.take maxFiles, Overflows r.hit r.found

theorem ofTracefile_ok_iff (t : Text) :
    (∃ report, ofTracefile t = .ok report) ↔ ¬ IsUnrated (traces t) := by
  unfold ofTracefile IsUnrated
  dsimp only
  rw [not_or, ← hitPercentage_ok_iff]
  rcases hrecords : traces t with _ | ⟨r, rest⟩
  · refine iff_of_true ⟨none, rfl⟩ ⟨⟨0.0, rfl⟩, ?_⟩
    rintro ⟨r, hr, -⟩
    exact absurd hr (by simp)
  · rw [if_neg (by simp)]
    refine bind_ok_iff Iff.rfl fun overall _ => (bind_pure_ok_iff _).trans ?_
    rw [mapM_ok_iff, not_exists]
    refine forall_congr' fun r => ?_
    rw [not_and]
    exact imp_congr_right fun _ => (map_ok_iff _).trans (hitPercentage_ok_iff _ _)

/-- A text breaks off the search for a report, in the given format. -/
def Format.Breaks : Format → Text → Prop
  | summary, t => Value.IsBeyondReading t
  | tracefile, t => IsUnrated (traces t)
  | rates, _ => False

theorem Format.read_ok_iff (format : Format) (t : Text) :
    (∃ report, format.read t = .ok report) ↔ ¬ format.Breaks t := by
  cases format with
  | summary => exact ofSummary_ok_iff t
  | tracefile => exact ofTracefile_ok_iff t
  | rates => exact iff_of_true ⟨_, rfl⟩ not_false

/-- A text with nothing extreme in it: a summary without long numbers and deep brackets, or a tracefile
whose hits are no more than a double can count. -/
def Format.IsTame : Format → Text → Prop
  | summary, t => Value.IsModest t
  | tracefile, t =>
    (∀ r ∈ traces t, 0 ≤ r.hit) ∧ totalOf (·.hit) (traces t) < Binary64.wholeLimit
  | rates, _ => True

theorem not_overflows {hit found : Int} (h : hit.natAbs < Binary64.wholeLimit) :
    ¬ Overflows hit found := by
  rintro ⟨hfound, hmany⟩
  have hleast := Nat.le_mul_of_pos_right Binary64.wholeLimit (Int.natAbs_pos.mpr hfound)
  omega

/-- Counts that are not negative add up to no less than each of them. -/
theorem totalOf_bounds {count : Trace → Int} {records : List Trace}
    (h : ∀ r ∈ records, 0 ≤ count r) :
    0 ≤ totalOf count records ∧ ∀ r ∈ records, count r ≤ totalOf count records := by
  induction records with
  | nil => exact ⟨Int.le_refl 0, by simp⟩
  | cons r records ih =>
    obtain ⟨hr, hrest⟩ := List.forall_mem_cons.mp h
    obtain ⟨hsum, hall⟩ := ih hrest
    have hcons : totalOf count (r :: records) = count r + totalOf count records := rfl
    rw [hcons, List.forall_mem_cons]
    exact ⟨by omega, by omega, fun k hk => (hall k hk).trans (by omega)⟩

theorem Format.IsTame.not_breaks {format : Format} {t : Text} (h : format.IsTame t) :
    ¬ format.Breaks t := by
  cases format with
  | summary => exact Value.IsModest.not_isBeyondReading h
  | tracefile =>
    obtain ⟨hcounts, htotal⟩ := h
    have hbounds : 0 ≤ totalOf (·.hit) (traces t) ∧
        ∀ r ∈ traces t, r.hit ≤ totalOf (·.hit) (traces t) := totalOf_bounds hcounts
    obtain ⟨hsum, hall⟩ := hbounds
    rintro (hbreaks | ⟨r, hr, hbreaks⟩)
    · exact not_overflows (by omega) hbreaks
    · have hr := List.mem_of_mem_take hr
      have hleast := hcounts r hr
      have hmost := hall r hr
      exact not_overflows (by omega) hbreaks
  | rates => exact not_false

/-! ## Files -/

section Files

variable {d : Disk} {repository : Text}

/-- The file holds no report: it is absent, no text, or a text that is none in its format. -/
def IsPassedOver (d : Disk) (repository : Text) (file : Text × Format) : Prop :=
  ∀ t, Repository.fileText d repository file.1 = .ok (some t) → file.2.read t = .ok none

/-- The search breaks off at the file. -/
def BreaksAt (d : Disk) (repository : Text) (file : Text × Format) : Prop :=
  ∃ t, Repository.fileText d repository file.1 = .ok (some t) ∧ file.2.Breaks t

/-- The search breaks off at one of the files, behind others that hold no report. -/
def IsBroken (d : Disk) (repository : Text) (files : List (Text × Format)) : Prop :=
  ∃ before file after, files = before ++ file :: after ∧
    (∀ f ∈ before, IsPassedOver d repository f) ∧ BreaksAt d repository file

/-- What a file comes to by itself. -/
def reportAt (d : Disk) (repository : Text) (file : Text × Format) :
    Except Fault (Option CoverageReport) := do
  match ← Repository.fileText d repository file.1 with
  | some t => file.2.read t
  | none => pure none

theorem firstReport_cons (d : Disk) (repository : Text) (file : Text × Format)
    (rest : List (Text × Format)) :
    firstReport d repository (file :: rest) = reportAt d repository file >>= fun
      | some report => .ok (some report)
      | none => firstReport d repository rest := by
  unfold reportAt
  rw [firstReport]
  cases Repository.fileText d repository file.1 with
  | error fault => rfl
  | ok found =>
    cases found with
    | none => rfl
    | some t =>
      simp only [ok_bind]
      cases file.2.read t with
      | error fault => rfl
      | ok report => cases report <;> rfl

variable {file : Text × Format}

/-- A file that can be asked for breaks off, is passed over or holds a report. -/
theorem reportAt_cases (h : ∃ found, Repository.fileText d repository file.1 = .ok found) :
    (∃ fault, reportAt d repository file = .error fault ∧ ¬ IsPassedOver d repository file ∧
        BreaksAt d repository file) ∨
      (reportAt d repository file = .ok none ∧ IsPassedOver d repository file ∧
        ¬ BreaksAt d repository file) ∨
      ∃ report, reportAt d repository file = .ok (some report) ∧
        ¬ IsPassedOver d repository file ∧ ¬ BreaksAt d repository file := by
  obtain ⟨found, hfound⟩ := h
  unfold reportAt IsPassedOver BreaksAt
  rw [hfound, ok_bind]
  cases found with
  | none => exact .inr (.inl ⟨rfl, by simp, by simp⟩)
  | some t =>
    have hread := file.2.read_ok_iff t
    have hbreaks : ∀ {report}, file.2.read t = .ok report →
        ¬ ∃ u, (.ok (some t) : Except Fault (Option Text)) = .ok (some u) ∧ file.2.Breaks u := by
      rintro report hreport ⟨u, heq, hbreaks⟩
      obtain rfl := Option.some.inj (Except.ok.inj heq)
      exact hread.mp ⟨report, hreport⟩ hbreaks
    dsimp only
    cases hreport : file.2.read t with
    | error fault =>
      refine .inl ⟨fault, rfl, fun hpassed => ?_, t, rfl, not_not.mp fun hwhole => ?_⟩
      · exact absurd (hreport.symm.trans (hpassed t rfl)) (by simp)
      · exact absurd (hread.mpr hwhole) (by simp [hreport])
    | ok report =>
      cases report with
      | none =>
        refine .inr (.inl ⟨rfl, fun u heq => ?_, hbreaks hreport⟩)
        rw [← Option.some.inj (Except.ok.inj heq)]
        exact hreport
      | some report =>
        refine .inr (.inr ⟨report, rfl, fun hpassed => ?_, hbreaks hreport⟩)
        exact absurd (hreport.symm.trans (hpassed t rfl)) (by simp)

theorem isBroken_cons (file : Text × Format) (rest : List (Text × Format)) :
    IsBroken d repository (file :: rest) ↔ BreaksAt d repository file ∨
      IsPassedOver d repository file ∧ IsBroken d repository rest := by
  constructor
  · rintro ⟨before, broken, after, heq, hbefore, hbroken⟩
    rcases before with _ | ⟨first, before⟩
    · obtain ⟨rfl, -⟩ := List.cons.inj heq
      exact .inl hbroken
    · obtain ⟨rfl, hrest⟩ := List.cons.inj heq
      obtain ⟨hfirst, hbefore⟩ := List.forall_mem_cons.mp hbefore
      exact .inr ⟨hfirst, before, broken, after, hrest, hbefore, hbroken⟩
  · rintro (hbreaks | ⟨hpassed, before, broken, after, rfl, hbefore, hbroken⟩)
    · exact ⟨[], file, rest, rfl, by simp, hbreaks⟩
    · exact ⟨file :: before, broken, after, rfl, List.forall_mem_cons.mpr ⟨hpassed, hbefore⟩, hbroken⟩

/-- The search comes to an end just if it does not break off, and to no report just if every file is
passed over. -/
theorem firstReport_search {files : List (Text × Format)}
    (h : ∀ f ∈ files, ∃ found, Repository.fileText d repository f.1 = .ok found) :
    ((∃ report, firstReport d repository files = .ok report) ↔ ¬ IsBroken d repository files) ∧
      (firstReport d repository files = .ok none ↔ ∀ f ∈ files, IsPassedOver d repository f) := by
  induction files with
  | nil =>
    refine ⟨iff_of_true ⟨none, rfl⟩ ?_, iff_of_true rfl (by simp)⟩
    rintro ⟨before, file, after, heq, -⟩
    exact absurd heq (by simp)
  | cons file rest ih =>
    obtain ⟨hfile, hrest⟩ := List.forall_mem_cons.mp h
    obtain ⟨hends, hnone⟩ := ih hrest
    rw [firstReport_cons, isBroken_cons, List.forall_mem_cons]
    rcases reportAt_cases hfile with
      ⟨fault, hfault, hover, hbreaks⟩ | ⟨hpassed, hover, hwhole⟩ | ⟨report, hreport, hover, hwhole⟩
    · rw [hfault, error_bind]
      simp [hover, hbreaks]
    · rw [hpassed, ok_bind]
      dsimp only
      rw [hends, hnone]
      simp [hover, hwhole]
    · rw [hreport, ok_bind]
      simp [hover, hwhole]

/-! ## The search -/

/-- The manifest is beyond reading. -/
def IsManifestBroken (d : Disk) (repository : Text) : Prop :=
  ∃ t, Repository.fileText d repository Repository.manifestName = .ok (some t) ∧
    Value.IsBeyondReading t

/-- The manifest and the reports of a repository have nothing extreme in them. -/
structure IsTame (d : Disk) (repository : Text) : Prop where
  manifest : ∀ t, Repository.fileText d repository Repository.manifestName = .ok (some t) →
    Value.IsModest t
  reports : ∀ file ∈ reportFiles, ∀ t, Repository.fileText d repository file.1 = .ok (some t) →
    file.2.IsTame t

theorem IsTame.not_isManifestBroken (h : IsTame d repository) : ¬ IsManifestBroken d repository := by
  rintro ⟨t, ht, hbroken⟩
  exact (h.manifest t ht).not_isBeyondReading hbroken

theorem IsTame.not_isBroken (h : IsTame d repository) : ¬ IsBroken d repository reportFiles := by
  rintro ⟨before, file, after, heq, -, t, ht, hbreaks⟩
  have hfile : file ∈ reportFiles := by
    rw [heq]
    exact List.mem_append_right before List.mem_cons_self
  exact (h.reports file hfile t ht).not_breaks hbreaks

/-- Each file that a report may ask for can be asked for: none of their paths is too long. -/
def IsAskable (d : Disk) (repository : Text) : Prop :=
  ∀ name ∈ reportNames, ∃ found, d.isFile (Text.joinPath repository name) = .ok found

/-- In a repository at a short path every file can be asked for, whatever is on the disk. -/
theorem isAskable_of_isShort
    (h : ∀ name ∈ reportNames, Disk.IsShort (Text.joinPath repository name)) (d : Disk) :
    IsAskable d repository := fun name hname => (h name hname).isFile d

section Askable

variable (h : IsAskable d repository)

include h

theorem IsAskable.fileText {name : Text} (hname : name ∈ reportNames) :
    ∃ found, Repository.fileText d repository name = .ok found := by
  unfold Repository.fileText
  exact (map_ok_iff _).mpr (h name hname)

theorem IsAskable.reportTexts :
    ∀ file ∈ reportFiles, ∃ found, Repository.fileText d repository file.1 = .ok found :=
  fun _ hfile => h.fileText (List.mem_append_right _ (List.mem_map_of_mem hfile))

theorem IsAskable.fileHolds (name : Text) (hname : name ∈ reportNames) (fragments : List Text) :
    ∃ found, Repository.fileHolds d repository name fragments = .ok found :=
  (map_ok_iff _).mpr (h.fileText hname)

theorem IsAskable.manifest_ok_iff :
    (∃ members, Repository.manifest d repository = .ok members) ↔
      ¬ IsManifestBroken d repository := by
  have hname : Repository.manifestName ∈ reportNames := by decide
  obtain ⟨found, hfound⟩ := h.fileText hname
  unfold Repository.manifest IsManifestBroken
  rw [hfound, ok_bind]
  cases found with
  | none => exact iff_of_true ⟨[], rfl⟩ (by simp)
  | some t =>
    have hsame : (∃ u, (.ok (some t) : Except Fault (Option Text)) = .ok (some u) ∧
        Value.IsBeyondReading u) ↔ Value.IsBeyondReading t := by simp
    rw [hsame]
    unfold Value.IsBeyondReading
    dsimp only
    cases hparse : Value.parse t with
    | ok v => exact iff_of_true (by cases v <;> exact ⟨_, rfl⟩) (by simp)
    | error fault =>
      by_cases hform : fault = .notJson
      · subst hform
        exact iff_of_true ⟨[], rfl⟩ (by simp)
      · refine iff_of_false ?_ (not_not_intro ⟨fault, rfl, hform⟩)
        rintro ⟨members, hmembers⟩
        cases fault <;> first | exact hform rfl | exact absurd hmembers (by simp [throw, throwThe, MonadExceptOf.throw])

theorem IsAskable.hasFile (names : List Text) (hnames : ∀ name ∈ names, name ∈ reportNames) :
    ∃ found, Repository.hasFile d repository names = .ok found :=
  anyM_ok fun name hname => h name (hnames name hname)

/-- The tool is looked for with success just if the manifest is not beyond reading. -/
theorem IsAskable.detectTool_ok_iff :
    (∃ tool, detectTool d repository = .ok tool) ↔ ¬ IsManifestBroken d repository := by
  rw [← h.manifest_ok_iff]
  have hjest : ∃ found, jestInFiles d repository = .ok found := by
    have hfiles : ∀ file ∈ ["jest.config.js".toList, "jest.config.ts".toList],
        file ∈ reportNames := by decide
    obtain ⟨found, hfound⟩ := findSomeM?_ok fun file hfile => h.fileText (hfiles file hfile)
    unfold jestInFiles
    dsimp only
    rw [hfound, ok_bind]
    cases found <;> exact ⟨_, rfl⟩
  obtain ⟨jest, hjest⟩ := hjest
  obtain ⟨setup, hsetup⟩ := h.fileHolds "setup.cfg" (by decide) ["coverage"]
  obtain ⟨project, hproject⟩ :=
    h.fileHolds "pyproject.toml" (by decide) ["[tool.coverage", "pytest-cov"]
  unfold detectTool
  rw [hjest, hsetup, hproject]
  simp only [ok_bind]
  refine bind_ok_iff_left fun members => ?_
  split
  · exact ⟨_, rfl⟩
  · split
    · exact ⟨_, rfl⟩
    · cases jest <;> cases setup <;> cases project <;> exact ⟨_, rfl⟩

theorem IsAskable.ofManifest?_ok_iff :
    (∃ framework, TestPlan.Framework.ofManifest? d repository = .ok framework) ↔
      ¬ IsManifestBroken d repository := by
  have hsigns : ∀ deps, ∀ sign ∈ TestPlan.Framework.manifestSigns,
      ∃ found, sign.shown d repository deps = .ok found := by
    intro deps sign hsign
    have hnames : ∀ sign ∈ TestPlan.Framework.manifestSigns, ∀ name ∈ sign.files,
        name ∈ reportNames := by decide
    unfold TestPlan.Framework.Sign.shown
    split
    · exact ⟨true, rfl⟩
    · exact h.hasFile sign.files (hnames sign hsign)
  obtain ⟨found, hfound⟩ := h Repository.manifestName (by decide)
  unfold TestPlan.Framework.ofManifest?
  cases found with
  | false =>
    rw [Repository.hasFile_missing hfound]
    refine iff_of_true ⟨none, rfl⟩ ?_
    rintro ⟨t, ht, -⟩
    exact absurd ((Repository.fileText_missing hfound).symm.trans ht) (by simp)
  | true =>
    have hthere : Repository.hasFile d repository [Repository.manifestName] = .ok true := by
      unfold Repository.hasFile
      rw [List.anyM, hfound]
      rfl
    rw [hthere, ← h.manifest_ok_iff]
    exact bind_ok_iff_left fun members => (bind_pure_ok_iff _).mpr (findM?_ok (hsigns _))

/-- The test framework is looked for with success just if the manifest is not beyond reading. -/
theorem IsAskable.detect_ok_iff :
    (∃ framework, TestPlan.Framework.detect d repository = .ok framework) ↔
      ¬ IsManifestBroken d repository := by
  have hpytest : ∃ found, TestPlan.Framework.usesPytest d repository = .ok found := by
    have hfiles : ∀ file ∈ ["pyproject.toml".toList, "setup.py".toList], file ∈ reportNames := by
      decide
    obtain ⟨found, hfound⟩ := h.hasFile ["pytest.ini"] (by decide)
    unfold TestPlan.Framework.usesPytest
    dsimp only
    rw [hfound, ok_bind]
    cases found with
    | true => exact ⟨true, rfl⟩
    | false => exact anyM_ok fun file hfile => h.fileHolds file (hfiles file hfile) ["pytest"]
  rw [← h.ofManifest?_ok_iff]
  unfold TestPlan.Framework.detect
  refine bind_ok_iff_left fun framework => ?_
  cases framework with
  | some framework => exact ⟨framework, rfl⟩
  | none => exact (bind_pure_ok_iff _).mpr hpytest

/-- The coverage is looked for with success just if neither the manifest nor, in a repository that
measures its coverage, a report breaks off the search. -/
theorem IsAskable.search_ends_iff :
    (∃ found, report d repository = .ok found) ↔ ¬ IsManifestBroken d repository ∧
      ∀ tool, detectTool d repository = .ok (some tool) → ¬ IsBroken d repository reportFiles := by
  obtain ⟨hends, -⟩ := firstReport_search h.reportTexts
  unfold report
  refine bind_ok_iff h.detectTool_ok_iff fun tool htool => ?_
  cases tool with
  | none => exact iff_of_true ⟨none, rfl⟩ fun tool heq => absurd (htool.symm.trans heq) (by simp)
  | some tool =>
    refine hends.trans ⟨fun hwhole _ _ => hwhole, fun hall => hall tool htool⟩

end Askable

end Files

end Coverage

end ChangeReview
