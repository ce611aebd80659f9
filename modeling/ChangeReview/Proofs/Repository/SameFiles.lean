import ChangeReview.Coverage.Locate
import ChangeReview.Proofs.Value.LineEnds
import ChangeReview.TestPlan.Suggest
import ChangeReview.Workflow.Outcome

/-!
# What a report asks of a repository

A report asks a repository only for a few files: those that show its test framework, those that show
how it measures coverage, and those where a coverage report can be. Two disks that have these alike
give the same tests and the same coverage. A repository without configuration files shows no test
framework and measures no coverage, and looking for them takes no fault: every file that is asked for
is found missing.
-/
namespace ChangeReview

/-- The files at the root of a repository that show how it is tested and measured. -/
def configurationNames : List Text := [
  "package.json", "jest.config.js", "jest.config.ts", "pytest.ini", "pyproject.toml", "setup.py",
  "setup.cfg"]

/-- A repository has none of the configuration files. -/
def Disk.IsBare (d : Disk) (repository : Text) : Prop :=
  ∀ name ∈ configurationNames, d.isFile (Text.joinPath repository name) = .ok false

theorem isBare_empty : Disk.IsBare {} "." := by
  unfold Disk.IsBare
  decide +kernel

namespace Repository

variable {d : Disk} {repository name : Text}

theorem fileText_missing (h : d.isFile (Text.joinPath repository name) = .ok false) :
    fileText d repository name = .ok none := by
  unfold fileText
  dsimp only
  rw [h]
  rfl

/-- A file is found to hold the text it was written with, if no line of it ends in a return. -/
theorem fileText_held {content : Text} (hcontent : Text.NoReturn content)
    (hfile : d.isFile (Text.joinPath repository name) = .ok true)
    (hbytes : d.readBytes (Text.joinPath repository name) = .ok (Text.toUtf8 content)) :
    fileText d repository name = .ok (some content) := by
  have hread : d.readText (Text.joinPath repository name) = .ok content := by
    unfold Disk.readText
    rw [hbytes]
    dsimp only
    rw [Text.ofUtf8_toUtf8, Except.map, Text.normalizeNewlines_eq hcontent]
  unfold fileText
  dsimp only
  rw [hfile, hread]
  rfl

theorem fileHolds_missing (h : d.isFile (Text.joinPath repository name) = .ok false)
    (fragments : List Text) : fileHolds d repository name fragments = .ok false := by
  rw [fileHolds, fileText_missing h]
  rfl

theorem hasFile_missing (h : d.isFile (Text.joinPath repository name) = .ok false) :
    hasFile d repository [name] = .ok false := by
  unfold hasFile
  rw [List.anyM, h]
  rfl

end Repository

namespace Disk.IsBare

variable {d : Disk} {repository : Text} (h : d.IsBare repository)

include h

/-- A bare repository shows no test framework. -/
theorem detect : TestPlan.Framework.detect d repository = .ok TestPlan.Framework.unknown := by
  have hmanifest : TestPlan.Framework.ofManifest? d repository = .ok none := by
    unfold TestPlan.Framework.ofManifest?
    rw [Repository.hasFile_missing (h Repository.manifestName (by decide))]
    rfl
  have hpytest : TestPlan.Framework.usesPytest d repository = .ok false := by
    unfold TestPlan.Framework.usesPytest
    dsimp only
    rw [Repository.hasFile_missing (h "pytest.ini" (by decide))]
    rw [List.anyM, Repository.fileHolds_missing (h "pyproject.toml" (by decide))]
    rw [List.anyM, Repository.fileHolds_missing (h "setup.py" (by decide))]
    rfl
  unfold TestPlan.Framework.detect
  rw [hmanifest, hpytest]
  rfl

/-- A bare repository measures no coverage. -/
theorem detectTool : Coverage.detectTool d repository = .ok none := by
  have hmanifest : Repository.manifest d repository = .ok [] := by
    unfold Repository.manifest
    rw [Repository.fileText_missing (h Repository.manifestName (by decide))]
    rfl
  have hjest : Coverage.jestInFiles d repository = .ok false := by
    unfold Coverage.jestInFiles
    dsimp only
    rw [List.findSomeM?, Repository.fileText_missing (h "jest.config.js" (by decide))]
    rw [List.findSomeM?, Repository.fileText_missing (h "jest.config.ts" (by decide))]
    rfl
  unfold Coverage.detectTool
  rw [hmanifest, hjest, Repository.fileHolds_missing (h "setup.cfg" (by decide)),
    Repository.fileHolds_missing (h "pyproject.toml" (by decide))]
  rfl

theorem suggestFor (files : List ChangedFile) :
    ∃ suggestions, TestPlan.suggestFor d (.text repository) files = .ok suggestions := by
  unfold TestPlan.suggestFor
  split
  · exact ⟨_, rfl⟩
  · refine ⟨TestPlan.suggestions TestPlan.Framework.unknown files, ?_⟩
    show (TestPlan.Framework.detect d repository >>= _) = _
    rw [h.detect]
    rfl

theorem report : Coverage.report d repository = .ok none := by
  unfold Coverage.report
  rw [h.detectTool]
  rfl

end Disk.IsBare

/-! ## Repositories with the same files -/

/-- The configuration files of the frameworks that have some. -/
def frameworkNames : List Text := [
  "vitest.config.js", "vitest.config.ts", ".mocharc.js", ".mocharc.json"]

/-- The files of a repository that a report may ask for. -/
def reportNames : List Text :=
  configurationNames ++ frameworkNames ++ Coverage.reportFiles.map (·.1)

/-- A repository has the files that a report may ask for on both disks alike. -/
def Disk.SameFiles (d d' : Disk) (repository : Text) : Prop :=
  ∀ name ∈ reportNames, d'.isFile (Text.joinPath repository name) =
      d.isFile (Text.joinPath repository name) ∧
    Repository.fileText d' repository name = Repository.fileText d repository name

section Rows

variable {α β : Type} {items : List α}

theorem anyM_congr {f g : α → Except Fault Bool} (h : ∀ a ∈ items, f a = g a) :
    items.anyM f = items.anyM g := by
  induction items with
  | nil => rfl
  | cons a rest ih =>
    rw [List.anyM, List.anyM, h a List.mem_cons_self,
      ih fun b hb => h b (List.mem_cons_of_mem a hb)]

theorem findM?_congr {f g : α → Except Fault Bool} (h : ∀ a ∈ items, f a = g a) :
    items.findM? f = items.findM? g := by
  induction items with
  | nil => rfl
  | cons a rest ih =>
    rw [List.findM?, List.findM?, h a List.mem_cons_self,
      ih fun b hb => h b (List.mem_cons_of_mem a hb)]

theorem findSomeM?_congr {f g : α → Except Fault (Option β)} (h : ∀ a ∈ items, f a = g a) :
    items.findSomeM? f = items.findSomeM? g := by
  induction items with
  | nil => rfl
  | cons a rest ih =>
    rw [List.findSomeM?, List.findSomeM?, h a List.mem_cons_self,
      ih fun b hb => h b (List.mem_cons_of_mem a hb)]

end Rows

namespace Disk.SameFiles

variable {d d' : Disk} {repository : Text} (h : d.SameFiles d' repository)

include h

theorem hasFile {names : List Text} (hnames : ∀ name ∈ names, name ∈ reportNames) :
    Repository.hasFile d' repository names = Repository.hasFile d repository names :=
  anyM_congr fun name hname => (h name (hnames name hname)).1

theorem fileHolds {name : Text} (hname : name ∈ reportNames) (fragments : List Text) :
    Repository.fileHolds d' repository name fragments =
      Repository.fileHolds d repository name fragments := by
  unfold Repository.fileHolds
  rw [(h name hname).2]

theorem manifest : Repository.manifest d' repository = Repository.manifest d repository := by
  unfold Repository.manifest
  rw [(h Repository.manifestName (by decide)).2]

theorem detect : TestPlan.Framework.detect d' repository = TestPlan.Framework.detect d repository := by
  have hsigns : ∀ sign ∈ TestPlan.Framework.manifestSigns, ∀ name ∈ sign.files,
      name ∈ reportNames := by decide
  have hshown : ∀ sign ∈ TestPlan.Framework.manifestSigns, ∀ deps,
      sign.shown d' repository deps = sign.shown d repository deps := by
    intro sign hsign deps
    unfold TestPlan.Framework.Sign.shown
    rw [h.hasFile (hsigns sign hsign)]
  have hmanifest : TestPlan.Framework.ofManifest? d' repository =
      TestPlan.Framework.ofManifest? d repository := by
    unfold TestPlan.Framework.ofManifest?
    rw [h.hasFile (by decide), h.manifest]
    simp only [findM?_congr fun sign hsign => hshown sign hsign _]
  have hpytest : TestPlan.Framework.usesPytest d' repository =
      TestPlan.Framework.usesPytest d repository := by
    have hprojects : ∀ file ∈ ["pyproject.toml".toList, "setup.py".toList], file ∈ reportNames := by
      decide
    unfold TestPlan.Framework.usesPytest
    dsimp only
    rw [h.hasFile (by decide), anyM_congr fun file hfile => h.fileHolds (hprojects file hfile) _]
  unfold TestPlan.Framework.detect
  rw [hmanifest, hpytest]

theorem detectTool : Coverage.detectTool d' repository = Coverage.detectTool d repository := by
  have hjest : Coverage.jestInFiles d' repository = Coverage.jestInFiles d repository := by
    have hfiles : ∀ file ∈ ["jest.config.js".toList, "jest.config.ts".toList],
        file ∈ reportNames := by decide
    unfold Coverage.jestInFiles
    dsimp only
    rw [findSomeM?_congr fun file hfile => (h file (hfiles file hfile)).2]
  unfold Coverage.detectTool
  rw [h.manifest, hjest, h.fileHolds (by decide), h.fileHolds (by decide)]

theorem firstReport {files : List (Text × Coverage.Format)}
    (hfiles : ∀ file ∈ files, file.1 ∈ reportNames) :
    Coverage.firstReport d' repository files = Coverage.firstReport d repository files := by
  induction files with
  | nil => rfl
  | cons file rest ih =>
    rw [Coverage.firstReport, Coverage.firstReport, (h file.1 (hfiles file List.mem_cons_self)).2,
      ih fun other hother => hfiles other (List.mem_cons_of_mem file hother)]

theorem report : Coverage.report d' repository = Coverage.report d repository := by
  unfold Coverage.report
  rw [h.detectTool, h.firstReport (by decide)]

end Disk.SameFiles

namespace Workflow

variable {d d' : Disk} {repository : Value}

/-- The same files give the same tests. -/
theorem suggestFor_sameFiles (h : ∀ path, repository = .text path → d.SameFiles d' path)
    (files : List ChangedFile) :
    TestPlan.suggestFor d' repository files = TestPlan.suggestFor d repository files := by
  unfold TestPlan.suggestFor
  cases repository with
  | text path =>
    show (if _ then _ else TestPlan.Framework.detect d' path >>= _) =
      (if _ then _ else TestPlan.Framework.detect d path >>= _)
    rw [(h path rfl).detect]
  | _ => rfl

/-- The same files give the same coverage. -/
theorem coverageOf_sameFiles (h : ∀ path, repository = .text path → d.SameFiles d' path)
    (files : List ChangedFile) : coverageOf d' repository files = coverageOf d repository files := by
  unfold coverageOf
  cases repository with
  | text path =>
    show (if _ then Coverage.report d' path else _) = (if _ then Coverage.report d path else _)
    rw [(h path rfl).report]
  | _ => rfl

end Workflow

end ChangeReview
