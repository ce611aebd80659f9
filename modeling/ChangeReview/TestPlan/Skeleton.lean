import ChangeReview.Repository.Manifest
import ChangeReview.Text.Case
import ChangeReview.Text.Classes

/-!
# Test skeletons

The source of a test with the right imports and one block for each name to be covered. A framework
without a skeleton of its own, a foreign kind of file or a file that declares nothing gets a comment
that lists what to cover.
-/
namespace ChangeReview.TestPlan

/-!
## Test frameworks

The frameworks for which test skeletons exist, and how a repository shows which of them it uses:
by the dependencies in its manifest and by the frameworks' own configuration files.
-/

/-- A test framework; one without skeletons of its own is known by its name only. -/
inductive Framework where
  | jest
  | vitest
  | mocha
  | pytest
  | other (name : Text)
  deriving DecidableEq, Repr

namespace Framework

def name : Framework → Text
  | jest => "jest"
  | vitest => "vitest"
  | mocha => "mocha"
  | pytest => "pytest"
  | other name => name

def ofName (t : Text) : Framework :=
  if t == "jest" then jest
  else if t == "vitest" then vitest
  else if t == "mocha" then mocha
  else if t == "pytest" then pytest
  else other t

/-- The framework of a repository that shows none. -/
def unknown : Framework := other "other"

/-- A framework with the packages and the files that show it. -/
structure Sign where
  framework : Framework
  packages : List Text
  files : List Text

/-- The frameworks that a package manifest can show, in the order in which they are tried. -/
def manifestSigns : List Sign := [
  ⟨jest, ["jest", "@jest/core"], ["jest.config.js", "jest.config.ts"]⟩,
  ⟨vitest, ["vitest"], ["vitest.config.js", "vitest.config.ts"]⟩,
  ⟨mocha, ["mocha"], [".mocharc.js", ".mocharc.json"]⟩]

def Sign.shown (s : Sign) (d : Disk) (repository : Text) (deps : List (Text × Value)) :
    Except Fault Bool :=
  if s.packages.any (Repository.dependsOn deps) then .ok true
  else Repository.hasFile d repository s.files

/-- The framework that the manifest shows, if there is a manifest. -/
def ofManifest? (d : Disk) (repository : Text) : Except Fault (Option Framework) := do
  if !(← Repository.hasFile d repository [Repository.manifestName]) then return none
  let deps := Repository.dependencies (← Repository.manifest d repository)
  let sign ← manifestSigns.findM? fun s => s.shown d repository deps
  return sign.map (·.framework)

/-- The repository is set up for `pytest`. -/
def usesPytest (d : Disk) (repository : Text) : Except Fault Bool := do
  let projectFiles : List Text := ["pyproject.toml", "setup.py"]
  if ← Repository.hasFile d repository ["pytest.ini"] then return true
  projectFiles.anyM fun file => Repository.fileHolds d repository file ["pytest"]

/-- The framework that a repository uses. -/
def detect (d : Disk) (repository : Text) : Except Fault Framework := do
  match ← ofManifest? d repository with
  | some framework => return framework
  | none => return if ← usesPytest d repository then pytest else unknown

end Framework

/-!
## Where a test lives

The conventional path of the test for a source file: beside the file or in a parallel folder, under
a name made from the file's own.
-/

/-- The extensions of scripts that run in browsers and on servers alike. -/
def scriptExtensions : List Text := [".ts", ".tsx", ".js", ".jsx"]

def isScript (ext : Text) : Bool := scriptExtensions.contains ext

/-- The name of the test for the file `base ++ ext`, unless the framework has a convention. -/
def testName (base ext : Text) : Text :=
  if ext == ".py" then "test_" ++ base ++ ".py"
  else if ext == ".go" then base ++ "_test.go"
  else base ++ ".test" ++ ext

/-- Where the test for the file at `path` would live. -/
def testPath (path : Text) (framework : Framework) : Text :=
  let folder := Text.directory path
  let (base, ext) := Text.splitExtension (Text.baseName path)
  let beside := Text.joinPath folder (testName base ext)
  if !isScript ext then beside
  else match framework with
    | .jest | .vitest =>
      Text.joinPath (Text.replaceFirst "src" "tests" folder) (base ++ ".test" ++ ext)
    | .mocha => Text.joinPath folder (base ++ ".spec" ++ ext)
    | _ => beside

/-! ## Skeletons -/

/-- What distinguishes the script frameworks: the header, how a value is found to be defined, and
how a function starts. -/
structure ScriptStyle where
  header : (names module : Text) → Text
  defined : (name : Text) → Text
  opener : Text

def mochaStyle : ScriptStyle where
  header names module :=
    "const \x7b expect \x7d = require('chai');\n" ++
      "const \x7b " ++ names ++ " \x7d = require('" ++ module ++ "');\n"
  defined name := "expect(" ++ name ++ ").to.not.be.undefined;"
  opener := "function ()"

/-- The style of a framework whose functions are imported from `runner`. -/
def importStyle (runner : Text) : ScriptStyle where
  header names module :=
    "import \x7b describe, it, expect \x7d from '" ++ runner ++ "';\n" ++
      "import \x7b " ++ names ++ " \x7d from '" ++ module ++ "';\n"
  defined name := "expect(" ++ name ++ ").toBeDefined();"
  opener := "() =>"

namespace ScriptStyle

/-- One case of a block. -/
def case (style : ScriptStyle) (title name : Text) : Text :=
  "    it('" ++ title ++ "', " ++ style.opener ++ " \x7b\n" ++
    "      " ++ style.defined name ++ "\n    \x7d);\n"

/-- The block that covers one name. -/
def block (style : ScriptStyle) (name : Text) : Text :=
  "  describe('" ++ name ++ "', " ++ style.opener ++ " \x7b\n" ++
    style.case "works for typical input" name ++ "\n" ++
    style.case "handles edge cases" name ++ "  \x7d);\n"

def render (style : ScriptStyle) (base module : Text) (names : List Text) : Text :=
  style.header (Text.join ", " names) module ++
    "\ndescribe('" ++ base ++ "', " ++ style.opener ++ " \x7b\n" ++
    Text.join "\n" (names.map style.block) ++ "\x7d);\n"

end ScriptStyle

/-- The letters and digits of a name, with a capital where a stretch of them starts. -/
def className (base : Text) : Text :=
  (Text.splitBy (fun c => !Text.isAsciiAlnum c) base).flatMap Text.capitalize

/-- The two cases that cover one name in a test class. -/
def classCases (name : Text) : List Text := [
  "    def test_" ++ name ++ "_works(self):",
  "        assert " ++ name ++ " is not None",
  "",
  "    def test_" ++ name ++ "_edge_cases(self):",
  "        pytest.skip(\"edge cases for " ++ name ++ " are not covered yet\")"]

/-- The skeleton of a test class. -/
def renderClass (base module : Text) (names : List Text) : Text :=
  let dotted := module.map fun c => if c == '/' then '.' else c
  let opening : List Text := [
    "import pytest", "", "from " ++ dotted ++ " import " ++ Text.join ", " names, "",
    "\nclass Test" ++ className base ++ ":"]
  let gap : List Text := [""]
  Text.unlines (opening ++ gap.intercalate (names.map classCases))

/-- The mark of a comment in files with the given extension. -/
def commentMark (ext : Text) : Text := if ext == ".py" || ext == ".rb" then "#" else "//"

/-- A comment that lists what to cover. -/
def renderNote (framework : Framework) (base ext : Text) (names : List Text) : Text :=
  let mark := commentMark ext
  let targets : List Text := if names.isEmpty then ["module behaviour"] else names
  let opening : List Text := [
    mark ++ " Tests for " ++ base ++ " (framework: " ++ framework.name ++ ")", mark ++ " Cover:"]
  Text.unlines (opening ++ targets.map fun target => mark ++ " - " ++ target)

/-- The skeleton of a test for the file at `path` that covers `names`. -/
def skeleton (framework : Framework) (path : Text) (names : List Text) : Text :=
  let base := Text.stem path
  let (module, ext) := Text.splitExtension path
  let note := renderNote framework base ext names
  if names.isEmpty then note
  else match framework with
    | .jest => if isScript ext then (importStyle "@jest/globals").render base module names else note
    | .vitest => if isScript ext then (importStyle "vitest").render base module names else note
    | .mocha => if isScript ext then mochaStyle.render base module names else note
    | .pytest => if ext == ".py" then renderClass base module names else note
    | .other _ => note

end ChangeReview.TestPlan
