import ChangeReview.Change.Diff
import ChangeReview.Change.File
import ChangeReview.TestPlan.Skeleton
import ChangeReview.Text.Case
import ChangeReview.Text.Path
import ChangeReview.Text.Scan

/-!
# Suggested tests

A change that brings more code files than tests gets suggestions: one for each code file that adds
more than a few lines and whose base name no test of the change mentions.
-/
namespace ChangeReview.TestPlan

/-!
## Tests and code

Which files of a change are tests, and which are code that should come with tests. Both are told by
the path alone.
-/

/-- The shapes of test files. -/
def testPatterns : List PathPattern := [
  .endsIn [".test.js", ".test.jsx", ".test.ts", ".test.tsx"],
  .endsIn [".spec.js", ".spec.jsx", ".spec.ts", ".spec.tsx"],
  .endsIn ["_test.py"],
  .spans "test_" [".py"],
  .endsIn [".test.go", "_test.go", "Test.java", ".test.rs"]]

def isTestFile (path : Text) : Bool := testPatterns.any (·.accepts path)

/-- The extensions of source code, in lower case. -/
def codeExtensions : List Text :=
  [".ts", ".tsx", ".js", ".jsx", ".py", ".go", ".java", ".rs", ".rb", ".cs"]

/-- Fragments of type stubs, configurations and index modules, which need no tests. -/
def exemptFragments : List Text := [".d.ts", ".config.", "index."]

/-- Source code that should come with tests. -/
def isCodeFile (path : Text) : Bool :=
  !exemptFragments.any (Text.occurs · path) &&
    codeExtensions.contains (Text.lower (Text.extension path))

/-!
## Declared names

The names of functions, classes and bindings that a piece of code declares, each once and in the
order of their declarations.
-/

/-- The words behind which a declared name stands. -/
def declarators : List Text := ["function", "const", "let", "var", "def", "class"]

/-- Words that prose puts where code has a name. -/
def ignoredNames : List Text := ["the", "and", "for"]

/-- The most names that one test covers. -/
def maxNames : Int := 5

/-- A name worth a test: of three characters or more, and no ignored word. -/
def isTestable (name : Text) : Bool := 2 < name.length && !ignoredNames.contains name

/-- The items without their later repetitions. -/
def distinct (names : List Text) : List Text :=
  names.foldl (fun seen name => if seen.contains name then seen else seen ++ [name]) []

/-- The first `limit` names that `code` declares. -/
def declaredNames (code : Text) (limit : Int) : List Text :=
  Text.takeLimit limit
    (distinct ((Text.matchesOf (Text.namedAfter declarators) code).filter isTestable))

/-! ## Suggestions -/

/-- A test that a change should have brought. -/
structure Suggestion where
  forFile : Text
  framework : Framework
  code : Text
  description : Text
  path : Text
  deriving DecidableEq, Repr

/-- A file that adds no more lines than this gets no suggestion. -/
def minAdditions : Int := 5

/-- The code files of a change. -/
def codeFiles (files : List ChangedFile) : List ChangedFile :=
  files.filter fun f => isCodeFile f.path && !isTestFile f.path

/-- The paths of the tests of a change, in lower case. -/
def testPaths (files : List ChangedFile) : List Text :=
  (files.filter fun f => isTestFile f.path).map fun f => Text.lower f.path

/-- Some test mentions the base name of the file. -/
def isCovered (tests : List Text) (f : ChangedFile) : Bool :=
  tests.any (Text.occurs (Text.lower (Text.stem f.path)))

/-- The test suggested for a file. -/
def suggest (framework : Framework) (f : ChangedFile) : Suggestion where
  forFile := f.path
  framework := framework
  code := skeleton framework f.path
    (declaredNames (Text.join "\n" (Diff.addedLines f.diff)) maxNames)
  description := "Suggested tests for new/modified code in " ++ f.path
  path := testPath f.path framework

/-- The code files that call for a test. -/
def untested (files : List ChangedFile) : List ChangedFile :=
  let tests := testPaths files
  let code := codeFiles files
  if code.length ≤ tests.length then []
  else code.filter fun f => !isCovered tests f && minAdditions < f.additions

/-- The tests suggested for a change under a framework. -/
def suggestions (framework : Framework) (files : List ChangedFile) : List Suggestion :=
  (untested files).map (suggest framework)

/-- The tests suggested for a change in a repository. The framework is looked up only when the
change brings more code files than tests. -/
def suggestFor (d : Disk) (repository : Value) (files : List ChangedFile) :
    Except Fault (List Suggestion) := do
  if (codeFiles files).length ≤ (testPaths files).length then return []
  let framework ← Framework.detect d (← repository.toPath)
  return suggestions framework files

end ChangeReview.TestPlan
