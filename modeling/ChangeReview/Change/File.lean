import ChangeReview.Text.Basic
import ChangeReview.Text.Case

/-!
# Changed files

One file of a change set: where it is, what happened to it, how many lines came and went, and its
block of the diff.
-/
namespace ChangeReview

/-- What happened to a file. -/
inductive FileStatus where
  | added
  | modified
  | deleted
  | renamed
  deriving DecidableEq, Repr

namespace FileStatus

/-- The letter that stands for a status. -/
def letter : FileStatus → Text
  | added => "A"
  | modified => "M"
  | deleted => "D"
  | renamed => "R"

/-- The word for a status. -/
def label : FileStatus → Text
  | added => "added"
  | modified => "modified"
  | deleted => "deleted"
  | renamed => "renamed"

/-- The status that a letter stands for. -/
def ofLetter? (t : Text) : Option FileStatus :=
  [added, modified, deleted, renamed].find? fun s => s.letter == t

theorem ofLetter?_letter (s : FileStatus) : ofLetter? s.letter = some s := by
  cases s <;> rfl

end FileStatus

/-- One file of a change set. -/
structure ChangedFile where
  path : Text
  status : FileStatus := .modified
  additions : Int := 0
  deletions : Int := 0
  language : Text := "unknown"
  /-- The file's block of the diff, its header included. -/
  diff : Text := []
  /-- The path before the change, where it differs. -/
  oldPath : Option Text := none
  deriving DecidableEq, Repr

/-- Lines that came plus lines that went. -/
def ChangedFile.totalChanges (f : ChangedFile) : Int := f.additions + f.deletions

/-- The language of each known file extension. -/
def extensionLanguages : List (Text × Text) := [
  ("ts", "typescript"), ("tsx", "typescript"), ("js", "javascript"), ("jsx", "javascript"),
  ("py", "python"), ("java", "java"), ("go", "go"), ("rs", "rust"), ("rb", "ruby"), ("php", "php"),
  ("cs", "csharp"), ("cpp", "cpp"), ("c", "c"), ("swift", "swift"), ("kt", "kotlin"),
  ("yaml", "yaml"), ("yml", "yaml"), ("json", "json"), ("md", "markdown")]

/-- The language of a file by the extension of its name, in any case. -/
def detectLanguage (path : Text) : Text :=
  let name := ((Text.splitLast '/' path).map (·.2)).getD path
  match Text.splitLast '.' name with
  | none => "unknown"
  | some (_, ext) => (extensionLanguages.lookup (Text.lower ext)).getD "unknown"

/-!
## Path patterns

Kinds of files are told by the shape of their paths. A pattern speaks of the end of a path, where a
single line feed at the very end does not count.
-/

/-- A shape of paths. -/
inductive PathPattern where
  /-- The fragment occurs somewhere. -/
  | holds (fragment : Text)
  /-- The path ends in one of the endings. -/
  | endsIn (endings : List Text)
  /-- The fragment occurs on the last line, wholly in front of one of the endings at the end. -/
  | spans (fragment : Text) (endings : List Text)
  deriving DecidableEq, Repr

namespace PathPattern

/-- The path, and the path without a line feed at its end. -/
def endpoints (path : Text) : List Text :=
  match path.reverse with
  | '\n' :: front => [path, front.reverse]
  | _ => [path]

/-- What stands in front of an ending. -/
def dropEnding? (ending path : Text) : Option Text :=
  if Text.endsWith path ending then some (path.take (path.length - ending.length)) else none

/-- What stands behind the last line feed. -/
def lastLine (t : Text) : Text := (t.reverse.takeWhile (· != '\n')).reverse

/-- A path of this shape. -/
def accepts : PathPattern → Text → Bool
  | holds fragment, path => Text.occurs fragment path
  | endsIn endings, path =>
    (endpoints path).any fun p => endings.any fun e => Text.endsWith p e
  | spans fragment endings, path =>
    (endpoints path).any fun p => endings.any fun e =>
      match dropEnding? e p with
      | some front => Text.occurs fragment (lastLine front)
      | none => false

end PathPattern

end ChangeReview
