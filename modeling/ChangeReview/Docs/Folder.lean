import ChangeReview.Repository.Disk
import ChangeReview.Text.Basic
import ChangeReview.Text.Case

/-!
# Documents

The documents of a repository and the sections into which they fall.
-/
namespace ChangeReview.Docs

/-!
## Documents in sections

A markdown document falls into sections at its heading lines. Lines in front of the first heading
belong to no section. Lines are counted from zero and end at line feeds only.
-/

/-- A headed part of a document, with its first and last line. -/
structure Section where
  heading : Text
  level : Nat
  /-- The lines behind the heading, each with its line feed. -/
  content : Text
  lineStart : Nat
  lineEnd : Nat
  deriving DecidableEq, Repr

/-- A document by the name of its file without extension. -/
structure Document where
  filename : Text
  title : Text
  content : Text
  sections : List Section := []
  deriving DecidableEq, Repr

/-- The deepest level of a heading. -/
def maxLevel : Nat := 6

/-- The level and the text of a heading line: number signs, a blank, and at least one character
more, which may be blank itself. -/
def heading? (line : Text) : Option (Nat × Text) :=
  let marks := line.takeWhile (· == '#')
  let rest := line.drop marks.length
  let gap := rest.takeWhile Text.isBlank
  let body := rest.drop gap.length
  if marks.isEmpty || maxLevel < marks.length || gap.isEmpty then none
  else if body.isEmpty && gap.length < 2 then none
  else some (marks.length, Text.trim body)

/-- The lines in front of the first heading, and each heading with the lines behind it. -/
def groups : List Text → List Text × List ((Nat × Text) × List Text)
  | [] => ([], [])
  | l :: r =>
    let (front, rest) := groups r
    match heading? l with
    | some h => ([], (h, front) :: rest)
    | none => (l :: front, rest)

/-- The sections of headed groups, the first of which stands on line `start`. -/
def placeSections (start : Nat) : List ((Nat × Text) × List Text) → List Section
  | [] => []
  | ((level, heading), body) :: rest =>
    let last := start + body.length
    ⟨heading, level, Text.unlines body, start, last⟩ :: placeSections (last + 1) rest

/-- A file name as a title: its first letter in upper case, and spaces for the dashes behind it. -/
def humanize (filename : Text) : Text :=
  Text.upper (filename.take 1) ++ (filename.drop 1).map fun c => if c == '-' then ' ' else c

/-- The document of a text. Its title is the first heading where that has level 1. -/
def Document.parse (text filename : Text) : Document :=
  let (front, groups) := groups (Text.splitOn '\n' text)
  { filename
    title := match groups with
      | ((1, heading), _) :: _ => heading
      | _ => humanize filename
    content := text
    sections := placeSections front.length groups }

/-- The first document with a file name. -/
def find? (docs : List Document) (filename : Text) : Option Document :=
  docs.find? fun d => d.filename == filename

/-!
## The documentation folder

Every readable markdown file directly inside a repository's documentation folder is a document.
-/

/-- The folder that holds a repository's documents. -/
def folderName : Text := ".arch-docs"

def folderPath (repository : Text) : Text := Text.joinPath repository folderName

/-- The repository has a documentation folder. -/
def present (d : Disk) (repository : Text) : Except Fault Bool := d.isFolder (folderPath repository)

/-- The name of a file without the extension, which needs a character on either side of its
point. -/
def fileStem (name : Text) : Text :=
  match Text.splitLast '.' name with
  | some (front, ext) => if front.isEmpty || ext.isEmpty then name else front
  | none => name

/-- The documents of a repository in the order of their file names. -/
def load (d : Disk) (repository : Text) : Except Fault (List Document) := do
  let folder := folderPath repository
  if !(← present d repository) then return []
  let names := ((d.namesAt folder).filter fun n => Text.endsWith n ".md").mergeSort Text.le
  return names.filterMap fun name =>
    (d.readText (Text.joinPath folder name)).toOption.map fun text =>
      Document.parse text (fileStem name)

end ChangeReview.Docs
